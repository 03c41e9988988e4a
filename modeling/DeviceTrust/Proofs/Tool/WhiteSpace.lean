import DeviceTrust.Proofs.Jws.ChainOfTrust
import DeviceTrust.Tool.Subcommand
import Mathlib.Data.List.DropRight

/-!
# White space in a JWS file

A JWS file may end with white space, which is left out. White space anywhere else is part of the
token, and no such token is authenticated: all of its bytes are separators, symbols of base64 and
padding, because each of its three segments is decoded at some point before the manifest is
authentic.

Results:
* `IsTrimmed.trimEnd_eq`: the one way to take the white space off the end of a text.
* `not_isWhite_of_outcome`: the bytes of a token that authenticates a manifest.
* `Authenticate.white_space`: white space in the JWS file of the command.
-/

namespace DeviceTrust.Tool

/-- White space: tab, line feed, form feed, carriage return and space. -/
def IsWhite (b : UInt8) : Prop :=
  b ∈ ([9, 10, 12, 13, 32] : Bytes)

instance : DecidablePred IsWhite :=
  fun b => inferInstanceAs (Decidable (b ∈ ([9, 10, 12, 13, 32] : Bytes)))

/-- The text is the token and white space behind it, all of the white space at its end. -/
structure IsTrimmed (text token tail : Bytes) : Prop where
  eq : text = token ++ tail
  isWhite : ∀ b ∈ tail, IsWhite b
  last : ∀ b ∈ token.getLast?, ¬IsWhite b

variable {text token tail w : Bytes}

/-! ## The end of a text -/

theorem isAsciiSpace_iff {b : UInt8} : isAsciiSpace b = true ↔ IsWhite b := by
  simp only [isAsciiSpace, IsWhite, Bool.or_eq_true, beq_iff_eq, List.mem_cons, List.not_mem_nil,
    or_false]
  tauto

theorem trimEnd_append (h : ∀ b ∈ w, IsWhite b) (text : Bytes) :
    trimEnd (text ++ w) = trimEnd text := by
  have hspace : ∀ b ∈ w.reverse, isAsciiSpace b = true := fun b hb =>
    isAsciiSpace_iff.mpr (h b (List.mem_reverse.mp hb))
  rw [trimEnd, List.reverse_append, List.dropWhile_append_of_pos hspace, ← trimEnd]

theorem trimEnd_of_last (h : ∀ b ∈ token.getLast?, ¬IsWhite b) : trimEnd token = token := by
  show token.rdropWhile isAsciiSpace = token
  rw [List.rdropWhile_eq_self_iff]
  intro hne hspace
  exact h _ (List.getLast?_eq_some_getLast hne) (isAsciiSpace_iff.mp hspace)

theorem IsTrimmed.trimEnd_eq (h : IsTrimmed text token tail) : trimEnd text = token := by
  rw [h.eq, trimEnd_append h.isWhite, trimEnd_of_last h.last]

theorem exists_isTrimmed (text : Bytes) : ∃ tail, IsTrimmed text (trimEnd text) tail := by
  refine ⟨text.rtakeWhile isAsciiSpace, ?_, fun b hb => ?_, fun b hb hwhite => ?_⟩
  · exact List.rdropWhile_append_rtakeWhile.symm
  · exact isAsciiSpace_iff.mp (List.mem_rtakeWhile_imp hb)
  · obtain ⟨hne, rfl⟩ := List.mem_getLast?_eq_getLast hb
    exact List.rdropWhile_last_not isAsciiSpace text hne (isAsciiSpace_iff.mpr hwhite)

example : trimEnd [97, 13, 32, 98, 13, 10] = [97, 13, 32, 98] := by decide

/-! ## Tokens -/

theorem not_isSymbol_of_isWhite {b : UInt8} (h : IsWhite b) (alphabet : Base64.Alphabet) :
    alphabet.isSymbol b = false := by
  simp only [IsWhite, List.mem_cons, List.not_mem_nil, or_false] at h
  rcases h with rfl | rfl | rfl | rfl | rfl <;> cases alphabet <;> rfl

/-- Text in base64 is symbols and padding. -/
theorem not_isWhite_of_isEncoding {alphabet : Base64.Alphabet} {bytes : Bytes}
    (h : Base64.IsEncoding alphabet text bytes) : ∀ b ∈ text, ¬IsWhite b := by
  obtain ⟨n, -, rfl⟩ := h
  intro b hb hwhite
  rcases List.mem_append.mp hb with hsymbol | hpad
  · have hsymbol := Base64.isSymbol_of_mem_encodeUnpadded b hsymbol
    rw [not_isSymbol_of_isWhite hwhite] at hsymbol
    exact Bool.false_ne_true hsymbol
  · rw [List.eq_of_mem_replicate hpad] at hwhite
    exact absurd hwhite (by decide)

theorem not_isWhite_of_join {jws : Jws.Compact} (hheader : ∀ b ∈ jws.header, ¬IsWhite b)
    (hpayload : ∀ b ∈ jws.payload, ¬IsWhite b) (hsignature : ∀ b ∈ jws.signature, ¬IsWhite b) :
    ∀ b ∈ jws.join, ¬IsWhite b := by
  have hseparator : ¬IsWhite Jws.separator := by decide
  simp only [Jws.Compact.join, Jws.Compact.signedContent, List.forall_mem_append,
    List.forall_mem_cons]
  exact ⟨⟨hheader, hseparator, hpayload⟩, hseparator, hsignature⟩

/-- The header is decoded for the signing key that it embeds, the signature when it is verified with
this key, and the payload for the digest that it attests. -/
theorem not_isWhite_of_outcome {manifest : Bytes} {rootKeys : List Jws.RootKey}
    (h : Jws.outcome manifest token rootKeys = .ok ()) : ∀ b ∈ token, ¬IsWhite b := by
  obtain ⟨outer, document, key, ⟨embedded, hembeds, -⟩, -, -, hsigned, hattests⟩ :=
    Jws.outcome_eq_ok_iff.mp h
  obtain ⟨header, hheader, -⟩ := hembeds.header
  obtain ⟨signature, -, -, hsignature, -, -, -⟩ := hsigned
  obtain ⟨payload, -, hpayload, -, -⟩ := hattests
  rw [hembeds.text_eq]
  exact not_isWhite_of_join (not_isWhite_of_isEncoding hheader.isEncoding)
    (not_isWhite_of_isEncoding hpayload.isEncoding)
    (not_isWhite_of_isEncoding hsignature.isEncoding)

/-! ## The command -/

theorem authenticateFiles_append (h : ∀ b ∈ w, IsWhite b) (manifest jws : Bytes) :
    authenticateFiles manifest (jws ++ w) = authenticateFiles manifest jws := by
  rw [authenticateFiles, trimEnd_append h, ← authenticateFiles]

/-- The outcome does not depend on what is in the scratch memory. -/
theorem authenticateFiles_eq (manifest jws : Bytes) {scratch : Bytes}
    (h : scratch.length = 3358) : authenticateFiles manifest jws =
      (Jws.authenticateManifest manifest (trimEnd jws) Jws.RootKey.builtIn scratch).1.mapError
        .jws := by
  have hsize : (List.replicate Jws.scratchSize (0 : UInt8)).length = scratch.length := by
    rw [List.length_replicate, h]
    rfl
  rw [authenticateFiles, Jws.authenticateManifest_fst_eq, Jws.authenticateManifest_fst_eq, hsize]

theorem not_isWhite_of_authenticateFiles {manifest jws : Bytes}
    (h : authenticateFiles manifest jws = .ok ()) : ∀ b ∈ trimEnd jws, ¬IsWhite b := by
  rw [authenticateFiles, mapError_eq_ok_iff, Jws.authenticateManifest_fst_eq,
    if_pos (Nat.le_of_eq List.length_replicate.symm)] at h
  exact not_isWhite_of_outcome h

namespace Authenticate

variable {command : Authenticate} {files : String → Except FileError Bytes}

theorem run_eq (command : Authenticate) (files : String → Except FileError Bytes) :
    Id.run (command.run files) = (do
      let manifest ← (files command.manifest).mapError .file
      let jws ← (files command.jws).mapError .file
      authenticateFiles manifest jws) := by
  rw [run]
  cases files command.manifest with
  | error e => rfl
  | ok manifest => cases files command.jws <;> rfl

theorem run_of_ok {manifest jws : Bytes} (hmanifest : files command.manifest = .ok manifest)
    (hjws : files command.jws = .ok jws) :
    Id.run (command.run files) = authenticateFiles manifest jws := by
  simp only [run_eq, hmanifest, hjws, Except.mapError, bind, Except.bind]

theorem exists_files_of_run (h : Id.run (command.run files) = .ok ()) :
    ∃ manifest jws, files command.manifest = .ok manifest ∧ files command.jws = .ok jws ∧
      authenticateFiles manifest jws = .ok () := by
  simp only [run_eq, bind_eq_ok_iff, mapError_eq_ok_iff] at h
  obtain ⟨manifest, hmanifest, jws, hjws, hok⟩ := h
  exact ⟨manifest, jws, hmanifest, hjws, hok⟩

theorem run_append {m : Type → Type} [Monad m] [LawfulMonad m]
    {readFile readFile' : String → m (Except FileError Bytes)} (hw : ∀ b ∈ w, IsWhite b)
    (hmanifest : readFile' command.manifest = readFile command.manifest)
    (hjws : readFile' command.jws = (·.map (· ++ w)) <$> readFile command.jws) :
    command.run readFile' = command.run readFile := by
  simp only [run, hmanifest, hjws, map_eq_pure_bind, bind_assoc, pure_bind]
  refine bind_congr fun manifest => ?_
  cases manifest with
  | error e => rfl
  | ok manifest =>
    refine bind_congr fun jws => ?_
    cases jws with
    | error e => rfl
    | ok jws => exact congrArg pure (authenticateFiles_append hw manifest jws)

/-- White space in the JWS file.

White space behind the content of the file has no effect, whatever this content is and however files
are read.

Every content is a token with white space behind it, and the outcome is that of the token, with the
built-in root keys and any scratch memory of 3358 bytes.

If the manifest is authenticated there is no other white space in the file. -/
theorem white_space (command : Authenticate) :
    (∀ {m : Type → Type} [Monad m] [LawfulMonad m]
      (readFile readFile' : String → m (Except FileError Bytes)) (w : Bytes),
      (∀ b ∈ w, IsWhite b) → readFile' command.manifest = readFile command.manifest →
      readFile' command.jws = (·.map (· ++ w)) <$> readFile command.jws →
      command.run readFile' = command.run readFile) ∧
    (∀ jws, ∃ token tail, IsTrimmed jws token tail) ∧
    (∀ (files : String → Except FileError Bytes) (manifest jws token tail : Bytes),
      files command.manifest = .ok manifest → files command.jws = .ok jws →
      IsTrimmed jws token tail →
      ∀ scratch : Bytes, scratch.length = 3358 → Id.run (command.run files) =
        (Jws.authenticateManifest manifest token Jws.RootKey.builtIn scratch).1.mapError .jws) ∧
    ∀ files : String → Except FileError Bytes, Id.run (command.run files) = .ok () →
      ∃ token tail, files command.jws = .ok (token ++ tail) ∧ (∀ b ∈ tail, IsWhite b) ∧
        ∀ b ∈ token, ¬IsWhite b := by
  refine ⟨fun _ _ _ hw hmanifest hjws => run_append hw hmanifest hjws,
    fun jws => ⟨_, exists_isTrimmed jws⟩, ?_, fun files hrun => ?_⟩
  · intro files manifest jws token tail hmanifest hjws htrimmed scratch hscratch
    rw [run_of_ok hmanifest hjws, authenticateFiles_eq manifest jws hscratch,
      htrimmed.trimEnd_eq]
  · obtain ⟨manifest, jws, -, hjws, hok⟩ := exists_files_of_run hrun
    obtain ⟨tail, htrimmed⟩ := exists_isTrimmed jws
    exact ⟨_, tail, htrimmed.eq ▸ hjws, htrimmed.isWhite, not_isWhite_of_authenticateFiles hok⟩

end Authenticate

end DeviceTrust.Tool
