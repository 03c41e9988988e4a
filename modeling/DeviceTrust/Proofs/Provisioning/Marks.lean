import DeviceTrust.Proofs.Provisioning.ExactFit

/-!
# Encoded fields add no marks

The fields of a user name and of a token stand between marks. A field that is percent-encoded brings
none of its own, so the marks of a token are those of its form, whatever stands in its fields, and
those of a user name do not depend on the user agent. This rests on the encoding being reversible:
its texts have one form, they are read back, and they may be put together before or after they are
encoded.

Results:
* `marksOf_encode`: an encoded field has no mark.
* `marksOf_userName`, `marksOf_tokenText`: the marks of user names and of tokens.
* `encode_reversible`: the laws of the encoding, and what is written with it.
-/

namespace DeviceTrust.Provisioning

/-- The marks that fields stand between, and the line break. -/
def fieldMarks : List Char := ['&', '=', '/', '\n']

/-- The marks of a text, in order. -/
def marksOf (text : String) : List Char :=
  text.toList.filter (fieldMarks.contains ·)

/-! ## Marks of texts -/

section Marks

variable (s t : String)

@[simp] theorem marksOf_append : marksOf (s ++ t) = marksOf s ++ marksOf t := by
  rw [marksOf, String.toList_append, List.filter_append]
  rfl

theorem marksOf_eq_nil {s : String} (h : ∀ c ∈ fieldMarks, c ∉ s.toList) : marksOf s = [] := by
  rw [marksOf, List.filter_eq_nil_iff]
  exact fun c hc hmark => h c (List.contains_iff_mem.mp hmark) hc

/-- An encoded field has no mark. -/
@[simp] theorem marksOf_encode : marksOf (Percent.encode s) = [] :=
  marksOf_eq_nil (Percent.notMem_encode_of_all (by decide) s)

@[simp] theorem marksOf_toString (n : Nat) : marksOf (toString n) = [] := by
  have hmarks : fieldMarks.all (!Char.isDigit ·) = true := by decide
  refine marksOf_eq_nil fun c hc => Decimal.notMem_toString ?_ n
  exact (Bool.not_eq_true' _).mp (List.all_eq_true.mp hmarks c hc)

end Marks

section Texts

variable (idScope registrationId userAgent : String) (expiry : UInt64) (tag : Bytes)

/-- Whatever the user agent is, it adds no mark. -/
theorem marksOf_userName : marksOf (userName idScope registrationId userAgent) =
    marksOf idScope ++ ['/', '/'] ++ marksOf registrationId ++ ['/', '=', '&', '='] := by
  have hregistrations : marksOf "/registrations/" = ['/', '/'] := by decide
  have hversion : marksOf "/api-version=" = ['/', '='] := by decide
  have hnumber : marksOf apiVersion = [] := by decide
  have hclient : marksOf "&ClientVersion=" = ['&', '='] := by decide
  simp only [userName, marksOf_append, marksOf_encode, hregistrations, hversion, hnumber, hclient,
    List.append_assoc, List.append_nil, List.nil_append, List.cons_append]

/-- The marks of a token are those of its form. -/
theorem marksOf_tokenText :
    marksOf (tokenText idScope registrationId expiry tag) = ['=', '&', '=', '&', '='] := by
  have hstart : marksOf "SharedAccessSignature sr=" = ['='] := by decide
  have hseparator : marksOf "%2Fregistrations%2F" = [] := by decide
  have hsignature : marksOf "&sig=" = ['&', '='] := by decide
  have hexpiry : marksOf "&se=" = ['&', '='] := by decide
  have htime := marksOf_toString expiry.toNat
  unfold tokenText tokenResource
  generalize encodeTag tag = signature, toString expiry.toNat = time at htime ⊢
  simp only [marksOf_append, marksOf_encode, htime, hstart, hseparator, hsignature, hexpiry,
    List.append_nil, List.cons_append, List.nil_append]

end Texts

/-- Percent-encoding is reversible and compositional.

An encoded text, which is written in pieces, consists of unreserved characters and of triples with
upper-case digits. The bytes of the text are read back from it, and it is the text itself iff all
characters of the text are unreserved. Texts may be put together before or after they are encoded, and
distinct texts have distinct encodings.

An encoding has no mark. So the marks of the user name that is written for a device are those of its
scope, of its name and of the form, and the user agent adds none. The marks of a token are those of the
form alone, whatever the scope, the name and the tag are. -/
theorem encode_reversible {σ : Type} (key : SymmetricKey (StateM σ)) :
    (∀ text, Percent.IsEncoded (Percent.encode text).toList ∧
      ((Percent.pieces text).map utf8).flatten = utf8 (Percent.encode text) ∧
      Percent.decode (utf8 (Percent.encode text)) = utf8 text ∧
      (Percent.encode text = text ↔ ∀ c ∈ text.toList, Percent.isUnreservedChar c = true)) ∧
    (∀ s t, Percent.encode (s ++ t) = Percent.encode s ++ Percent.encode t) ∧
    (∀ s t, s ≠ t → Percent.encode s ≠ Percent.encode t) ∧
    (∀ text, marksOf (Percent.encode text) = []) ∧
    (∀ idScope registrationId userAgent, ∃ name,
      WritesWhole name Failure.outOfMemory (writeUserName idScope registrationId userAgent) ∧
      marksOf name =
        marksOf idScope ++ ['/', '/'] ++ marksOf registrationId ++ ['/', '=', '&', '=']) ∧
    ∀ idScope registrationId expiry s tag,
      ((key.hmac key.secret (utf8 (signedText idScope registrationId expiry))).run s).1 = .ok tag →
      ∃ token, WritesWhole token (Error.failure .outOfMemory)
          (fun buffer => ((key.writePassword idScope registrationId expiry buffer).run s).1) ∧
        marksOf token = ['=', '&', '=', '&', '='] := by
  refine ⟨fun text => ?_, Percent.encode_append, fun s t hne heq => hne (Percent.encode_inj.mp heq),
    marksOf_encode, fun idScope registrationId userAgent => ?_,
    fun idScope registrationId expiry s tag htag => ?_⟩
  · exact ⟨Percent.isEncoded_encode text, Percent.flatten_pieces text, Percent.decode_encode text,
      Percent.encode_eq_self_iff⟩
  · refine ⟨userName idScope registrationId userAgent, ?_, marksOf_userName _ _ _⟩
    rw [writeUserName_eq]
    exact writesWhole_writeText _
  · exact ⟨tokenText idScope registrationId expiry tag,
      key.writesWhole_password idScope registrationId expiry s htag, marksOf_tokenText _ _ _ _⟩

end DeviceTrust.Provisioning
