import DeviceTrust.Proofs.Provisioning.Request
import DeviceTrust.Proofs.Text

/-!
# What a token says, and what is signed

The fields of a token stand between marks that none of them can hold, so they are read back from it.
The tag is computed once, over two of these fields with a line break between them, and tokens share
what they are computed over only if they agree in both.

Results:
* `signedText_inj`: what is signed tells the resource and the time apart.
* `IsToken.unique`: a token has one reading.
* `SymmetricKey.writePassword_eq`, `SymmetricKey.calls_eq`: the call that a token takes.
* `SymmetricKey.writePassword_says_signed`: a token says what was signed.
* `SymmetricKey.writePassword_messages`: which tokens are computed over the same text.
-/

namespace DeviceTrust.Provisioning

/-! ## The fields of a token -/

/-- The marks between the fields of a token, and between the parts of what is signed. -/
def tokenMarks : List Char := ['&', '=', '\n']

section Fields

variable {idScope idScope' registrationId registrationId' : String} {expiry expiry' : UInt64}

/-- The encoded separators are those of the resource itself. -/
theorem tokenResource_eq (idScope registrationId : String) :
    tokenResource idScope registrationId =
      Percent.encode (idScope ++ "/registrations/" ++ registrationId) := by
  have hseparator : Percent.encode "/registrations/" = "%2Fregistrations%2F" := by decide
  rw [Percent.encode_append, Percent.encode_append, hseparator, tokenResource]

/-- An encoded field holds no mark. -/
theorem notMem_encode_of_mem_tokenMarks (text : String) :
    ∀ c ∈ tokenMarks, c ∉ (Percent.encode text).toList :=
  Percent.notMem_encode_of_all (by decide) text

theorem toString_toNat_inj : toString expiry.toNat = toString expiry'.toNat ↔ expiry = expiry' := by
  constructor
  · intro h
    have hnumber := Decimal.isNumber_toString expiry.toNat
    rw [h] at hnumber
    exact UInt64.toNat_inj.mp (hnumber.unique (Decimal.isNumber_toString expiry'.toNat))
  · rintro rfl
    rfl

theorem signedText_inj :
    signedText idScope registrationId expiry = signedText idScope' registrationId' expiry' ↔
      expiry = expiry' ∧ idScope ++ "/registrations/" ++ registrationId =
        idScope' ++ "/registrations/" ++ registrationId' := by
  have hmark (text : String) : '\n' ∉ (Percent.encode text).toList :=
    notMem_encode_of_mem_tokenMarks text '\n' (by decide)
  have hline : "\n".toList = ['\n'] := rfl
  rw [← String.toList_inj, signedText, signedText, tokenResource_eq, tokenResource_eq]
  simp only [String.toList_append, hline]
  rw [append_mark_inj (hmark _) (hmark _), String.toList_inj, String.toList_inj,
    Percent.encode_inj, toString_toNat_inj, and_comm]

/-- The separator itself may stand in a scope or in a name. -/
example : signedText "a/registrations/b" "c" 3600 = signedText "a" "b/registrations/c" 3600 := by
  decide +kernel

/-- Without a slash in front of it the separator cannot be moved. -/
theorem resource_inj (h : '/' ∉ idScope.toList) (h' : '/' ∉ idScope'.toList) :
    idScope ++ "/registrations/" ++ registrationId =
        idScope' ++ "/registrations/" ++ registrationId' ↔
      idScope = idScope' ∧ registrationId = registrationId' := by
  have hseparator : "/registrations/".toList = '/' :: "registrations/".toList := rfl
  rw [← String.toList_inj]
  simp only [String.toList_append, hseparator]
  rw [append_mark_inj h h', String.toList_inj, String.toList_inj]

end Fields

/-! ## Reading a token -/

/-- The text is a token with these fields, and the first two of them hold no mark. -/
structure IsToken (text : Bytes) (resource signature expiry : String) : Prop where
  eq : text = utf8 ("SharedAccessSignature sr=" ++ resource ++ "&sig=" ++ signature ++ "&se=" ++
    expiry)
  resource : ∀ c ∈ tokenMarks, c ∉ resource.toList
  signature : ∀ c ∈ tokenMarks, c ∉ signature.toList

/-- A token has one reading. -/
theorem IsToken.unique {text : Bytes}
    {resource resource' signature signature' expiry expiry' : String}
    (h : IsToken text resource signature expiry) (h' : IsToken text resource' signature' expiry') :
    resource = resource' ∧ signature = signature' ∧ expiry = expiry' := by
  have hsignature : "&sig=".toList = '&' :: "sig=".toList := rfl
  have hexpiry : "&se=".toList = '&' :: "se=".toList := rfl
  have heq := congrArg String.toList (utf8_inj.mp (h.eq.symm.trans h'.eq))
  have hmark : '&' ∈ tokenMarks := by decide
  -- the first two fields end at the next ampersand
  simp only [String.toList_append, hsignature, hexpiry, List.append_assoc] at heq
  have hfields := List.append_cancel_left heq
  simp only [← List.append_assoc (String.toList _) ('&' :: _)] at hfields
  obtain ⟨hresource, hrest⟩ :=
    (append_mark_inj (h.resource _ hmark) (h'.resource _ hmark)).mp hfields
  obtain ⟨hsignature, hexpiry⟩ :=
    (append_mark_inj (h.signature _ hmark) (h'.signature _ hmark)).mp hrest
  exact ⟨String.toList_inj.mp hresource, String.toList_inj.mp hsignature,
    String.toList_inj.mp hexpiry⟩

theorem isToken_tokenText (idScope registrationId : String) (expiry : UInt64) (tag : Bytes) :
    IsToken (utf8 (tokenText idScope registrationId expiry tag))
      (tokenResource idScope registrationId) (Percent.encode (encodeTag tag))
      (toString expiry.toNat) := by
  refine ⟨rfl, ?_, notMem_encode_of_mem_tokenMarks _⟩
  rw [tokenResource_eq]
  exact notMem_encode_of_mem_tokenMarks _

/-- The tag is read back from its field. -/
theorem decode_encodeTag (tag : Bytes) :
    Base64.decode .standard (Percent.decode (utf8 (Percent.encode (encodeTag tag)))) = .ok tag := by
  rw [Percent.decode_encode]
  show Base64.decode .standard (utf8 (Base64.text .standard tag)) = .ok tag
  rw [Base64.utf8_text]
  exact Base64.decode_of_isEncoding (Base64.isEncoding_encode .standard tag)

/-! ## The calls that a token takes -/

/-- What is left in a buffer for the result of the call. -/
def writeToken (idScope registrationId : String) (expiry : UInt64) (buffer : Bytes) :
    Except Error Bytes → Except Error Nat × Bytes
  | .error e => (.error e, buffer)
  | .ok tag =>
    let (written, buffer) := writeText (utf8 (tokenText idScope registrationId expiry tag)) buffer
    (written.mapError .failure, buffer)

section Writing

variable {idScope registrationId : String} {expiry : UInt64} {buffer left tag : Bytes}

theorem writeToken_of_le
    (h : (utf8 (tokenText idScope registrationId expiry tag)).length ≤ buffer.length) :
    writeToken idScope registrationId expiry buffer (.ok tag) =
      (.ok (utf8 (tokenText idScope registrationId expiry tag)).length,
        Bytes.fill buffer (utf8 (tokenText idScope registrationId expiry tag))) := by
  rw [writeToken, writeText_of_le h]
  rfl

/-- A token that has been written is that of the tag. -/
theorem of_writeToken {result : Except Error Bytes} {length : Nat}
    (h : writeToken idScope registrationId expiry buffer result = (.ok length, left)) :
    ∃ tag, result = .ok tag ∧
      left.take length = utf8 (tokenText idScope registrationId expiry tag) := by
  cases result with
  | error e => cases h
  | ok tag =>
    refine ⟨tag, rfl, ?_⟩
    by_cases hfits : (utf8 (tokenText idScope registrationId expiry tag)).length ≤ buffer.length
    · rw [writeToken_of_le hfits] at h
      obtain ⟨hlength, rfl⟩ := Prod.mk.inj h
      obtain rfl := Except.ok.inj hlength
      exact Bytes.take_fill hfits
    · have hwritten := mapError_eq_ok_iff.mp (congrArg Prod.fst h)
      rw [if_neg hfits] at hwritten
      cases hwritten

end Writing

/-- A call of the function that computes tags, with its result. -/
structure HmacCall where
  key : Bytes
  message : Bytes
  result : Except Error Bytes

namespace SymmetricKey

/-- In any monad a token takes one call, and nothing else happens. -/
theorem writePassword_eq {m : Type → Type} [Monad m] [LawfulMonad m] (key : SymmetricKey m)
    (idScope registrationId : String) (expiry : UInt64) (buffer : Bytes) :
    key.writePassword idScope registrationId expiry buffer =
      writeToken idScope registrationId expiry buffer <$>
        key.hmac key.secret (utf8 (signedText idScope registrationId expiry)) := by
  rw [writePassword, map_eq_pure_bind]
  apply bind_congr
  intro result
  cases result with
  | error e => rfl
  | ok tag =>
    simp only [writePieces_eq, flatten_tokenPieces]
    rfl

variable {σ : Type}

/-- The key whose calls are noted in order, beside the state of its function. -/
def watched (key : SymmetricKey (StateM σ)) : SymmetricKey (StateM (σ × List HmacCall)) where
  secret := key.secret
  hmac secret message := fun (s, noted) =>
    let (result, s) := (key.hmac secret message).run s
    (result, s, noted ++ [⟨secret, message, result⟩])

variable (key : SymmetricKey (StateM σ)) (idScope registrationId : String) (expiry : UInt64)
  (buffer : Bytes) (s : σ)

/-- The call for the tag of a token. -/
def tagCall : Except Error Bytes × σ :=
  (key.hmac key.secret (utf8 (signedText idScope registrationId expiry))).run s

/-- The calls that are made while a token is written. -/
def calls : List HmacCall :=
  ((key.watched.writePassword idScope registrationId expiry buffer).run (s, [])).2.2

theorem run_writePassword : (key.writePassword idScope registrationId expiry buffer).run s =
    (writeToken idScope registrationId expiry buffer
      (key.tagCall idScope registrationId expiry s).1,
      (key.tagCall idScope registrationId expiry s).2) := by
  rw [writePassword_eq, StateT.run_map]
  rfl

/-- A key that is watched writes the same token, and one call is noted. -/
theorem run_watched (noted : List HmacCall) :
    (key.watched.writePassword idScope registrationId expiry buffer).run (s, noted) =
      (((key.writePassword idScope registrationId expiry buffer).run s).1,
        ((key.writePassword idScope registrationId expiry buffer).run s).2,
        noted ++ [⟨key.secret, utf8 (signedText idScope registrationId expiry),
          (key.tagCall idScope registrationId expiry s).1⟩]) := by
  rw [run_writePassword, run_writePassword]
  rfl

theorem calls_eq : key.calls idScope registrationId expiry buffer s =
    [⟨key.secret, utf8 (signedText idScope registrationId expiry),
      (key.tagCall idScope registrationId expiry s).1⟩] := by
  rw [calls, run_watched]
  rfl

variable {key idScope registrationId expiry buffer s}

theorem of_ofEncoded {m : Type → Type} {encoded : Bytes} {hmac : HmacFunction m}
    {key : SymmetricKey m} (h : ofEncoded encoded hmac = .ok key) :
    Base64.decode .standard encoded = .ok key.secret ∧ key.hmac = hmac := by
  rw [ofEncoded] at h
  cases hsecret : readSecret encoded with
  | error e =>
    rw [hsecret] at h
    cases h
  | ok secret =>
    rw [hsecret] at h
    obtain rfl := Except.ok.inj h
    rw [readSecret] at hsecret
    split at hsecret
    next => cases hsecret
    next => exact ⟨mapError_eq_ok_iff.mp hsecret, rfl⟩

/-- A token says what was signed. The function is called once, with the decoded key and a text of two
fields. The token has these fields and that of the tag, and no other reading; the resource, the tag
and the time are read back from them. -/
theorem writePassword_says_signed {encoded : Bytes} {hmac : HmacFunction (StateM σ)}
    (hkey : ofEncoded encoded hmac = .ok key) {s' : σ} {length : Nat} {left : Bytes}
    (hrun : (key.writePassword idScope registrationId expiry buffer).run s =
      ((.ok length, left), s')) :
    ∃ secret tag resource signature time,
      Base64.decode .standard encoded = .ok secret ∧
      ((hmac secret (utf8 (resource ++ "\n" ++ time))).run s).1 = .ok tag ∧
      key.calls idScope registrationId expiry buffer s =
        [⟨secret, utf8 (resource ++ "\n" ++ time), .ok tag⟩] ∧
      IsToken (left.take length) resource signature time ∧
      (∀ resource' signature' time', IsToken (left.take length) resource' signature' time' →
        resource' = resource ∧ signature' = signature ∧ time' = time) ∧
      Percent.decode (utf8 resource) = utf8 (idScope ++ "/registrations/" ++ registrationId) ∧
      Base64.decode .standard (Percent.decode (utf8 signature)) = .ok tag ∧
      time = toString expiry.toNat ∧ Decimal.IsNumber time.toList expiry.toNat := by
  obtain ⟨hsecret, rfl⟩ := of_ofEncoded hkey
  rw [run_writePassword] at hrun
  obtain ⟨hwritten, -⟩ := Prod.mk.inj hrun
  obtain ⟨tag, htag, htoken⟩ := of_writeToken hwritten
  have hreading := isToken_tokenText idScope registrationId expiry tag
  refine ⟨key.secret, tag, _, _, _, hsecret, htag, ?_, ?_, ?_, ?_, decode_encodeTag tag, rfl,
    Decimal.isNumber_toString _⟩
  · rw [calls_eq, htag]
    rfl
  · rw [htoken]
    exact hreading
  · intro resource' signature' time' h
    rw [htoken] at h
    exact h.unique hreading
  · rw [tokenResource_eq]
    exact Percent.decode_encode _

/-- A function that gives the same tag each time and counts its calls. -/
def countedHmac (tag : Bytes) : HmacFunction (StateM Nat) :=
  fun _ _ => modifyGet fun count => (.ok tag, count + 1)

/-- A scope with a mark and a name that is not ASCII. -/
theorem writePassword_says_signed_counted :
    ∃ (key : SymmetricKey (StateM Nat)) (left : Bytes),
      ofEncoded (utf8 "ABC12345") (countedHmac [255, 255, 255]) = .ok key ∧
      (key.writePassword "a&b" "ü" 3600 (List.replicate 100 0)).run 0 = ((.ok 80, left), 1) ∧
      IsToken (left.take 80) "a%26b%2Fregistrations%2F%C3%BC" "%2F%2F%2F%2F" "3600" ∧
      Percent.decode (utf8 "a%26b%2Fregistrations%2F%C3%BC") = utf8 "a&b/registrations/ü" ∧
      key.calls "a&b" "ü" 3600 (List.replicate 100 0) 0 = [⟨[0, 16, 181, 219, 126, 57],
        utf8 "a%26b%2Fregistrations%2F%C3%BC\n3600", .ok [255, 255, 255]⟩] := by
  have hsecret : readSecret (utf8 "ABC12345") = .ok [0, 16, 181, 219, 126, 57] := by
    decide +kernel
  have hkey : ofEncoded (utf8 "ABC12345") (countedHmac [255, 255, 255]) =
      .ok ⟨[0, 16, 181, 219, 126, 57], countedHmac [255, 255, 255]⟩ := by
    rw [ofEncoded, hsecret]
    rfl
  have hlength : (utf8 (tokenText "a&b" "ü" 3600 [255, 255, 255])).length = 80 := by decide +kernel
  have hroom : (utf8 (tokenText "a&b" "ü" 3600 [255, 255, 255])).length ≤
      (List.replicate 100 (0 : UInt8)).length := by
    rw [hlength]
    decide
  have hrun : (writePassword ⟨[0, 16, 181, 219, 126, 57], countedHmac [255, 255, 255]⟩ "a&b" "ü" 3600
      (List.replicate 100 0)).run 0 = ((.ok 80, Bytes.fill (List.replicate 100 0)
        (utf8 (tokenText "a&b" "ü" 3600 [255, 255, 255]))), 1) := by
    rw [run_writePassword]
    show (writeToken "a&b" "ü" 3600 (List.replicate 100 0) (.ok [255, 255, 255]), 1) = _
    rw [writeToken_of_le hroom, hlength]
  have hfields : IsToken ((Bytes.fill (List.replicate 100 0)
      (utf8 (tokenText "a&b" "ü" 3600 [255, 255, 255]))).take 80)
      "a%26b%2Fregistrations%2F%C3%BC" "%2F%2F%2F%2F" "3600" := by
    have hresource : tokenResource "a&b" "ü" = "a%26b%2Fregistrations%2F%C3%BC" := by decide +kernel
    have hsignature : Percent.encode (encodeTag [255, 255, 255]) = "%2F%2F%2F%2F" := by
      decide +kernel
    have htoken := isToken_tokenText "a&b" "ü" 3600 [255, 255, 255]
    rw [hresource, hsignature, ← Bytes.take_fill hroom, hlength] at htoken
    exact htoken
  obtain ⟨secret, tag, resource, signature, time, hdecode, htag, hcalls, -, hunique, hresource, -⟩ :=
    writePassword_says_signed hkey hrun
  obtain ⟨rfl, -, rfl⟩ := hunique _ _ _ hfields
  obtain rfl := Except.ok.inj ((of_ofEncoded hkey).1.symm.trans hdecode)
  obtain rfl : [255, 255, 255] = tag := Except.ok.inj htag
  exact ⟨_, _, hkey, hrun, hfields, hresource, hcalls⟩

/-- Which tokens are computed over the same text. Whatever buffers they are written to and whatever
state their function is in, two tokens of a key take one call each, and the texts of these calls are
the same iff the tokens agree in the time and in the resource. Scopes without a slash make the
resource tell the scope and the device apart. -/
theorem writePassword_messages (key : SymmetricKey (StateM σ))
    (idScope registrationId idScope' registrationId' : String) (expiry expiry' : UInt64)
    (buffer buffer' : Bytes) (s s' : σ) :
    ∃ message message',
      (key.calls idScope registrationId expiry buffer s).map HmacCall.message = [message] ∧
      (key.calls idScope' registrationId' expiry' buffer' s').map HmacCall.message = [message'] ∧
      (message = message' ↔ expiry = expiry' ∧ idScope ++ "/registrations/" ++ registrationId =
        idScope' ++ "/registrations/" ++ registrationId') ∧
      ('/' ∉ idScope.toList → '/' ∉ idScope'.toList → (message = message' ↔
        expiry = expiry' ∧ idScope = idScope' ∧ registrationId = registrationId')) := by
  refine ⟨_, _, by rw [calls_eq]; rfl, by rw [calls_eq]; rfl, ?_, fun hscope hscope' => ?_⟩
  · rw [utf8_inj, signedText_inj]
  · rw [utf8_inj, signedText_inj, resource_inj hscope hscope']

end SymmetricKey

end DeviceTrust.Provisioning
