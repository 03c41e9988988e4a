import DeviceTrust.Text

/-!
# JSON texts

Documents are byte strings that are read from left to right, and the first fault ends the reading. A
reader takes what is left of the document and gives back what it leaves; a reader that succeeds has
consumed at least one byte, which bounds every loop over a document.

A text stands between quotes; a backslash starts an escape, and control characters must be escaped.
Skipping a text checks just that. Reading one also pairs the surrogates of its Unicode escapes and asks
that the whole be valid UTF-8, which is decided at the closing quote. Both start after the opening quote
and leave what follows the closing one (`length_skipText`, `length_readText`).
-/

namespace DeviceTrust.Json

/-! ## Errors, white space and words -/

/-- Why a document was refused. -/
inductive Error where
  /-- The text is not JSON. -/
  | malformed
  /-- The text is JSON of another shape than the one asked for. -/
  | mismatch
  /-- The text ends too early. -/
  | truncated
  deriving DecidableEq, Repr

/-- The wording of a reading error. -/
def Error.message : Error → String
  | .malformed => "The document is not well-formed JSON."
  | .mismatch => "The document does not have the expected shape."
  | .truncated => "The document ends too early."

/-- Space, line feed, carriage return and tab. -/
def isSpace (b : UInt8) : Bool :=
  b == 32 || b == 10 || b == 13 || b == 9

/-- What is left after the white space in front. -/
def skipSpace (s : Bytes) : Bytes :=
  s.dropWhile isSpace

/-- Whether a byte is an ASCII digit. -/
def isDigit (b : UInt8) : Bool :=
  48 ≤ b && b ≤ 57

/-- Reads the rest of a word whose first letter has been recognised. -/
def readWord : (word s : Bytes) → Except Error Bytes
  | [], s => .ok s
  | _ :: _, [] => .error .truncated
  | w :: word, b :: s => if b = w then readWord word s else .error .malformed

/-- Nothing but white space may follow a document. -/
def checkEnd (s : Bytes) : Except Error Unit :=
  if (skipSpace s).isEmpty then .ok () else .error .malformed

theorem length_skipSpace_le (s : Bytes) : (skipSpace s).length ≤ s.length :=
  (List.dropWhile_sublist _).length_le

theorem length_readWord {word s rest : Bytes} (h : readWord word s = .ok rest) :
    rest.length ≤ s.length := by
  fun_induction readWord word s with
  | case1 => simp_all
  | case2 => simp at h
  | case3 w word s ih => simp only [List.length_cons]; have := ih h; omega
  | case4 => simp at h

/-! ## Escapes -/

/-- The character of an escape of one letter. -/
def simpleEscape? (b : UInt8) : Option Char :=
  if b = 34 then some '"'
  else if b = 92 then some '\\'
  else if b = 47 then some '/'
  else if b = 98 then some '\x08'
  else if b = 102 then some '\x0c'
  else if b = 110 then some '\n'
  else if b = 114 then some '\r'
  else if b = 116 then some '\t'
  else none

/-- The value of a hexadecimal digit of either case. -/
def hexDigit? (b : UInt8) : Option Nat :=
  if 48 ≤ b ∧ b ≤ 57 then some (b.toNat - 48)
  else if 97 ≤ b ∧ b ≤ 102 then some (b.toNat - 87)
  else if 65 ≤ b ∧ b ≤ 70 then some (b.toNat - 55)
  else none

/-- Reads the four hexadecimal digits of a UTF-16 unit. -/
def readUnit : Bytes → Except Error (Nat × Bytes)
  | a :: b :: c :: d :: rest =>
    match hexDigit? a, hexDigit? b, hexDigit? c, hexDigit? d with
    | some a, some b, some c, some d => .ok (((a * 16 + b) * 16 + c) * 16 + d, rest)
    | _, _, _, _ => .error .malformed
  | _ => .error .truncated

/-- Whether a UTF-16 unit starts a pair. -/
def isHighSurrogate (unit : Nat) : Bool :=
  0xD800 ≤ unit && unit ≤ 0xDBFF

/-- Whether a UTF-16 unit ends a pair. -/
def isLowSurrogate (unit : Nat) : Bool :=
  0xDC00 ≤ unit && unit ≤ 0xDFFF

/-- Reads one expected byte. -/
def expectByte (expected : UInt8) : Bytes → Except Error Bytes
  | [] => .error .truncated
  | b :: rest => if b = expected then .ok rest else .error .malformed

/-- Reads the second escape of a surrogate pair. -/
def readLowSurrogate (s : Bytes) : Except Error (Nat × Bytes) := do
  let s ← expectByte 92 s
  let s ← expectByte 117 s
  let (unit, s) ← readUnit s
  if isLowSurrogate unit then .ok (unit, s) else .error .malformed

/-- Reads the character of a Unicode escape, after its letter. -/
def readUnicode (s : Bytes) : Except Error (Char × Bytes) := do
  let (unit, s) ← readUnit s
  if isLowSurrogate unit then .error .malformed
  else if isHighSurrogate unit then
    let (low, s) ← readLowSurrogate s
    .ok (Char.ofNat (0x10000 + (unit - 0xD800) * 0x400 + (low - 0xDC00)), s)
  else .ok (Char.ofNat unit, s)

/-- Reads the character of an escape, after the backslash. -/
def readEscape : Bytes → Except Error (Char × Bytes)
  | [] => .error .truncated
  | b :: rest =>
    match simpleEscape? b with
    | some c => .ok (c, rest)
    | none => if b = 117 then readUnicode rest else .error .malformed

/-- Skips an escape, after the backslash; a Unicode escape may be any four hexadecimal digits. -/
def skipEscape : Bytes → Except Error Bytes
  | [] => .error .truncated
  | b :: rest =>
    if (simpleEscape? b).isSome then .ok rest
    else if b = 117 then (readUnit rest).map (·.2)
    else .error .malformed

theorem length_readUnit {s : Bytes} {p : Nat × Bytes} (h : readUnit s = .ok p) :
    p.2.length < s.length := by
  unfold readUnit at h
  split at h
  · split at h
    · simp only [Except.ok.injEq] at h
      simp only [← h, List.length_cons]
      omega
    · simp at h
  · simp at h

theorem length_expectByte {b : UInt8} {s rest : Bytes} (h : expectByte b s = .ok rest) :
    rest.length < s.length := by
  unfold expectByte at h
  split at h
  · simp at h
  · split at h
    · simp only [Except.ok.injEq] at h
      simp [h]
    · simp at h

theorem length_readLowSurrogate {s : Bytes} {p : Nat × Bytes} (h : readLowSurrogate s = .ok p) :
    p.2.length < s.length := by
  simp only [readLowSurrogate, bind, Except.bind] at h
  split at h
  · simp at h
  next h₁ =>
  split at h
  · simp at h
  next h₂ =>
  split at h
  · simp at h
  next h₃ =>
  split at h
  · simp only [Except.ok.injEq] at h
    have := length_expectByte h₁
    have := length_expectByte h₂
    have := length_readUnit h₃
    simp only [← h]
    omega
  · simp at h

theorem length_readUnicode {s : Bytes} {p : Char × Bytes} (h : readUnicode s = .ok p) :
    p.2.length < s.length := by
  simp only [readUnicode, bind, Except.bind] at h
  split at h
  · simp at h
  next h₁ =>
  have hunit := length_readUnit h₁
  split at h
  · simp at h
  split at h
  · split at h
    · simp at h
    next h₂ =>
    have hlow := length_readLowSurrogate h₂
    simp only [Except.ok.injEq] at h
    simp only [← h]
    omega
  · simp only [Except.ok.injEq] at h
    simp only [← h]
    omega

theorem length_readEscape {s : Bytes} {p : Char × Bytes} (h : readEscape s = .ok p) :
    p.2.length < s.length := by
  unfold readEscape at h
  split at h
  · simp at h
  · split at h
    · simp only [Except.ok.injEq] at h
      simp [← h]
    · split at h
      · have := length_readUnicode h
        simp only [List.length_cons]
        omega
      · simp at h

theorem length_skipEscape {s rest : Bytes} (h : skipEscape s = .ok rest) :
    rest.length < s.length := by
  unfold skipEscape at h
  split at h
  · simp at h
  next b tail =>
  split at h
  · simp only [Except.ok.injEq] at h
    simp [h]
  · split at h
    · cases hu : readUnit tail with
      | error e => simp [hu, Except.map] at h
      | ok p =>
        have := length_readUnit hu
        simp only [hu, Except.map, Except.ok.injEq] at h
        simp only [← h, List.length_cons]
        omega
    · simp at h

/-! ## Texts -/

/-- Skips to the end of a text. -/
def skipText (s : Bytes) : Except Error Bytes :=
  match s with
  | [] => .error .truncated
  | b :: rest =>
    if b = 34 then .ok rest
    else if b = 92 then
      match _h : skipEscape rest with
      | .error e => .error e
      | .ok rest => skipText rest
    else if b < 32 then .error .malformed
    else skipText rest
termination_by s.length
decreasing_by
  · have := length_skipEscape _h
    simp only [List.length_cons]
    omega
  · simp

/-- Reads to the end of a text and gives its bytes, with the escapes resolved. -/
def readTextBytes (s : Bytes) : Except Error (Bytes × Bytes) :=
  match s with
  | [] => .error .truncated
  | b :: rest =>
    if b = 34 then .ok ([], rest)
    else if b = 92 then
      match _h : readEscape rest with
      | .error e => .error e
      | .ok (c, rest) =>
        (readTextBytes rest).map fun (bytes, rest) => (String.utf8EncodeChar c ++ bytes, rest)
    else if b < 32 then .error .malformed
    else (readTextBytes rest).map fun (bytes, rest) => (b :: bytes, rest)
termination_by s.length
decreasing_by
  · have := length_readEscape _h
    simp only [List.length_cons] at this ⊢
    omega
  · simp

/-- Reads a text. -/
def readText (s : Bytes) : Except Error (String × Bytes) := do
  let (bytes, rest) ← readTextBytes s
  match bytes.text? with
  | some text => .ok (text, rest)
  | none => .error .malformed

theorem length_skipText {s rest : Bytes} (h : skipText s = .ok rest) : rest.length < s.length := by
  fun_induction skipText s with
  | case1 => simp at h
  | case2 => simp_all
  | case3 => simp at h
  | case4 tail r hr hb ih =>
    have := length_skipEscape hr
    have := ih h
    simp only [List.length_cons]
    omega
  | case5 => simp at h
  | case6 b tail _ _ _ ih =>
    have := ih h
    simp only [List.length_cons]
    omega

theorem length_readTextBytes {s : Bytes} {p : Bytes × Bytes} (h : readTextBytes s = .ok p) :
    p.2.length < s.length := by
  fun_induction readTextBytes s generalizing p with
  | case1 => simp at h
  | case2 =>
    simp only [Except.ok.injEq] at h
    simp [← h]
  | case3 => simp at h
  | case4 tail c r hr hb ih =>
    have : r.length < tail.length := length_readEscape hr
    cases hq : readTextBytes r with
    | error e => simp [hq, Except.map] at h
    | ok q =>
      have := ih hq
      simp only [hq, Except.map, Except.ok.injEq] at h
      simp only [← h, List.length_cons] at this ⊢
      omega
  | case5 => simp at h
  | case6 b tail _ _ _ ih =>
    cases hq : readTextBytes tail with
    | error e => simp [hq, Except.map] at h
    | ok q =>
      have := ih hq
      simp only [hq, Except.map, Except.ok.injEq] at h
      simp only [← h, List.length_cons] at this ⊢
      omega

theorem length_readText {s : Bytes} {p : String × Bytes} (h : readText s = .ok p) :
    p.2.length < s.length := by
  simp only [readText, bind, Except.bind] at h
  split at h
  · simp at h
  next hq =>
  split at h
  · simp only [Except.ok.injEq] at h
    simp only [← h]
    exact length_readTextBytes hq
  · simp at h

/-! ## Writing texts

A quote, a backslash and the control characters below the space are escaped; every other character stands
for itself. -/

/-- The lower-case hexadecimal digit of a number below 16. -/
def lowerHexDigit (n : Nat) : Char :=
  Char.ofNat (if n < 10 then 48 + n else 87 + n)

/-- The form of one character inside quotes. -/
def escapeChar (c : Char) : List Char :=
  if c = '"' then ['\\', '"']
  else if c = '\\' then ['\\', '\\']
  else if c = '\x08' then ['\\', 'b']
  else if c = '\x0c' then ['\\', 'f']
  else if c = '\n' then ['\\', 'n']
  else if c = '\r' then ['\\', 'r']
  else if c = '\t' then ['\\', 't']
  else if c.toNat < 32 then
    ['\\', 'u', '0', '0', lowerHexDigit (c.toNat / 16), lowerHexDigit (c.toNat % 16)]
  else [c]

/-- The quoted form of a text. -/
def quote (text : String) : String :=
  String.ofList ('"' :: text.toList.flatMap escapeChar ++ ['"'])

/-- The pieces that the characters inside quotes are written in: every escape is one piece, and so is
every run of characters that stand for themselves. -/
def contentPieces (run : List Char) : List Char → List String
  | [] => if run = [] then [] else [String.ofList run]
  | c :: text =>
    if escapeChar c = [c] then contentPieces (run ++ [c]) text
    else
      let rest := String.ofList (escapeChar c) :: contentPieces [] text
      if run = [] then rest else String.ofList run :: rest

/-- The pieces that the quoted form of a text is written in. -/
def quotePieces (text : String) : List String :=
  "\"" :: contentPieces [] text.toList ++ ["\""]

end DeviceTrust.Json
