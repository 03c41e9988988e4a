import DeviceTrust.Json.Value

/-!
# The members of a JSON object

A document is looked through member by member. The names of all members are read as texts, and of the
values only the one that is asked for is kept: the value of the first member with that name.
-/

namespace DeviceTrust.Json

/-! ## Names -/

/-- Reads the quoted name of a member; `s` starts with it. -/
def readName (s : Bytes) : Except Error (Option String × Bytes) := do
  let s ← expectByte 34 s
  let (name, s) ← readText s
  .ok (some name, s)

/-- Reads the name of the next member, or the brace that closes the object. A comma stands before every
member but the first, and only there. -/
def nextName (isFirst : Bool) (s : Bytes) : Except Error (Option String × Bytes) :=
  match skipSpace s with
  | [] => .error .truncated
  | b :: rest =>
    if b = 125 then .ok (none, rest)
    else if isFirst then readName (b :: rest)
    else if b = 44 then readName (skipSpace rest)
    else .error .malformed

theorem length_readName {s : Bytes} {p : Option String × Bytes} (h : readName s = .ok p) :
    p.2.length < s.length := by
  simp only [readName, bind, Except.bind] at h
  split at h
  · simp at h
  next h₁ =>
  split at h
  · simp at h
  next h₂ =>
  have := length_expectByte h₁
  have := length_readText h₂
  simp only [Except.ok.injEq] at h
  simp only [← h]
  omega

theorem length_nextName {isFirst : Bool} {s : Bytes} {p : Option String × Bytes}
    (h : nextName isFirst s = .ok p) : p.2.length < s.length := by
  unfold nextName at h
  split at h
  · simp at h
  next b rest hs =>
  have hle := length_skipSpace_le s
  have hrest := length_of_skipSpace_eq hs
  split at h
  · simp only [Except.ok.injEq] at h
    simpa only [← h] using hrest
  split at h
  · rw [← hs] at h
    have := length_readName h
    omega
  split at h
  · have := length_readName h
    have := length_skipSpace_le rest
    omega
  · simp at h

/-! ## Looking up a member -/

/-- Reads the members up to the closing brace and gives the text of the value of the first one named
`key`; `found` is that text once it has been met. -/
def seekMember (key : String) (found : Option Bytes) (isFirst : Bool) (s : Bytes) :
    Except Error (Option Bytes × Bytes) :=
  match _hn : nextName isFirst s with
  | .error e => .error e
  | .ok (none, rest) => .ok (found, rest)
  | .ok (some name, rest) =>
    match _hc : readColon rest with
    | .error e => .error e
    | .ok rest =>
      if found.isNone ∧ name = key then
        match _hv : rawValue rest with
        | .error e => .error e
        | .ok (text, rest) => seekMember key (some text) false rest
      else
        match _hv : skipValue rest with
        | .error e => .error e
        | .ok rest => seekMember key found false rest
termination_by s.length
decreasing_by
  · have hn := length_nextName _hn
    have hc := length_readColon _hc
    have hv := length_rawValue _hv
    simp only at hn hv
    omega
  · have hn := length_nextName _hn
    have hc := length_readColon _hc
    have hv := length_skipValue _hv
    simp only at hn
    omega

/-- The fault when a value of another kind stands where an object or a scalar is asked for: a fault of
its form, if it has one at its start, and otherwise its kind. `s` starts with the value. -/
def unexpectedValue (s : Bytes) : Error :=
  let fault {α : Type} : Except Error α → Error
    | .error e => e
    | .ok _ => .mismatch
  match s with
  | [] => .truncated
  | b :: rest =>
    if b = 34 then fault (readText rest)
    else if b = 110 then fault (readWord [117, 108, 108] rest)
    else if b = 116 then fault (readWord [114, 117, 101] rest)
    else if b = 102 then fault (readWord [97, 108, 115, 101] rest)
    else if b = 45 ∨ isDigit b then fault (readNumber (b :: rest))
    else if b = 91 ∨ b = 123 then .mismatch
    else .malformed

/-- The text of the value of the first member named `key` of a document that is an object, if it has such
a member. -/
def firstMember (key : String) (document : Bytes) : Except Error (Option Bytes) :=
  match skipSpace document with
  | 123 :: rest => do
    let (found, rest) ← seekMember key none true rest
    checkEnd rest
    .ok found
  | s => .error (unexpectedValue s)

end DeviceTrust.Json
