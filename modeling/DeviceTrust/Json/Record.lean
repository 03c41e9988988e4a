import DeviceTrust.Json.Object

/-!
# Reading JSON into records

A record has named fields, each with a reader for its value. An object fills the fields it names, in any
order: members with other names are skipped, and a field that is named twice is a mismatch. A list fills
the fields by position and must have exactly one element for each.

A `Reader` carries the proof that it consumes a byte whenever it succeeds, which bounds the loop over the
members.
-/

namespace DeviceTrust.Json

/-! ## Readers -/

/-- A way to read a value of type `α`. -/
structure Reader (α : Type) where
  run : Bytes → Except Error (α × Bytes)
  consumes : ∀ {s : Bytes} {p : α × Bytes}, run s = .ok p → p.2.length < s.length

/-- Changes what is read. -/
def Reader.map {α β : Type} (f : α → β) (reader : Reader α) : Reader β where
  run s := (reader.run s).map fun (a, rest) => (f a, rest)
  consumes {s p} h := by
    cases hr : reader.run s with
    | error e => simp [hr, Except.map] at h
    | ok q =>
      have := reader.consumes hr
      simp only [hr, Except.map, Except.ok.injEq] at h
      simpa only [← h] using this

/-- Reads a text. -/
def Reader.text : Reader String where
  run s :=
    match skipSpace s with
    | 34 :: rest => readText rest
    | s => .error (unexpectedValue s)
  consumes {s p} h := by
    split at h
    next rest hs =>
      have := length_of_skipSpace_eq hs
      have := length_readText h
      omega
    · simp at h

/-- Reads a number below 2³². -/
def Reader.code : Reader UInt32 where
  run s :=
    match skipSpace s with
    | [] => .error .truncated
    | b :: rest =>
      if b = 45 ∨ isDigit b then
        match readNumber (b :: rest) with
        | .error e => .error e
        | .ok (x, rest) =>
          match x.code? with
          | some code => .ok (code, rest)
          | none => .error .mismatch
      else .error (unexpectedValue (b :: rest))
  consumes {s p} h := by
    have hle := length_skipSpace_le s
    split at h
    · simp at h
    next b rest hs =>
    split at h
    · split at h
      · simp at h
      next hn =>
      have := length_readNumber hn
      split at h
      · simp only [Except.ok.injEq] at h
        rw [hs] at hle
        simp only [← h] at this ⊢
        omega
      · simp at h
    · simp at h

/-- Reads a value that may be null. -/
def Reader.optional {α : Type} (reader : Reader α) : Reader (Option α) where
  run s :=
    match skipSpace s with
    | 110 :: rest => (readWord [117, 108, 108] rest).map fun rest => (none, rest)
    | _ => (reader.run s).map fun (a, rest) => (some a, rest)
  consumes {s p} h := by
    split at h
    next rest hs =>
      have := length_of_skipSpace_eq hs
      cases hw : readWord [117, 108, 108] rest with
      | error e => simp [hw, Except.map] at h
      | ok tail =>
        have := length_readWord hw
        simp only [hw, Except.map, Except.ok.injEq] at h
        simp only [← h]
        omega
    · cases hr : reader.run s with
      | error e => simp [hr, Except.map] at h
      | ok q =>
        have := reader.consumes hr
        simp only [hr, Except.map, Except.ok.injEq] at h
        simpa only [← h] using this

/-! ## Records -/

/-- A field of the record type `ρ`: its name and how its value is read into a record. -/
structure Field (ρ : Type) where
  name : String
  reader : Reader (ρ → ρ)

/-- Reads the members up to the closing brace into `record`; `seen` are the fields met before. -/
def readMembers {ρ : Type} (fields : List (Field ρ)) (seen : List String) (record : ρ)
    (isFirst : Bool) (s : Bytes) : Except Error (ρ × Bytes) :=
  match _hn : nextName isFirst s with
  | .error e => .error e
  | .ok (none, rest) => .ok (record, rest)
  | .ok (some name, rest) =>
    match fields.find? (·.name == name) with
    | none =>
      match _hc : readColon rest with
      | .error e => .error e
      | .ok rest =>
        match _hv : skipValue rest with
        | .error e => .error e
        | .ok rest => readMembers fields seen record false rest
    | some field =>
      if seen.contains name then .error .mismatch
      else
        match _hc : readColon rest with
        | .error e => .error e
        | .ok rest =>
          match _hv : field.reader.run rest with
          | .error e => .error e
          | .ok (update, rest) => readMembers fields (name :: seen) (update record) false rest
termination_by s.length
decreasing_by
  · have hn := length_nextName _hn
    have hc := length_readColon _hc
    have hv := length_skipValue _hv
    simp only at hn
    omega
  · have hn := length_nextName _hn
    have hc := length_readColon _hc
    have hv := field.reader.consumes _hv
    simp only at hn hv
    omega

/-- Goes to the next element of a list. A comma stands before every element but the first, and a list
that ends here is too short. -/
def nextElement (isFirst : Bool) (s : Bytes) : Except Error Bytes :=
  match skipSpace s with
  | [] => .error .truncated
  | b :: rest =>
    if b = 93 then .error .mismatch
    else if isFirst then .ok (b :: rest)
    else if b = 44 then
      match skipSpace rest with
      | [] => .error .truncated
      | c :: tail => if c = 93 then .error .malformed else .ok (c :: tail)
    else .error .malformed

/-- Reads the elements up to the closing bracket into `record`, one for each field. -/
def readElements {ρ : Type} (fields : List (Field ρ)) (record : ρ) (isFirst : Bool) (s : Bytes) :
    Except Error (ρ × Bytes) :=
  match fields with
  | [] =>
    match skipSpace s with
    | [] => .error .truncated
    | b :: rest => if b = 93 then .ok (record, rest) else .error .malformed
  | field :: fields => do
    let s ← nextElement isFirst s
    let (update, s) ← field.reader.run s
    readElements fields (update record) false s

theorem length_readMembers {ρ : Type} {fields : List (Field ρ)} {seen : List String} {record : ρ}
    {isFirst : Bool} {s : Bytes} {p : ρ × Bytes}
    (h : readMembers fields seen record isFirst s = .ok p) : p.2.length < s.length := by
  fun_induction readMembers fields seen record isFirst s with
  | case1 => simp at h
  | case2 seen record isFirst s rest hn =>
    have hn := length_nextName hn
    simp only [Except.ok.injEq] at h
    simpa only [← h] using hn
  | case3 => simp at h
  | case4 => simp at h
  | case5 seen record isFirst s name r₁ hn _ r₂ hc r₃ hv ih =>
    have hn : r₁.length < s.length := length_nextName hn
    have hc := length_readColon hc
    have hv := length_skipValue hv
    have := ih h
    omega
  | case6 => simp at h
  | case7 => simp at h
  | case8 => simp at h
  | case9 seen record isFirst s name r₁ hn field _ _ r₂ hc update r₃ hv ih =>
    have hn : r₁.length < s.length := length_nextName hn
    have hc := length_readColon hc
    have hv : r₃.length < r₂.length := field.reader.consumes hv
    have := ih h
    omega

theorem length_nextElement {isFirst : Bool} {s rest : Bytes} (h : nextElement isFirst s = .ok rest) :
    rest.length ≤ s.length := by
  have hle := length_skipSpace_le s
  unfold nextElement at h
  split at h
  · simp at h
  next b tail hs =>
  have := length_of_skipSpace_eq hs
  split at h
  · simp at h
  split at h
  · simp only [Except.ok.injEq] at h
    rw [← h, ← hs]
    exact hle
  split at h
  · have := length_skipSpace_le tail
    split at h
    · simp at h
    next ht =>
    split at h
    · simp at h
    · simp only [Except.ok.injEq] at h
      rw [← h, ← ht]
      omega
  · simp at h

theorem length_readElements {ρ : Type} {fields : List (Field ρ)} {record : ρ} {isFirst : Bool}
    {s : Bytes} {p : ρ × Bytes} (h : readElements fields record isFirst s = .ok p) :
    p.2.length < s.length := by
  induction fields generalizing record isFirst s with
  | nil =>
    simp only [readElements] at h
    split at h
    · simp at h
    next hs =>
    have := length_of_skipSpace_eq hs
    split at h
    · simp only [Except.ok.injEq] at h
      simpa only [← h] using this
    · simp at h
  | cons field fields ih =>
    simp only [readElements, bind, Except.bind] at h
    split at h
    · simp at h
    next h₁ =>
    split at h
    · simp at h
    next h₂ =>
    have := length_nextElement h₁
    have := field.reader.consumes h₂
    have := ih h
    omega

/-- Reads a record whose fields start out as in `empty`. -/
def Reader.record {ρ : Type} (fields : List (Field ρ)) (empty : ρ) : Reader ρ where
  run s :=
    match skipSpace s with
    | 91 :: rest => readElements fields empty true rest
    | 123 :: rest => readMembers fields [] empty true rest
    | s => .error (unexpectedValue s)
  consumes {s p} h := by
    split at h
    next hs =>
      have := length_of_skipSpace_eq hs
      have := length_readElements h
      omega
    next hs =>
      have := length_of_skipSpace_eq hs
      have := length_readMembers h
      omega
    · simp at h

/-- Reads a whole document. -/
def Reader.readDocument {α : Type} (reader : Reader α) (document : Bytes) : Except Error α := do
  let (a, rest) ← reader.run document
  checkEnd rest
  .ok a

end DeviceTrust.Json
