import DeviceTrust.Json.Number
import DeviceTrust.Json.Text

/-!
# Skipping JSON values

A value whose contents do not matter is checked for its form only, at any depth: texts need not be valid
Unicode and numbers may be of any size. The brackets that are still open are kept on a stack, so the
reading is one pass over the bytes.

`rawValue` gives the text of a value as it stands in the document; that text must be valid UTF-8.
-/

namespace DeviceTrust.Json

/-- The brackets that can be open around a value. -/
inductive Bracket where
  | list
  | object
  deriving DecidableEq, Repr

/-- Skips a value that has no parts; `s` starts with it. -/
def skipScalar : Bytes → Except Error Bytes
  | [] => .error .truncated
  | b :: rest =>
    if b = 34 then skipText rest
    else if b = 110 then readWord [117, 108, 108] rest
    else if b = 116 then readWord [114, 117, 101] rest
    else if b = 102 then readWord [97, 108, 115, 101] rest
    else if b = 45 ∨ isDigit b then (readNumeral .malformed (b :: rest)).map (·.2)
    else .error .malformed

/-- Reads the colon after a member's name. -/
def readColon (s : Bytes) : Except Error Bytes :=
  expectByte 58 (skipSpace s)

/-- Skips a member's name and the colon after it. -/
def skipName (s : Bytes) : Except Error Bytes := do
  let s ← expectByte 34 (skipSpace s)
  let s ← skipText s
  readColon s

theorem length_skipScalar {s rest : Bytes} (h : skipScalar s = .ok rest) :
    rest.length < s.length := by
  unfold skipScalar at h
  split at h
  · simp at h
  next b tail =>
  simp only [List.length_cons]
  split at h
  · have := length_skipText h
    omega
  split at h
  · have := length_readWord h
    omega
  split at h
  · have := length_readWord h
    omega
  split at h
  · have := length_readWord h
    omega
  split at h
  · cases hp : readNumeral .malformed (b :: tail) with
    | error e => simp [hp, Except.map] at h
    | ok p =>
      have := length_readNumeral hp
      simp only [hp, Except.map, Except.ok.injEq] at h
      simp only [h, List.length_cons] at this
      omega
  · simp at h

theorem length_readColon {s rest : Bytes} (h : readColon s = .ok rest) :
    rest.length < s.length := by
  have := length_expectByte h
  have := length_skipSpace_le s
  omega

theorem length_skipName {s rest : Bytes} (h : skipName s = .ok rest) :
    rest.length < s.length := by
  simp only [skipName, bind, Except.bind] at h
  split at h
  · simp at h
  next h₁ =>
  split at h
  · simp at h
  next h₂ =>
  have := length_skipSpace_le s
  have := length_expectByte h₁
  have := length_skipText h₂
  have := length_readColon h
  omega

/-! ## Nested values -/

/-- Where the reading stands after the start of a value or after a separator. -/
inductive Turn where
  /-- A value inside `bracket` comes next. -/
  | inside (bracket : Bracket) (rest : Bytes)
  /-- A value has ended. -/
  | ended (rest : Bytes)

/-- What is left of the document. -/
def Turn.rest : Turn → Bytes
  | .inside _ rest => rest
  | .ended rest => rest

/-- Goes to the value of a member, past its name. -/
def enterMember (s : Bytes) : Except Error Turn :=
  (skipName s).map (.inside .object)

/-- Reads the first byte of a value, and the whole value if it has no parts. -/
def openValue (s : Bytes) : Except Error Turn :=
  match skipSpace s with
  | [] => .error .truncated
  | b :: rest =>
    if b = 91 then
      match skipSpace rest with
      | [] => .error .truncated
      | c :: tail => if c = 93 then .ok (.ended tail) else .ok (.inside .list rest)
    else if b = 123 then
      match skipSpace rest with
      | [] => .error .truncated
      | c :: tail => if c = 125 then .ok (.ended tail) else enterMember rest
    else (skipScalar (b :: rest)).map .ended

/-- Reads what follows a value inside `bracket`: a comma or the closing bracket. -/
def closeValue (bracket : Bracket) (s : Bytes) : Except Error Turn :=
  match skipSpace s with
  | [] => .error .truncated
  | b :: rest =>
    match bracket with
    | .list =>
      if b = 44 then .ok (.inside .list rest)
      else if b = 93 then .ok (.ended rest)
      else .error .malformed
    | .object =>
      if b = 44 then enterMember rest
      else if b = 125 then .ok (.ended rest)
      else .error .malformed

theorem length_of_skipSpace_eq {s rest : Bytes} {b : UInt8} (h : skipSpace s = b :: rest) :
    rest.length < s.length := by
  have := length_skipSpace_le s
  simp only [h, List.length_cons] at this
  omega

theorem length_enterMember {s : Bytes} {turn : Turn} (h : enterMember s = .ok turn) :
    turn.rest.length < s.length := by
  unfold enterMember at h
  cases hn : skipName s with
  | error e => simp [hn, Except.map] at h
  | ok rest =>
    simp only [hn, Except.map, Except.ok.injEq] at h
    rw [← h]
    exact length_skipName hn

theorem length_openValue {s : Bytes} {turn : Turn} (h : openValue s = .ok turn) :
    turn.rest.length < s.length := by
  unfold openValue at h
  split at h
  · simp at h
  next b rest hs =>
  have hrest := length_of_skipSpace_eq hs
  split at h
  · split at h
    · simp at h
    next c tail hr =>
    have htail := length_of_skipSpace_eq hr
    split at h <;> (simp only [Except.ok.injEq] at h; simp only [← h, Turn.rest]; omega)
  split at h
  · split at h
    · simp at h
    next c tail hr =>
    have htail := length_of_skipSpace_eq hr
    split at h
    · simp only [Except.ok.injEq] at h
      simp only [← h, Turn.rest]
      omega
    · have := length_enterMember h
      omega
  · cases hn : skipScalar (b :: rest) with
    | error e => simp [hn, Except.map] at h
    | ok tail =>
      have := length_skipScalar hn
      simp only [List.length_cons] at this
      simp only [hn, Except.map, Except.ok.injEq] at h
      simp only [← h, Turn.rest]
      omega

theorem length_closeValue {bracket : Bracket} {s : Bytes} {turn : Turn}
    (h : closeValue bracket s = .ok turn) : turn.rest.length < s.length := by
  unfold closeValue at h
  split at h
  · simp at h
  next b rest hs =>
  have hrest := length_of_skipSpace_eq hs
  split at h
  · split at h
    · simp only [Except.ok.injEq] at h
      simpa only [← h, Turn.rest] using hrest
    · split at h
      · simp only [Except.ok.injEq] at h
        simpa only [← h, Turn.rest] using hrest
      · simp at h
  · split at h
    · have := length_enterMember h
      omega
    · split at h
      · simp only [Except.ok.injEq] at h
        simpa only [← h, Turn.rest] using hrest
      · simp at h

mutual

/-- Skips a value and everything up to the end of the brackets `around` it. -/
def skipNested (around : List Bracket) (s : Bytes) : Except Error Bytes :=
  match _h : openValue s with
  | .error e => .error e
  | .ok (.inside bracket rest) => skipNested (bracket :: around) rest
  | .ok (.ended rest) => skipClosing around rest
termination_by s.length
decreasing_by
  all_goals exact length_openValue _h

/-- Skips what follows a value up to the end of the brackets `around` it. -/
def skipClosing (around : List Bracket) (s : Bytes) : Except Error Bytes :=
  match around with
  | [] => .ok s
  | bracket :: outer =>
    match _h : closeValue bracket s with
    | .error e => .error e
    | .ok (.inside bracket rest) => skipNested (bracket :: outer) rest
    | .ok (.ended rest) => skipClosing outer rest
termination_by s.length
decreasing_by
  all_goals exact length_closeValue _h

end

theorem skipNested_error {around : List Bracket} {s : Bytes} {e : Error}
    (h : openValue s = .error e) : skipNested around s = .error e := by
  rw [skipNested]
  split <;> simp_all

theorem skipNested_inside {around : List Bracket} {s rest : Bytes} {bracket : Bracket}
    (h : openValue s = .ok (.inside bracket rest)) :
    skipNested around s = skipNested (bracket :: around) rest := by
  rw [skipNested]
  split <;> simp_all

theorem skipNested_ended {around : List Bracket} {s rest : Bytes}
    (h : openValue s = .ok (.ended rest)) : skipNested around s = skipClosing around rest := by
  rw [skipNested]
  split <;> simp_all

theorem skipClosing_nil (s : Bytes) : skipClosing [] s = .ok s := by
  rw [skipClosing]

theorem skipClosing_error {outer : List Bracket} {s : Bytes} {bracket : Bracket} {e : Error}
    (h : closeValue bracket s = .error e) : skipClosing (bracket :: outer) s = .error e := by
  rw [skipClosing]
  split <;> simp_all

theorem skipClosing_inside {outer : List Bracket} {s rest : Bytes} {bracket inner : Bracket}
    (h : closeValue bracket s = .ok (.inside inner rest)) :
    skipClosing (bracket :: outer) s = skipNested (inner :: outer) rest := by
  rw [skipClosing]
  split <;> simp_all

theorem skipClosing_ended {outer : List Bracket} {s rest : Bytes} {bracket : Bracket}
    (h : closeValue bracket s = .ok (.ended rest)) :
    skipClosing (bracket :: outer) s = skipClosing outer rest := by
  rw [skipClosing]
  split <;> simp_all

/-- Skipping consumes at least one byte, whatever brackets are open. -/
theorem length_skipNested (around : List Bracket) (s : Bytes) :
    ∀ {rest : Bytes}, skipNested around s = .ok rest → rest.length < s.length := by
  apply skipNested.induct
    (fun around s => ∀ {rest : Bytes}, skipNested around s = .ok rest → rest.length < s.length)
    (fun around s => ∀ {rest : Bytes}, skipClosing around s = .ok rest → rest.length ≤ s.length)
  · intro around s e h rest hrest
    simp [skipNested_error h] at hrest
  · intro around s bracket tail h ih rest hrest
    have : tail.length < s.length := length_openValue h
    have := ih (skipNested_inside h ▸ hrest)
    omega
  · intro around s tail h ih rest hrest
    have : tail.length < s.length := length_openValue h
    have := ih (skipNested_ended h ▸ hrest)
    omega
  · intro s rest hrest
    simp only [skipClosing_nil, Except.ok.injEq] at hrest
    simp [hrest]
  · intro s bracket outer e h rest hrest
    simp [skipClosing_error h] at hrest
  · intro s bracket outer inner tail h ih rest hrest
    have : tail.length < s.length := length_closeValue h
    have := ih (skipClosing_inside h ▸ hrest)
    omega
  · intro s bracket outer tail h ih rest hrest
    have : tail.length < s.length := length_closeValue h
    have := ih (skipClosing_ended h ▸ hrest)
    omega

/-- Skips one value. -/
def skipValue (s : Bytes) : Except Error Bytes :=
  skipNested [] s

theorem length_skipValue {s rest : Bytes} (h : skipValue s = .ok rest) : rest.length < s.length :=
  length_skipNested [] s h

/-! ## Raw values -/

/-- Reads one value and gives the text that stands for it in the document. -/
def rawValue (s : Bytes) : Except Error (Bytes × Bytes) := do
  let start := skipSpace s
  let rest ← skipValue start
  let text : Bytes := start.take (start.length - rest.length)
  if text.isText then .ok (text, rest) else .error .malformed

theorem length_rawValue {s : Bytes} {p : Bytes × Bytes} (h : rawValue s = .ok p) :
    p.2.length < s.length := by
  simp only [rawValue, bind, Except.bind] at h
  split at h
  · simp at h
  next hv =>
  have := length_skipValue hv
  have := length_skipSpace_le s
  split at h
  · simp only [Except.ok.injEq] at h
    simp only [← h]
    omega
  · simp at h

end DeviceTrust.Json
