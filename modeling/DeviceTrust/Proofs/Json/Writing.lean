import DeviceTrust.Proofs.Json.Object

/-!
# Written texts and objects are read back

An object whose members are texts is written without any space, and without escapes if no character
of its texts asks for one. Any text can be quoted: what stands between the quotes spells it, whatever
quotes, backslashes and control characters it holds.

Results:
* `isMembers_writeMembers`: the members of a written object.
* `length_writeObject`: the size of a written object.
* `hasText_writeObject`: the text of a member.
* `spells_escapeChar`, `quotes_quote`: the quoted form of a character and of a text.
-/

namespace DeviceTrust.Json

/-! ## Characters that stand for themselves -/

/-- No character of the text has to be escaped: there is no quote, no backslash and no control
character below the space. -/
def IsUnescaped (text : String) : Prop :=
  ∀ c ∈ text.toList, c ≠ '"' ∧ c ≠ '\\' ∧ 32 ≤ c.toNat

instance (text : String) : Decidable (IsUnescaped text) :=
  List.decidableBAll _ text.toList

theorem IsUnescaped.append {s t : String} (hs : IsUnescaped s) (ht : IsUnescaped t) :
    IsUnescaped (s ++ t) := by
  rw [IsUnescaped, String.toList_append]
  exact List.forall_mem_append.mpr ⟨hs, ht⟩

theorem utf8_eq_flatMap (text : String) :
    utf8 text = text.toList.flatMap String.utf8EncodeChar := by
  have htext : text.toByteArray = text.toList.utf8Encode := by
    rw [← String.toByteArray_ofList, String.ofList_toList]
  simp [utf8, htext, List.utf8Encode]

theorem isPlain_of_le {b : UInt8} (h : 127 < b.toNat) : IsPlain b := by
  have hlt : ¬b < 32 := by
    rw [UInt8.lt_iff_toNat_lt]
    exact Nat.not_lt.mpr (Nat.le_trans (by decide) h)
  refine ⟨hlt, ?_, ?_⟩
  · rintro rfl
    exact absurd h (by decide)
  · rintro rfl
    exact absurd h (by decide)

/-- The form of an ASCII character is the character, and that of any other one has no ASCII byte. -/
theorem isPlain_of_mem_utf8EncodeChar {c : Char} (hquote : c ≠ '"') (hbackslash : c ≠ '\\')
    (hcontrol : 32 ≤ c.toNat) : ∀ b ∈ String.utf8EncodeChar c, IsPlain b := by
  have hval : c.val.toNat = c.toNat := rfl
  have hquote : c.toNat ≠ 34 := fun h => hquote (Char.toNat_inj.mp h)
  have hbackslash : c.toNat ≠ 92 := fun h => hbackslash (Char.toNat_inj.mp h)
  unfold String.utf8EncodeChar
  simp only [hval]
  split
  next hascii =>
    have hb : (UInt8.ofNat c.toNat).toNat = c.toNat := by
      rw [UInt8.toNat_ofNat', Nat.mod_eq_of_lt (by omega)]
    intro b hmem
    obtain rfl := List.mem_singleton.mp hmem
    refine ⟨by rw [UInt8.lt_iff_toNat_lt, hb]; exact Nat.not_lt.mpr hcontrol, ?_, ?_⟩
    · exact fun h => hquote (hb ▸ congrArg UInt8.toNat h)
    · exact fun h => hbackslash (hb ▸ congrArg UInt8.toNat h)
  next =>
    have hlarge (n : Nat) (hge : 128 ≤ n) (hlt : n < 256) : IsPlain (UInt8.ofNat n) :=
      isPlain_of_le (by rwa [UInt8.toNat_ofNat', Nat.mod_eq_of_lt hlt])
    intro b hmem
    split at hmem
    next =>
      simp only [List.mem_cons, List.not_mem_nil, or_false] at hmem
      rcases hmem with rfl | rfl <;> exact hlarge _ (by omega) (by omega)
    next =>
      split at hmem
      next =>
        simp only [List.mem_cons, List.not_mem_nil, or_false] at hmem
        rcases hmem with rfl | rfl | rfl <;> exact hlarge _ (by omega) (by omega)
      next =>
        simp only [List.mem_cons, List.not_mem_nil, or_false] at hmem
        rcases hmem with rfl | rfl | rfl | rfl <;> exact hlarge _ (by omega) (by omega)

theorem isPlain_of_isUnescaped {text : String} (h : IsUnescaped text) :
    ∀ b ∈ utf8 text, IsPlain b := by
  intro b hb
  rw [utf8_eq_flatMap, List.mem_flatMap] at hb
  obtain ⟨c, hc, hb⟩ := hb
  obtain ⟨hquote, hbackslash, hcontrol⟩ := h c hc
  exact isPlain_of_mem_utf8EncodeChar hquote hbackslash hcontrol b hb

theorem Spells.plain_append {run s t : Bytes} (hrun : ∀ b ∈ run, IsPlain b) (h : Spells s t) :
    Spells (run ++ s) (run ++ t) := by
  induction run with
  | nil => exact h
  | cons b run ih =>
    rw [List.forall_mem_cons] at hrun
    exact .plain hrun.1 (ih hrun.2)

theorem spells_utf8 {text : String} (h : IsUnescaped text) : Spells (utf8 text) (utf8 text) := by
  have hspells := Spells.nil.plain_append (isPlain_of_isUnescaped h)
  rwa [List.append_nil] at hspells

/-! ## Objects -/

/-- The text of a value, between its quotes. -/
def quoted (text : String) : Bytes :=
  34 :: (utf8 text ++ [34])

/-- Writes a member whose value is a text. -/
def writeMember (name value : String) : String :=
  "\"" ++ name ++ "\":\"" ++ value ++ "\""

/-- Writes members whose values are texts. -/
def writeMembers : List (String × String) → String
  | [] => ""
  | [(name, value)] => writeMember name value
  | (name, value) :: members => writeMember name value ++ "," ++ writeMembers members

/-- Writes an object whose values are texts. -/
def writeObject (members : List (String × String)) : String :=
  "\x7b" ++ writeMembers members ++ "\x7d"

example : writeObject [("a", "x"), ("b", "y")] = "\x7b\"a\":\"x\",\"b\":\"y\"\x7d" := by
  decide

/-- The names and the values of the members stand for themselves. -/
def AreUnescaped (members : List (String × String)) : Prop :=
  ∀ m ∈ members, IsUnescaped m.1 ∧ IsUnescaped m.2

instance (members : List (String × String)) : Decidable (AreUnescaped members) :=
  List.decidableBAll _ members

theorem writeMembers_cons (m m' : String × String) (members : List (String × String)) :
    writeMembers (m :: m' :: members) =
      writeMember m.1 m.2 ++ "," ++ writeMembers (m' :: members) := rfl

theorem areUnescaped_nil : AreUnescaped [] := List.forall_mem_nil _

theorem AreUnescaped.cons {name value : String} {members : List (String × String)}
    (h : AreUnescaped members) (hname : IsUnescaped name) (hvalue : IsUnescaped value) :
    AreUnescaped ((name, value) :: members) :=
  List.forall_mem_cons.mpr ⟨⟨hname, hvalue⟩, h⟩

theorem utf8_writeMember (name value : String) :
    utf8 (writeMember name value) = 34 :: (utf8 name ++ 34 :: 58 :: quoted value) := by
  have hquote : utf8 "\"" = [34] := by decide
  have hcolon : utf8 "\":\"" = [34, 58, 34] := by decide
  simp only [writeMember, utf8_append, hquote, hcolon, quoted, List.append_assoc, List.cons_append,
    List.nil_append]

theorem isValue_quoted {text : String} (h : IsUnescaped text) : IsValue (quoted text) :=
  .text (spells_utf8 h).isQuotable

theorem quotes_quoted {text : String} (h : IsUnescaped text) : Quotes (quoted text) text :=
  ⟨utf8 text, spells_utf8 h, rfl⟩

theorem isMembers_writeMembers {members : List (String × String)} (h : AreUnescaped members)
    (hne : members ≠ []) : IsMembers (utf8 (writeMembers members))
      (members.map fun m => (m.1, quoted m.2)) := by
  induction members with
  | nil => exact absurd rfl hne
  | cons m members ih =>
    obtain ⟨hm, hmembers⟩ := List.forall_mem_cons.mp h
    have hname := spells_utf8 hm.1
    have hvalue := isValue_quoted hm.2
    cases members with
    | nil =>
      rw [writeMembers, utf8_writeMember]
      simpa using IsMembers.last isBlank_nil hname isBlank_nil isBlank_nil hvalue isBlank_nil
    | cons m' members =>
      have hcomma : utf8 "," = [44] := by decide
      rw [writeMembers_cons, utf8_append, utf8_append, utf8_writeMember, hcomma]
      simpa using IsMembers.cons isBlank_nil hname isBlank_nil isBlank_nil hvalue isBlank_nil
        (ih hmembers (by simp))

theorem isObject_writeObject {members : List (String × String)} (h : AreUnescaped members)
    (hne : members ≠ []) : IsObject (utf8 (writeObject members))
      (members.map fun m => (m.1, quoted m.2)) := by
  have hopen : utf8 "\x7b" = [123] := by decide
  have hclose : utf8 "\x7d" = [125] := by decide
  refine ⟨[], utf8 (writeMembers members), [], isBlank_nil, isBlank_nil, ?_,
    .inr (isMembers_writeMembers h hne)⟩
  rw [writeObject, utf8_append, utf8_append, hopen, hclose]
  simp

theorem isValue_writeObject {members : List (String × String)} (h : AreUnescaped members)
    (hne : members ≠ []) : IsValue (utf8 (writeObject members)) := by
  have hopen : utf8 "\x7b" = [123] := by decide
  have hclose : utf8 "\x7d" = [125] := by decide
  rw [writeObject, utf8_append, utf8_append, hopen, hclose, List.append_assoc]
  exact .object (isMembers_writeMembers h hne).matches

/-- The size of members, each with the comma or the brace that ends it. -/
def membersSize : List (String × String) → Nat
  | [] => 0
  | (name, value) :: members => (utf8 name).length + (utf8 value).length + 6 + membersSize members

theorem length_writeMember (name value : String) :
    (utf8 (writeMember name value)).length = (utf8 name).length + (utf8 value).length + 5 := by
  simp only [utf8_writeMember, quoted, List.length_cons, List.length_append, List.length_nil]
  omega

theorem length_writeMembers {members : List (String × String)} (hne : members ≠ []) :
    (utf8 (writeMembers members)).length + 1 = membersSize members := by
  induction members with
  | nil => exact absurd rfl hne
  | cons m members ih =>
    have hmember := length_writeMember m.1 m.2
    cases members with
    | nil =>
      rw [writeMembers, hmember]
      rfl
    | cons m' members =>
      have hcomma : (utf8 ",").length = 1 := by decide
      have ih := ih (List.cons_ne_nil _ _)
      rw [writeMembers_cons, utf8_append, utf8_append, List.length_append, List.length_append,
        hcomma, hmember, Nat.add_assoc, ih]
      rfl

/-- Besides its members an object has one more brace. -/
theorem length_writeObject {members : List (String × String)} (hne : members ≠ []) :
    (utf8 (writeObject members)).length = membersSize members + 1 := by
  have hopen : (utf8 "\x7b").length = 1 := by decide
  have hclose : (utf8 "\x7d").length = 1 := by decide
  rw [writeObject, utf8_append, utf8_append, List.length_append, List.length_append, hopen, hclose,
    Nat.add_assoc, length_writeMembers hne, Nat.add_comm]

theorem first?_quoted (members : List (String × String)) (key : String) :
    Members.first? (members.map fun m => (m.1, quoted m.2)) key =
      (members.find? (·.1 = key)).map fun m => quoted m.2 := by
  rw [Members.first?, List.find?_map, Option.map_map]
  rfl

theorem isText_quoted (text : String) : (quoted text).isText = true := by
  have hquote : utf8 "\"" = [34] := by decide
  have hquoted : quoted text = utf8 ("\"" ++ text ++ "\"") := by
    rw [utf8_append, utf8_append, hquote]
    rfl
  rw [hquoted, Bytes.isText, text?_utf8]
  rfl

/-- A text that has been written is read back. -/
theorem hasText_writeObject {members : List (String × String)} (h : AreUnescaped members)
    {key value : String} (hkey : members.find? (·.1 = key) = some (key, value)) :
    HasText (utf8 (writeObject members)) key value := by
  have hmem := List.mem_of_find?_eq_some hkey
  refine ⟨_, utf8 value, isObject_writeObject h (List.ne_nil_of_mem hmem), ?_, isText_quoted value,
    spells_utf8 (h _ hmem).2⟩
  rw [first?_quoted, hkey]
  rfl

/-! ## Quoted texts

Any text can be quoted. What stands between the quotes spells it, whatever quotes, backslashes and
control characters it holds, so no character of the text can end the quotes or start an escape. -/

variable {s t : Bytes}

/-- A lower-case digit is one byte and is read back. -/
theorem utf8EncodeChar_lowerHexDigit (n : Fin 16) :
    ∃ d, String.utf8EncodeChar (lowerHexDigit n) = [d] ∧ hexDigit? d = some n.val := by
  refine ⟨UInt8.ofNat (lowerHexDigit n).toNat, ?_⟩
  revert n
  decide

/-- A control character is written as a unit of UTF-16 with two zeros in front. -/
theorem exists_isUnit {n : Nat} (h : n < 256) : ∃ digits, IsUnit digits n ∧
    ['\\', 'u', '0', '0', lowerHexDigit (n / 16), lowerHexDigit (n % 16)].flatMap
      String.utf8EncodeChar = 92 :: 117 :: digits := by
  obtain ⟨high, hhigh, hhigh'⟩ := utf8EncodeChar_lowerHexDigit ⟨n / 16, by omega⟩
  obtain ⟨low, hlow, hlow'⟩ := utf8EncodeChar_lowerHexDigit ⟨n % 16, by omega⟩
  have hzero : hexDigit? 48 = some 0 := rfl
  have hunit := IsUnit.mk hzero hzero hhigh' hlow'
  have hn : ((0 * 16 + 0) * 16 + n / 16) * 16 + n % 16 = n := by omega
  rw [hn] at hunit
  have hfront : ['\\', 'u', '0', '0'].flatMap String.utf8EncodeChar = [92, 117, 48, 48] := by decide
  refine ⟨_, hunit, ?_⟩
  show (['\\', 'u', '0', '0'] ++ [_, _]).flatMap _ = _
  rw [List.flatMap_append, hfront, List.flatMap_cons, List.flatMap_singleton, hhigh, hlow]
  rfl

/-- The form of a character inside quotes spells the character. -/
theorem spells_escapeChar (c : Char) (h : Spells s t) :
    Spells ((escapeChar c).flatMap String.utf8EncodeChar ++ s) (String.utf8EncodeChar c ++ t) := by
  have hsimple {b : UInt8} {d : Char} (hd : simpleEscape? b = some d) :
      Spells (92 :: b :: s) (String.utf8EncodeChar d ++ t) := .escape (.simple hd) h
  rw [escapeChar]
  -- the escapes of a single letter, in the order in which they are tried
  by_cases hquote : c = '"'
  · subst hquote
    exact hsimple (b := 34) rfl
  by_cases hbackslash : c = '\\'
  · subst hbackslash
    exact hsimple (b := 92) rfl
  by_cases hbackspace : c = '\x08'
  · subst hbackspace
    exact hsimple (b := 98) rfl
  by_cases hfeed : c = '\x0c'
  · subst hfeed
    exact hsimple (b := 102) rfl
  by_cases hline : c = '\n'
  · subst hline
    exact hsimple (b := 110) rfl
  by_cases hreturn : c = '\r'
  · subst hreturn
    exact hsimple (b := 114) rfl
  by_cases htab : c = '\t'
  · subst htab
    exact hsimple (b := 116) rfl
  rw [if_neg hquote, if_neg hbackslash, if_neg hbackspace, if_neg hfeed, if_neg hline,
    if_neg hreturn, if_neg htab]
  by_cases hcontrol : c.toNat < 32
  · obtain ⟨digits, hunit, hbytes⟩ := exists_isUnit (Nat.lt_trans hcontrol (by decide))
    have hescape : IsEscape (117 :: digits) (Char.ofNat c.toNat) := by
      refine .unicode hunit ?_ ?_
      · rw [isHighSurrogate, decide_eq_false (by omega)]
        rfl
      · rw [isLowSurrogate, decide_eq_false (by omega)]
        rfl
    rw [Char.ofNat_toNat] at hescape
    rw [if_pos hcontrol, hbytes]
    exact .escape hescape h
  · rw [if_neg hcontrol, List.flatMap_singleton]
    have hlarge := Nat.le_of_not_lt hcontrol
    exact h.plain_append (isPlain_of_mem_utf8EncodeChar hquote hbackslash hlarge)

theorem spells_escape (text : List Char) :
    Spells ((text.flatMap escapeChar).flatMap String.utf8EncodeChar)
      (text.flatMap String.utf8EncodeChar) := by
  induction text with
  | nil => exact .nil
  | cons c text ih =>
    rw [List.flatMap_cons, List.flatMap_cons, List.flatMap_append]
    exact spells_escapeChar c ih

/-- The quoted form of a text stands for the text. -/
theorem quotes_quote (text : String) : Quotes (utf8 (quote text)) text := by
  have hspells := spells_escape text.toList
  rw [← utf8_eq_flatMap] at hspells
  refine ⟨_, hspells, ?_⟩
  have hquote : String.utf8EncodeChar '"' = [34] := by decide
  rw [utf8_eq_flatMap, quote, String.toList_ofList, List.cons_append, List.flatMap_cons,
    List.flatMap_append, List.flatMap_singleton, hquote]
  rfl

theorem Quotes.isValue {value : Bytes} {text : String} (h : Quotes value text) : IsValue value := by
  obtain ⟨source, hsource, rfl⟩ := h
  exact .text hsource.isQuotable

end DeviceTrust.Json
