import DeviceTrust.Proofs.Json.Value

/-!
# Looking up a member

A document is looked through to its end, so a member is found only in a document that is an object
in all its parts; the value that is found is that of the first member with the name.

Results:
* `IsTail.unique`, `IsObject.unique`: the same bytes have the same members.
* `seekMember_append`, `of_seekMember`: the members that are read up to the closing brace.
* `firstMember_eq_ok_iff`: a document is looked through iff it is an object, and its member is
  found.
* `firstMember_of_isObject`: what is looked up in an object.
-/

namespace DeviceTrust.Json

variable {s rest : Bytes} {key name : String} {members : Members} {isFirst : Bool}

/-! ## Members -/

theorem Members.first?_cons (name : String) (value : Bytes) (members : Members) (key : String) :
    Members.first? ((name, value) :: members) key =
      if name = key then some value else members.first? key := by
  by_cases h : name = key <;> simp [Members.first?, h]

/-- What stands in front of a member, after the brace or after the value of the member before it. -/
inductive IsSeparator : Bool → Bytes → Prop where
  | first : IsSeparator true []
  | later {w : Bytes} (hw : IsBlank w) : IsSeparator false (w ++ [44])

/-- What stands up to the closing brace. -/
def IsTail (isFirst : Bool) (s : Bytes) (members : Members) : Prop :=
  IsBlank s ∧ members = [] ∨
    ∃ front inside, IsSeparator isFirst front ∧ s = front ++ inside ∧ IsMembers inside members

theorem isMembers_cons_iff {value : Bytes} :
    IsMembers s ((name, value) :: members) ↔ ∃ t source u v tail, IsBlank t ∧
      Spells source (utf8 name) ∧ IsBlank u ∧ IsBlank v ∧ IsValue value ∧
      s = t ++ 34 :: (source ++ 34 :: (u ++ 58 :: (v ++ (value ++ tail)))) ∧
      IsTail false tail members := by
  constructor
  · intro h
    cases h with
    | last ht hname hu hv hvalue hw =>
      exact ⟨_, _, _, _, _, ht, hname, hu, hv, hvalue, rfl, .inl ⟨hw, rfl⟩⟩
    | cons ht hname hu hv hvalue hw hs =>
      refine ⟨_, _, _, _, _, ht, hname, hu, hv, hvalue, rfl, .inr ⟨_, _, .later hw, ?_, hs⟩⟩
      rw [List.append_assoc]
      rfl
  · rintro ⟨t, source, u, v, tail, ht, hname, hu, hv, hvalue, rfl, htail⟩
    rcases htail with ⟨hw, rfl⟩ | ⟨front, inside, hfront, rfl, hinside⟩
    · exact .last ht hname hu hv hvalue hw
    · cases hfront with
      | later hw =>
        rw [List.append_assoc]
        exact .cons ht hname hu hv hvalue hw hinside

theorem IsMembers.ne_nil (h : IsMembers s members) : members ≠ [] := by
  cases h <;> simp

/-- Members are members for their form alone. -/
theorem IsMembers.matches (h : IsMembers s members) : Matches .members s := by
  induction h with
  | last ht hname hu hv hvalue hw => exact .lastMember ht hname.isQuotable hu hv hvalue hw
  | cons ht hname hu hv hvalue hw hs ih => exact .member ht hname.isQuotable hu hv hvalue hw ih

theorem IsTail.ends (h : IsTail false s members) (rest : Bytes) :
    Bytes.Ends extendsNumber (s ++ 125 :: rest) := by
  rcases h with ⟨hs, -⟩ | ⟨front, inside, hfront, rfl, -⟩
  · exact hs.ends (by simp; rfl)
  · cases hfront with
    | later hw =>
      rw [List.append_assoc, List.append_assoc]
      exact hw.ends (by simp; rfl)

/-! ## Names -/

theorem nextName_stop {w : Bytes} (h : IsBlank w) (rest : Bytes) :
    nextName isFirst (w ++ 125 :: rest) = .ok (none, rest) := by
  simp only [nextName, skipSpace_append h, skipSpace_cons (b := 125) rfl, ite_true]

theorem readName_append {source : Bytes} (h : Spells source (utf8 name)) (rest : Bytes) :
    readName (34 :: (source ++ 34 :: rest)) = .ok (some name, rest) := by
  simp only [readName, expectByte_cons, readText_append h, bind, Except.bind]

theorem nextName_append {front t source : Bytes} (hfront : IsSeparator isFirst front)
    (ht : IsBlank t) (h : Spells source (utf8 name)) (rest : Bytes) :
    nextName isFirst (front ++ (t ++ 34 :: (source ++ 34 :: rest))) = .ok (some name, rest) := by
  cases hfront with
  | first =>
    simp only [List.nil_append, nextName, skipSpace_append ht, skipSpace_cons (b := 34) rfl,
      readName_append h, ite_true]
    rw [if_neg (by decide)]
  | later hw =>
    simp only [List.append_assoc, List.cons_append, List.nil_append, nextName, skipSpace_append hw,
      skipSpace_cons (b := 44) rfl, skipSpace_append ht, skipSpace_cons (b := 34) rfl,
      readName_append h, ite_true]
    rw [if_neg (by decide), if_neg (by decide)]

theorem of_readName {found : Option String} (h : readName s = .ok (found, rest)) :
    ∃ name source, found = some name ∧ Spells source (utf8 name) ∧
      s = 34 :: (source ++ 34 :: rest) := by
  obtain ⟨_, hquote, h⟩ := bind_eq_ok_iff.mp h
  obtain ⟨_, htext, h⟩ := bind_eq_ok_iff.mp h
  obtain ⟨rfl, rfl⟩ := Prod.mk.inj (Except.ok.inj h)
  obtain ⟨source, hsource, hs⟩ := of_readText htext
  exact ⟨_, source, rfl, hsource, by rw [eq_cons_of_expectByte hquote, hs]⟩

/-- The closing brace, or the name of a member. -/
theorem of_nextName {found : Option String} (h : nextName isFirst s = .ok (found, rest)) :
    (found = none ∧ ∃ w, IsBlank w ∧ s = w ++ 125 :: rest) ∨
      ∃ name front t source, found = some name ∧ IsSeparator isFirst front ∧ IsBlank t ∧
        Spells source (utf8 name) ∧ s = front ++ (t ++ 34 :: (source ++ 34 :: rest)) := by
  unfold nextName at h
  split at h
  next => simp at h
  next b tail hs =>
  obtain ⟨w, hw, rfl⟩ := exists_isBlank_cons hs
  split at h
  next hb =>
    simp only [Except.ok.injEq, Prod.mk.injEq] at h
    obtain ⟨rfl, rfl⟩ := h
    exact .inl ⟨rfl, w, hw, by rw [hb]⟩
  next =>
  split at h
  next hfirst =>
    obtain ⟨name, source, hfound, hsource, htail⟩ := of_readName h
    exact .inr ⟨name, [], w, source, hfound, hfirst ▸ .first, hw, hsource, by rw [htail]; rfl⟩
  next hfirst =>
  split at h
  next hb =>
    obtain ⟨name, source, hfound, hsource, htail⟩ := of_readName h
    obtain ⟨t, ht, rfl⟩ := exists_isBlank_cons htail
    refine .inr ⟨name, w ++ [44], t, source, hfound, ?_, ht, hsource, ?_⟩
    · rw [Bool.not_eq_true] at hfirst
      exact hfirst ▸ .later hw
    · rw [hb, List.append_assoc]
      rfl
  next => simp at h

theorem readColon_append {u : Bytes} (h : IsBlank u) (rest : Bytes) :
    readColon (u ++ 58 :: rest) = .ok rest := by
  rw [readColon, skipSpace_append h, skipSpace_cons rfl, expectByte_cons]

theorem of_readColon (h : readColon s = .ok rest) : ∃ u, IsBlank u ∧ s = u ++ 58 :: rest :=
  exists_isBlank_cons (eq_cons_of_expectByte h)

/-- What is read of the first of the members: its name, the colon, and then its value. -/
theorem IsTail.exists_of_cons {value : Bytes} (h : IsTail isFirst s ((name, value) :: members))
    (rest : Bytes) : ∃ s₁ v tail, nextName isFirst (s ++ 125 :: rest) = .ok (some name, s₁) ∧
      readColon s₁ = .ok (v ++ (value ++ (tail ++ 125 :: rest))) ∧ IsBlank v ∧ IsValue value ∧
      IsTail false tail members := by
  rcases h with ⟨-, hnil⟩ | ⟨front, inside, hfront, rfl, hinside⟩
  · cases hnil
  · obtain ⟨t, source, u, v, tail, ht, hname, hu, hv, hvalue, rfl, htail⟩ :=
      isMembers_cons_iff.mp hinside
    refine ⟨_, v, tail, ?_, readColon_append hu _, hv, hvalue, htail⟩
    simp only [List.append_assoc, List.cons_append]
    exact nextName_append hfront ht hname _

/-- Where no name is read, nothing is left before the closing brace. -/
theorem of_nextName_none (h : nextName isFirst s = .ok (none, rest)) :
    ∃ w, s = w ++ 125 :: rest ∧ IsTail isFirst w [] := by
  rcases of_nextName h with ⟨-, w, hw, hs⟩ | ⟨name, front, t, source, hname, -⟩
  · exact ⟨w, hs, .inl ⟨hw, rfl⟩⟩
  · cases hname

/-- What stands before the value of a member makes it the next one, whichever value follows. -/
theorem of_nextName_some {tail : Bytes} (hname : nextName isFirst s = .ok (some name, tail))
    (hcolon : readColon tail = .ok rest) : ∃ before, s = before ++ rest ∧
      ∀ {v value inside members}, IsBlank v → IsValue value → IsTail false inside members →
        IsTail isFirst (before ++ (v ++ (value ++ inside))) ((name, value) :: members) := by
  rcases of_nextName hname with
    ⟨hnone, -⟩ | ⟨name', front, t, source, hsome, hfront, ht, hsource, rfl⟩
  · cases hnone
  · obtain rfl := Option.some.inj hsome
    obtain ⟨u, hu, rfl⟩ := of_readColon hcolon
    refine ⟨front ++ (t ++ 34 :: (source ++ 34 :: (u ++ [58]))), by simp, ?_⟩
    intro v value inside members hv hvalue htail
    exact .inr ⟨front, _, hfront, by simp, isMembers_cons_iff.mpr
      ⟨t, source, u, v, inside, ht, hsource, hu, hv, hvalue, rfl, htail⟩⟩

theorem IsTail.isBlank_of_nil (h : IsTail isFirst s []) : IsBlank s := by
  rcases h with ⟨hs, -⟩ | ⟨front, inside, -, -, hinside⟩
  · exact hs
  · exact absurd rfl hinside.ne_nil

/-- The same bytes have the same members. -/
theorem IsTail.unique {s' rest' : Bytes} {members' : Members} (h : IsTail isFirst s members)
    (h' : IsTail isFirst s' members') (heq : s ++ 125 :: rest = s' ++ 125 :: rest') :
    members = members' ∧ rest = rest' := by
  induction members generalizing isFirst s s' members' with
  | nil =>
    have hstop : nextName isFirst (s ++ 125 :: rest) = .ok (none, rest) :=
      nextName_stop h.isBlank_of_nil rest
    cases members' with
    | nil =>
      rw [heq, nextName_stop h'.isBlank_of_nil] at hstop
      simp only [Except.ok.injEq, Prod.mk.injEq, true_and] at hstop
      exact ⟨rfl, hstop.symm⟩
    | cons member' members' =>
      obtain ⟨s₁, v, tail, hnext, -⟩ := h'.exists_of_cons rest'
      rw [heq, hnext] at hstop
      simp at hstop
  | cons member members ih =>
    obtain ⟨name, value⟩ := member
    obtain ⟨s₁, v, tail, hnext, hcolon, hv, hvalue, htail⟩ := h.exists_of_cons rest
    cases members' with
    | nil =>
      rw [heq, nextName_stop h'.isBlank_of_nil] at hnext
      simp at hnext
    | cons member' members' =>
      obtain ⟨name', value'⟩ := member'
      obtain ⟨s₁', v', tail', hnext', hcolon', hv', hvalue', htail'⟩ := h'.exists_of_cons rest'
      rw [heq, hnext'] at hnext
      simp only [Except.ok.injEq, Prod.mk.injEq, Option.some.injEq] at hnext
      obtain ⟨rfl, rfl⟩ := hnext
      rw [hcolon', Except.ok.injEq] at hcolon
      -- the value ends where it can be skipped to
      have hskip := skipValue_append hv hvalue (htail.ends rest)
      rw [← hcolon, skipValue_append hv' hvalue' (htail'.ends rest'), Except.ok.injEq] at hskip
      obtain ⟨rfl, rfl⟩ := ih htail htail' hskip.symm
      rw [hskip] at hcolon
      have hsame : value' = value := by
        have hstart := congrArg skipSpace hcolon
        rw [skipSpace_value hv' hvalue', skipSpace_value hv hvalue] at hstart
        exact List.append_cancel_right hstart
      exact ⟨by rw [hsame], rfl⟩

/-! ## The members up to the closing brace -/

/-- What has been looked up when the members are `members` and `found` had been met before. -/
structure Finds (key : String) (found : Option Bytes) (members : Members) (result : Option Bytes) :
    Prop where
  eq : result = found.or (members.first? key)
  /-- The text that is kept is valid UTF-8. -/
  isText : found = none → ∀ value ∈ result, value.isText = true

theorem finds_nil (found : Option Bytes) : Finds key found [] found :=
  ⟨by cases found <;> rfl, by rintro rfl; simp⟩

theorem finds_cons_some {value kept : Bytes} {result : Option Bytes} :
    Finds key (some kept) ((name, value) :: members) result ↔
      Finds key (some kept) members result := by
  constructor <;> exact fun h => ⟨h.eq, by simp⟩

theorem finds_cons_of_ne {value : Bytes} {found result : Option Bytes} (h : name ≠ key) :
    Finds key found ((name, value) :: members) result ↔ Finds key found members result := by
  have hfirst : Members.first? ((name, value) :: members) key = members.first? key := by
    rw [Members.first?_cons, if_neg h]
  constructor
  · exact fun hfinds => ⟨hfirst ▸ hfinds.eq, hfinds.isText⟩
  · exact fun hfinds => ⟨hfirst ▸ hfinds.eq, hfinds.isText⟩

theorem finds_cons_self {value : Bytes} {result : Option Bytes} :
    Finds key none ((key, value) :: members) result ↔
      result = some value ∧ value.isText = true := by
  have hfirst : Members.first? ((key, value) :: members) key = some value := by
    rw [Members.first?_cons, if_pos rfl]
  constructor
  · intro h
    have heq : result = some value := h.eq.trans (by rw [hfirst]; rfl)
    exact ⟨heq, h.isText rfl value heq⟩
  · rintro ⟨rfl, htext⟩
    refine ⟨by rw [hfirst]; rfl, ?_⟩
    intro _ v hv
    rwa [← Option.some.inj hv]

theorem seekMember_of_stop {found : Option Bytes} (h : nextName isFirst s = .ok (none, rest)) :
    seekMember key found isFirst s = .ok (found, rest) := by
  rw [seekMember]
  split <;> simp_all

theorem seekMember_of_key {value s₁ s₂ s₃ : Bytes} (hn : nextName isFirst s = .ok (some key, s₁))
    (hc : readColon s₁ = .ok s₂) (hv : rawValue s₂ = .ok (value, s₃)) :
    seekMember key none isFirst s = seekMember key (some value) false s₃ := by
  rw [seekMember]
  split <;> simp_all
  split <;> simp_all
  split <;> simp_all

theorem seekMember_of_key_error {s₁ s₂ : Bytes} {e : Error}
    (hn : nextName isFirst s = .ok (some key, s₁)) (hc : readColon s₁ = .ok s₂)
    (hv : rawValue s₂ = .error e) : seekMember key none isFirst s = .error e := by
  rw [seekMember]
  split <;> simp_all
  split <;> simp_all
  split <;> simp_all

theorem seekMember_of_other {found : Option Bytes} {s₁ s₂ s₃ : Bytes}
    (hn : nextName isFirst s = .ok (some name, s₁)) (hc : readColon s₁ = .ok s₂)
    (hkey : ¬(found = none ∧ name = key)) (hv : skipValue s₂ = .ok s₃) :
    seekMember key found isFirst s = seekMember key found false s₃ := by
  have hkey' : ¬(found.isNone = true ∧ name = key) := by simpa using hkey
  rw [seekMember]
  split <;> simp_all only [reduceCtorEq, Except.ok.injEq, Prod.mk.injEq, Option.some.injEq,
    false_and]
  split <;> simp_all only [reduceCtorEq, Except.ok.injEq, ite_false]
  split <;> simp_all

theorem seekMember_append {found result : Option Bytes} {inside : Bytes}
    (htail : IsTail isFirst inside members) (hfinds : Finds key found members result)
    (rest : Bytes) : seekMember key found isFirst (inside ++ 125 :: rest) = .ok (result, rest) := by
  induction members generalizing found isFirst inside with
  | nil =>
    rcases htail with ⟨hw, -⟩ | ⟨front, s, -, -, hs⟩
    · have hresult : result = found := by rw [hfinds.eq]; cases found <;> rfl
      rw [seekMember_of_stop (nextName_stop hw rest), hresult]
    · exact absurd rfl hs.ne_nil
  | cons member members ih =>
    obtain ⟨name, value⟩ := member
    obtain ⟨s₁, v, tail, hnext, hcolon, hv, hvalue, htail⟩ := htail.exists_of_cons rest
    have hend := htail.ends rest
    by_cases hkey : found = none ∧ name = key
    · obtain ⟨rfl, rfl⟩ := hkey
      obtain ⟨rfl, htext⟩ := finds_cons_self.mp hfinds
      rw [seekMember_of_key hnext hcolon (rawValue_append hv hvalue htext hend)]
      exact ih htail ⟨rfl, by simp⟩
    · have hfinds' : Finds key found members result := by
        cases found with
        | none => exact (finds_cons_of_ne (by simpa using hkey)).mp hfinds
        | some kept => exact finds_cons_some.mp hfinds
      rw [seekMember_of_other hnext hcolon hkey (skipValue_append hv hvalue hend)]
      exact ih htail hfinds'

/-- The value that is looked up must be valid UTF-8 as it stands. -/
theorem seekMember_of_not_isText {value inside : Bytes} (htail : IsTail isFirst inside members)
    (hfirst : members.first? key = some value) (htext : value.isText = false) (rest : Bytes) :
    seekMember key none isFirst (inside ++ 125 :: rest) = .error .malformed := by
  induction members generalizing isFirst inside with
  | nil => simp [Members.first?] at hfirst
  | cons member members ih =>
    obtain ⟨name, value'⟩ := member
    obtain ⟨s₁, v, tail, hnext, hcolon, hv, hvalue, htail⟩ := htail.exists_of_cons rest
    have hend := htail.ends rest
    rw [Members.first?_cons] at hfirst
    by_cases hkey : name = key
    · obtain rfl := hkey
      obtain rfl : value' = value := by simpa using hfirst
      refine seekMember_of_key_error hnext hcolon ?_
      rw [rawValue_value hv hvalue hend, htext]
      rfl
    · rw [if_neg hkey] at hfirst
      rw [seekMember_of_other hnext hcolon (fun h => hkey h.2) (skipValue_append hv hvalue hend)]
      exact ih htail hfirst

theorem of_seekMember {found result : Option Bytes}
    (h : seekMember key found isFirst s = .ok (result, rest)) :
    ∃ inside members, s = inside ++ 125 :: rest ∧ IsTail isFirst inside members ∧
      Finds key found members result := by
  fun_induction seekMember key found isFirst s with
  | case1 => simp at h
  | case2 found isFirst s tail hn =>
    simp only [Except.ok.injEq, Prod.mk.injEq] at h
    obtain ⟨rfl, rfl⟩ := h
    obtain ⟨w, hs, htail⟩ := of_nextName_none hn
    exact ⟨w, [], hs, htail, finds_nil found⟩
  | case3 => simp at h
  | case4 => simp at h
  | case5 found isFirst s name tail hn tail' hc hkey value tail'' hv ih =>
    obtain ⟨hfound, rfl⟩ := hkey
    obtain rfl := Option.isNone_iff_eq_none.mp hfound
    obtain ⟨before, rfl, hmember⟩ := of_nextName_some hn hc
    obtain ⟨v, hv', hvalue, htext, rfl⟩ := of_rawValue hv
    obtain ⟨inside, members, rfl, htail, hfinds⟩ := ih h
    have hresult : result = some value := hfinds.eq
    exact ⟨_, _, by simp only [List.append_assoc], hmember hv' hvalue htail,
      finds_cons_self.mpr ⟨hresult, htext⟩⟩
  | case6 => simp at h
  | case7 found isFirst s name tail hn tail' hc hkey tail'' hv ih =>
    obtain ⟨before, rfl, hmember⟩ := of_nextName_some hn hc
    obtain ⟨v, value, hv', hvalue, rfl⟩ := of_skipValue hv
    obtain ⟨inside, members, rfl, htail, hfinds⟩ := ih h
    refine ⟨_, (name, value) :: members, by simp only [List.append_assoc],
      hmember hv' hvalue htail, ?_⟩
    cases found with
    | none => exact (finds_cons_of_ne (by simpa using hkey)).mpr hfinds
    | some kept => exact finds_cons_some.mpr hfinds

/-! ## Documents -/

theorem isTail_first_iff {inside : Bytes} :
    IsTail true inside members ↔ IsBlank inside ∧ members = [] ∨ IsMembers inside members := by
  constructor
  · rintro (h | ⟨front, s, hfront, rfl, hs⟩)
    · exact .inl h
    · obtain ⟨⟩ := hfront
      exact .inr hs
  · rintro (h | h)
    · exact .inl h
    · exact .inr ⟨[], inside, .first, rfl, h⟩

/-- A document has one list of members. -/
theorem IsObject.unique {document : Bytes} {members' : Members} (h : IsObject document members)
    (h' : IsObject document members') : members = members' := by
  obtain ⟨u, inside, w, hu, -, hs, hinside⟩ := h
  obtain ⟨u', inside', w', hu', -, hs', hinside'⟩ := h'
  have heq : inside ++ 125 :: w = inside' ++ 125 :: w' := by
    have hstart := congrArg skipSpace (hs.symm.trans hs')
    rw [skipSpace_append hu, skipSpace_append hu', skipSpace_cons rfl, skipSpace_cons rfl] at hstart
    exact (List.cons.inj hstart).2
  exact ((isTail_first_iff.mpr hinside).unique (isTail_first_iff.mpr hinside') heq).1

theorem IsMembers.isValue_of_first? {value : Bytes} (h : IsMembers s members)
    (hvalue : members.first? key = some value) : IsValue value := by
  induction h with
  | last ht hname hu hv hvalue' hw =>
    rw [Members.first?_cons] at hvalue
    split at hvalue
    next => exact Option.some.inj hvalue ▸ hvalue'
    next => simp [Members.first?] at hvalue
  | cons ht hname hu hv hvalue' hw hs ih =>
    rw [Members.first?_cons] at hvalue
    split at hvalue
    next => exact Option.some.inj hvalue ▸ hvalue'
    next => exact ih hvalue

theorem IsObject.isValue_of_first? {document value : Bytes} (h : IsObject document members)
    (hvalue : members.first? key = some value) : IsValue value := by
  obtain ⟨u, inside, w, -, -, -, hinside⟩ := h
  rcases hinside with ⟨-, rfl⟩ | hinside
  · simp [Members.first?] at hvalue
  · exact hinside.isValue_of_first? hvalue

theorem firstMember_eq_ok_iff {document : Bytes} {found : Option Bytes} :
    firstMember key document = .ok found ↔ ∃ members, IsObject document members ∧
      members.first? key = found ∧ ∀ value ∈ found, value.isText = true := by
  constructor
  · intro h
    unfold firstMember at h
    split at h
    next tail htail =>
      obtain ⟨u, hu, rfl⟩ := exists_isBlank_cons htail
      obtain ⟨p, hp, h⟩ := bind_eq_ok_iff.mp h
      obtain ⟨_, hend, h⟩ := bind_eq_ok_iff.mp h
      obtain rfl := Except.ok.inj h
      obtain ⟨inside, members, rfl, hinside, hfinds⟩ := of_seekMember hp
      exact ⟨members, ⟨u, inside, p.2, hu, checkEnd_eq_ok_iff.mp hend, rfl,
        isTail_first_iff.mp hinside⟩, by rw [hfinds.eq]; rfl, hfinds.isText rfl⟩
    next => simp at h
  · rintro ⟨members, ⟨u, inside, w, hu, hw, rfl, hinside⟩, rfl, htext⟩
    have hseek := seekMember_append (isTail_first_iff.mpr hinside)
      (⟨rfl, fun _ => htext⟩ : Finds key none members (members.first? key)) w
    rw [firstMember, skipSpace_append hu, skipSpace_cons rfl]
    simp only [hseek, checkEnd_eq_ok_iff.mpr hw, bind, Except.bind]

/-- What is looked up in an object is decided by its first member with the name. -/
theorem firstMember_of_isObject {document : Bytes} (h : IsObject document members) (key : String) :
    firstMember key document =
      if ∀ value ∈ members.first? key, value.isText = true then .ok (members.first? key)
      else .error .malformed := by
  split
  next htext => exact firstMember_eq_ok_iff.mpr ⟨members, h, rfl, htext⟩
  next htext =>
    obtain ⟨value, hvalue, hnot⟩ : ∃ value, members.first? key = some value ∧
        value.isText = false := by
      simpa using htext
    obtain ⟨u, inside, w, hu, -, rfl, hinside⟩ := h
    have hseek := seekMember_of_not_isText (isTail_first_iff.mpr hinside) hvalue hnot w
    rw [firstMember, skipSpace_append hu, skipSpace_cons rfl]
    simp only [hseek, bind, Except.bind]

end DeviceTrust.Json
