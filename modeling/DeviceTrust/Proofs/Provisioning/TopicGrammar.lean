import DeviceTrust.Proofs.Provisioning.FinalResult
import DeviceTrust.Proofs.Text
import Mathlib.Data.List.Basic
import Mathlib.Data.List.Induction

/-!
# The grammar of response topics

What follows the common start of response topics is cut at the first `/?` into a status and a query,
and the query at every ampersand into parameters. A topic is a response iff its numbers are numbers
and one of its parameters is a request id; everything else in its query is allowed. Any other topic
with the common start is a failure, and a topic without it is none of the client's concern.

Results:
* `cutAt?_eq_some_iff`, `cutAtAll_eq_splitOn`: how topics are cut.
* `collect_eq_some_iff`: what is collected from the parameters, by one parameter after the other.
* `readResponseTopic_grammar`: which topics are read, and what they say.
-/

namespace DeviceTrust.Provisioning

/-! ## Cutting -/

section Cutting

variable {mark text front back : List Char}

theorem cutsAt_of_cutAt? (h : cutAt? mark text = some (front, back)) :
    CutsAt mark text front back := by
  induction text generalizing front with
  | nil => cases h
  | cons c rest ih =>
    rw [cutAt?] at h
    split at h
    next hmark =>
      obtain ⟨rfl, rfl⟩ := Prod.mk.inj (Option.some.inj h)
      have hstart := List.prefix_iff_eq_append.mp (List.isPrefixOf_iff_prefix.mp hmark)
      exact ⟨hstart.symm, fun _ _ _ => Nat.zero_le _⟩
    next hmark =>
      obtain ⟨⟨front₀, back₀⟩, hcut, heq⟩ := Option.map_eq_some_iff.mp h
      obtain ⟨rfl, rfl⟩ := Prod.mk.inj heq
      have hrest := ih hcut
      refine ⟨by rw [hrest.eq, List.cons_append, List.cons_append], fun front' back' htext => ?_⟩
      cases front' with
      | nil =>
        refine absurd (List.isPrefixOf_iff_prefix.mpr ⟨back', ?_⟩) hmark
        exact htext.symm
      | cons c' front' =>
        rw [List.cons_append, List.cons_append] at htext
        exact Nat.succ_le_succ (hrest.isFirst _ _ (List.cons.inj htext).2)

theorem cutAt?_isSome (hmark : mark ≠ []) (h : mark <:+: text) : (cutAt? mark text).isSome := by
  induction text with
  | nil => exact absurd (List.infix_nil.mp h) hmark
  | cons c rest ih =>
    rw [cutAt?]
    split
    next => rfl
    next hstart =>
      rcases List.infix_cons_iff.mp h with hprefix | hrest
      · exact absurd (List.isPrefixOf_iff_prefix.mpr hprefix) hstart
      · rw [Option.isSome_map]
        exact ih hrest

theorem cutAt?_eq_some_iff (hmark : mark ≠ []) :
    cutAt? mark text = some (front, back) ↔ CutsAt mark text front back := by
  refine ⟨cutsAt_of_cutAt?, fun h => ?_⟩
  obtain ⟨⟨front', back'⟩, hcut⟩ :=
    Option.isSome_iff_exists.mp (cutAt?_isSome hmark ⟨front, back, h.eq.symm⟩)
  obtain ⟨rfl, rfl⟩ := (cutsAt_of_cutAt? hcut).unique h
  exact hcut

theorem cutAtAll_eq_splitOn (mark : Char) (text : List Char) :
    cutAtAll mark text = text.splitOn mark := by
  induction text with
  | nil => rfl
  | cons c rest ih =>
    rw [cutAtAll, ih, List.splitOn_cons_eq_if_modifyHead]
    cases hrest : rest.splitOn mark with
    | nil => exact absurd hrest (List.splitOn_ne_nil _ _)
    | cons part parts =>
      by_cases hc : c = mark
      · simp only [hc, beq_self_eq_true, ite_true]
      · simp only [hc, beq_iff_eq, ite_false, List.modifyHead_cons]

end Cutting

/-! ## Parameters -/

/-- The name of a parameter stands before its first equals sign. -/
def parameterName (parameter : List Char) : List Char :=
  parameter.takeWhile (· != '=')

/-- The value of a parameter stands behind its first equals sign. -/
def parameterValue (parameter : List Char) : List Char :=
  (parameter.dropWhile (· != '=')).drop 1

/-- The value of the last parameter with a name. -/
def lastValue? (parameters : List (List Char)) (name : String) : Option (List Char) :=
  (parameters.filter (parameterName · = name.toList)).getLast?.map parameterValue

/-- A parameter whose value is read has a number below 2³² as its value. -/
def IsReadable (parameter : List Char) : Prop :=
  parameterName parameter = "$rid".toList ∨ parameterName parameter = "retry-after".toList →
    ∃ n < UInt32.size, Decimal.IsNumber (parameterValue parameter) n

section Parameters

variable {parameters : List (List Char)} {parameter value : List Char} {name : String} {n : UInt32}

theorem splitParameter_eq (parameter : List Char) :
    splitParameter parameter = (parameterName parameter, parameterValue parameter) := by
  have hdrop : parameter.drop (parameter.takeWhile (· != '=')).length =
      parameter.dropWhile (· != '=') := by
    have h := List.prefix_iff_eq_append.mp (List.takeWhile_prefix (· != '=') (l := parameter))
    exact List.append_cancel_left (h.trans List.takeWhile_append_dropWhile.symm)
  rw [parameterName, parameterValue, ← hdrop, List.drop_drop]
  rfl

theorem readParameterValue?_eq_some_iff :
    readParameterValue? value = some n ↔ Decimal.IsNumber value n.toNat := by
  rw [readParameterValue?, Option.map_eq_some_iff]
  constructor
  · rintro ⟨k, hk, rfl⟩
    obtain ⟨hnumber, hlt⟩ := Decimal.read?_eq_some_iff.mp hk
    rwa [UInt32.toNat_ofNat_of_lt' hlt]
  · intro h
    exact ⟨n.toNat, Decimal.read?_of_isNumber h n.toNat_lt, UInt32.ofNat_toNat⟩

theorem exists_readParameterValue?_iff :
    (∃ n, readParameterValue? value = some n) ↔ ∃ n < UInt32.size, Decimal.IsNumber value n := by
  constructor
  · rintro ⟨n, hn⟩
    exact ⟨n.toNat, n.toNat_lt, readParameterValue?_eq_some_iff.mp hn⟩
  · rintro ⟨n, hlt, hn⟩
    refine ⟨UInt32.ofNat n, readParameterValue?_eq_some_iff.mpr ?_⟩
    rwa [UInt32.toNat_ofNat_of_lt' hlt]

theorem lastValue?_concat (parameters : List (List Char)) (parameter : List Char) (name : String) :
    lastValue? (parameters ++ [parameter]) name =
      if parameterName parameter = name.toList then some (parameterValue parameter)
      else lastValue? parameters name := by
  rw [lastValue?, lastValue?, List.filter_append]
  by_cases h : parameterName parameter = name.toList
  · simp [h]
  · simp [h]

theorem lastValue?_isSome_iff :
    (lastValue? parameters name).isSome ↔ ∃ p ∈ parameters, parameterName p = name.toList := by
  rw [lastValue?, Option.isSome_map, List.getLast?_isSome]
  simp

/-! ## Collecting -/

/-- What the parameters say, if all of them are readable. -/
def collected (parameters : List (List Char)) : TopicParameters where
  requestId := (lastValue? parameters "$rid").bind readParameterValue?
  retryAfter := ((lastValue? parameters "retry-after").bind readParameterValue?).getD 0

theorem collected_add (h : IsReadable parameter) :
    (collected parameters).add parameter = some (collected (parameters ++ [parameter])) := by
  rw [TopicParameters.add, splitParameter_eq, collected, collected, lastValue?_concat,
    lastValue?_concat]
  by_cases hrequestId : parameterName parameter = "$rid".toList
  · have hother : ¬parameterName parameter = "retry-after".toList := by
      rw [hrequestId]
      decide
    obtain ⟨n, hn⟩ := exists_readParameterValue?_iff.mpr (h (.inl hrequestId))
    simp only [hn, if_pos hrequestId, if_neg hother, Option.bind_some]
    rfl
  · by_cases hretryAfter : parameterName parameter = "retry-after".toList
    · obtain ⟨n, hn⟩ := exists_readParameterValue?_iff.mpr (h (.inr hretryAfter))
      simp only [hn, if_pos hretryAfter, if_neg hrequestId, Option.bind_some]
      rfl
    · simp only [if_neg hretryAfter, if_neg hrequestId]

theorem add_of_not_isReadable (h : ¬IsReadable parameter) (read : TopicParameters) :
    read.add parameter = none := by
  rw [IsReadable, Classical.not_imp, ← exists_readParameterValue?_iff] at h
  obtain ⟨hname, hvalue⟩ := h
  have hnone : readParameterValue? (parameterValue parameter) = none := by
    rw [Option.eq_none_iff_forall_ne_some]
    exact fun n hn => hvalue ⟨n, hn⟩
  rw [TopicParameters.add, splitParameter_eq]
  by_cases hrequestId : parameterName parameter = "$rid".toList
  · simp only [if_pos hrequestId, hnone]
    rfl
  · have hretryAfter := hname.resolve_left hrequestId
    simp only [if_neg hrequestId, if_pos hretryAfter, hnone]
    rfl

theorem collect_of_isReadable (h : ∀ p ∈ parameters, IsReadable p) :
    parameters.foldlM TopicParameters.add ⟨none, 0⟩ = some (collected parameters) := by
  induction parameters using List.reverseRecOn with
  | nil => rfl
  | append_singleton parameters parameter ih =>
    obtain ⟨hparameters, hparameter⟩ := List.forall_mem_append.mp h
    rw [List.foldlM_append, ih hparameters]
    show (collected parameters).add parameter >>= pure = _
    rw [bind_pure]
    exact collected_add (hparameter _ List.mem_cons_self)

theorem isReadable_of_collect {start read : TopicParameters}
    (h : parameters.foldlM TopicParameters.add start = some read) :
    ∀ p ∈ parameters, IsReadable p := by
  induction parameters generalizing start with
  | nil => exact List.forall_mem_nil _
  | cons parameter parameters ih =>
    obtain ⟨next, hnext, hrest⟩ := Option.bind_eq_some_iff.mp h
    refine List.forall_mem_cons.mpr ⟨?_, ih hrest⟩
    by_contra hparameter
    rw [add_of_not_isReadable hparameter] at hnext
    cases hnext

theorem collect_eq_some_iff {read : TopicParameters} :
    parameters.foldlM TopicParameters.add ⟨none, 0⟩ = some read ↔
      (∀ p ∈ parameters, IsReadable p) ∧ read = collected parameters := by
  constructor
  · intro h
    have hreadable := isReadable_of_collect h
    rw [collect_of_isReadable hreadable] at h
    exact ⟨hreadable, (Option.some.inj h).symm⟩
  · rintro ⟨hreadable, rfl⟩
    exact collect_of_isReadable hreadable

end Parameters

/-! ## Topics -/

/-- The status and the parameters can be read, and one of the parameters is a request id. -/
structure IsResponseForm (status : List Char) (parameters : List (List Char)) : Prop where
  status : ∃ n < UInt16.size, Decimal.IsNumber status n
  isReadable : ∀ p ∈ parameters, IsReadable p
  requestId : ∃ p ∈ parameters, parameterName p = "$rid".toList

/-- What the status and the parameters say: of a repeated parameter its last value, and no delay if
there is none. -/
structure ResponseTopic.IsOf (topic : ResponseTopic) (status : List Char)
    (parameters : List (List Char)) : Prop where
  status : Decimal.IsNumber status topic.status.toNat
  requestId : ∃ value, lastValue? parameters "$rid" = some value ∧
    Decimal.IsNumber value topic.requestId.toNat
  retryAfter : (∃ value, lastValue? parameters "retry-after" = some value ∧
      Decimal.IsNumber value topic.retryAfter.toNat) ∨
    lastValue? parameters "retry-after" = none ∧ topic.retryAfter = 0

section Topics

variable {rest status query : List Char} {parameters : List (List Char)} {topic : ResponseTopic}

theorem read?_status_eq_some_iff {n : UInt16} :
    (∃ k, Decimal.read? UInt16.size status = some k ∧ UInt16.ofNat k = n) ↔
      Decimal.IsNumber status n.toNat := by
  constructor
  · rintro ⟨k, hk, rfl⟩
    obtain ⟨hnumber, hlt⟩ := Decimal.read?_eq_some_iff.mp hk
    rwa [UInt16.toNat_ofNat_of_lt' hlt]
  · intro h
    exact ⟨n.toNat, Decimal.read?_of_isNumber h n.toNat_lt, UInt16.ofNat_toNat⟩

theorem exists_last_isNumber (hreadable : ∀ p ∈ parameters, IsReadable p) {name : String}
    {value : List Char} (hname : name = "$rid" ∨ name = "retry-after")
    (h : lastValue? parameters name = some value) :
    ∃ n, readParameterValue? value = some n := by
  rw [lastValue?, Option.map_eq_some_iff] at h
  obtain ⟨p, hlast, rfl⟩ := h
  obtain ⟨hmem, hp⟩ := List.mem_filter.mp (List.mem_of_getLast? hlast)
  rw [decide_eq_true_eq] at hp
  refine exists_readParameterValue?_iff.mpr (hreadable p hmem ?_)
  rcases hname with rfl | rfl
  · exact .inl hp
  · exact .inr hp

theorem collected_requestId_eq_iff {n : UInt32} :
    (collected parameters).requestId = some n ↔
      ∃ value, lastValue? parameters "$rid" = some value ∧ Decimal.IsNumber value n.toNat := by
  rw [collected, Option.bind_eq_some_iff]
  exact exists_congr fun value => and_congr_right fun _ => readParameterValue?_eq_some_iff

theorem collected_retryAfter_eq_iff (hreadable : ∀ p ∈ parameters, IsReadable p) {n : UInt32} :
    (collected parameters).retryAfter = n ↔
      (∃ value, lastValue? parameters "retry-after" = some value ∧
        Decimal.IsNumber value n.toNat) ∨
      lastValue? parameters "retry-after" = none ∧ n = 0 := by
  rw [collected]
  cases hlast : lastValue? parameters "retry-after" with
  | none => simp [eq_comm]
  | some value =>
    obtain ⟨k, hk⟩ := exists_last_isNumber hreadable (.inr rfl) hlast
    simp only [Option.bind_some, hk, Option.getD_some, Option.some.injEq, exists_eq_left',
      reduceCtorEq, false_and, or_false]
    rw [← readParameterValue?_eq_some_iff, hk, Option.some.injEq]

theorem readTopicRest?_of_cutsAt (h : CutsAt ['/', '?'] rest status query) :
    readTopicRest? rest = some topic ↔
      topic.IsOf status (query.splitOn '&') ∧ ∀ p ∈ query.splitOn '&', IsReadable p := by
  have hcut : cutAt? ['/', '?'] rest = some (status, query) :=
    (cutAt?_eq_some_iff (List.cons_ne_nil _ _)).mpr h
  rw [readTopicRest?, hcut]
  simp only [Option.bind_eq_bind, Option.bind_some, cutAtAll_eq_splitOn, Option.bind_eq_some_iff,
    collect_eq_some_iff]
  constructor
  · rintro ⟨k, hk, read, ⟨hreadable, rfl⟩, requestId, hrequestId, htopic⟩
    obtain rfl := Option.some.inj htopic
    exact ⟨⟨read?_status_eq_some_iff.mp ⟨k, hk, rfl⟩, collected_requestId_eq_iff.mp hrequestId,
      (collected_retryAfter_eq_iff hreadable).mp rfl⟩, hreadable⟩
  · rintro ⟨hof, hreadable⟩
    obtain ⟨k, hk, hstatus⟩ := read?_status_eq_some_iff.mpr hof.status
    refine ⟨k, hk, _, ⟨hreadable, rfl⟩, _, collected_requestId_eq_iff.mpr hof.requestId, ?_⟩
    rw [(collected_retryAfter_eq_iff hreadable).mpr hof.retryAfter, hstatus]
    rfl

theorem exists_isOf_iff :
    (∃ topic : ResponseTopic, topic.IsOf status parameters ∧ ∀ p ∈ parameters, IsReadable p) ↔
      IsResponseForm status parameters := by
  constructor
  · rintro ⟨topic, hof, hreadable⟩
    refine ⟨⟨_, topic.status.toNat_lt, hof.status⟩, hreadable, ?_⟩
    obtain ⟨value, hvalue, -⟩ := hof.requestId
    exact lastValue?_isSome_iff.mp (hvalue ▸ rfl)
  · rintro ⟨⟨status, hlt, hstatus⟩, hreadable, hrequestId⟩
    obtain ⟨value, hvalue⟩ := Option.isSome_iff_exists.mp (lastValue?_isSome_iff.mpr hrequestId)
    obtain ⟨requestId, hnumber⟩ := exists_last_isNumber hreadable (.inl rfl) hvalue
    refine ⟨⟨UInt16.ofNat status, requestId, (collected parameters).retryAfter⟩, ⟨?_, ?_, ?_⟩,
      hreadable⟩
    · rwa [UInt16.toNat_ofNat_of_lt' hlt]
    · exact ⟨value, hvalue, readParameterValue?_eq_some_iff.mp hnumber⟩
    · exact (collected_retryAfter_eq_iff hreadable).mp rfl

theorem readTopicRest?_of_no_mark (h : ¬['/', '?'] <:+: rest) : readTopicRest? rest = none := by
  have hnone : cutAt? ['/', '?'] rest = none := by
    rw [Option.eq_none_iff_forall_ne_some]
    intro parts hparts
    exact h ⟨_, _, (cutsAt_of_cutAt? hparts).eq.symm⟩
  rw [readTopicRest?, hnone]
  rfl

theorem exists_readTopicRest?_iff :
    (∃ topic, readTopicRest? rest = some topic) ↔
      ∃ status query, CutsAt ['/', '?'] rest status query ∧
        IsResponseForm status (query.splitOn '&') := by
  constructor
  · rintro ⟨topic, htopic⟩
    by_cases hinfix : ['/', '?'] <:+: rest
    · obtain ⟨⟨status, query⟩, hcut⟩ := Option.isSome_iff_exists.mp
        (cutAt?_isSome (List.cons_ne_nil _ _) hinfix)
      have hcut := cutsAt_of_cutAt? hcut
      have hform := exists_isOf_iff.mp ⟨topic, (readTopicRest?_of_cutsAt hcut).mp htopic⟩
      exact ⟨status, query, hcut, hform⟩
    · rw [readTopicRest?_of_no_mark hinfix] at htopic
      cases htopic
  · rintro ⟨status, query, hcut, hform⟩
    obtain ⟨topic, htopic⟩ := exists_isOf_iff.mpr hform
    exact ⟨topic, (readTopicRest?_of_cutsAt hcut).mpr htopic⟩

theorem readResponseTopic_of_rest {topic : String}
    (h : topic.toList = responseTopicStart.toList ++ rest) :
    readResponseTopic topic = match readTopicRest? rest with
      | some topic => .ok (some topic)
      | none => .error .failed := by
  have hrest : responseTopicStart.toList.isPrefixOf? topic.toList = some rest :=
    List.isPrefixOf?_eq_some_iff_append_eq.mpr h.symm
  cases htopic : readTopicRest? rest with
  | none => simp only [readResponseTopic, hrest, htopic]
  | some topic => simp only [readResponseTopic, hrest, htopic]

theorem readResponseTopic_eq_ok_none_iff {topic : String} :
    readResponseTopic topic = .ok none ↔ ¬responseTopicStart.toList <+: topic.toList := by
  constructor
  · rintro h ⟨rest, hrest⟩
    rw [readResponseTopic_of_rest hrest.symm] at h
    split at h <;> cases h
  · intro h
    have hnone : responseTopicStart.toList.isPrefixOf? topic.toList = none := by
      rw [Option.eq_none_iff_forall_ne_some]
      intro rest hrest
      exact h ⟨rest, List.isPrefixOf?_eq_some_iff_append_eq.mp hrest⟩
    rw [readResponseTopic, hnone]

theorem readResponseTopic_eq_ok_some_iff {text : String}
    (h : text.toList = responseTopicStart.toList ++ rest) :
    readResponseTopic text = .ok (some topic) ↔ readTopicRest? rest = some topic := by
  rw [readResponseTopic_of_rest h]
  cases readTopicRest? rest <;> simp

end Topics

/-! ## Written topics -/

section Written

variable {name : List Char}

theorem bne_of_notMem (h : '=' ∉ name) : ∀ c ∈ name, (c != '=') = true := by
  intro c hc
  rw [bne_iff_ne]
  rintro rfl
  exact h hc

theorem parameterName_append (h : '=' ∉ name) (value : List Char) :
    parameterName (name ++ '=' :: value) = name := by
  rw [parameterName, List.takeWhile_append_of_pos (bne_of_notMem h),
    List.takeWhile_cons_of_neg (by decide), List.append_nil]

theorem parameterValue_append (h : '=' ∉ name) (value : List Char) :
    parameterValue (name ++ '=' :: value) = value := by
  rw [parameterValue, List.dropWhile_append_of_pos (bne_of_notMem h),
    List.dropWhile_cons_of_neg (by decide)]
  rfl

/-- A parameter with a number as its value, in decimal. -/
def numberParameter (name : String) (n : UInt32) : List Char :=
  name.toList ++ '=' :: (toString n.toNat).toList

theorem isReadable_numberParameter {name : String} (hname : '=' ∉ name.toList) (n : UInt32) :
    IsReadable (numberParameter name n) := by
  intro _
  rw [numberParameter, parameterValue_append hname]
  exact ⟨n.toNat, n.toNat_lt, Decimal.isNumber_toString _⟩

theorem notMem_numberParameter {name : String} (hname : '&' ∉ name.toList) (n : UInt32) :
    '&' ∉ numberParameter name n := by
  rw [numberParameter, List.mem_append, List.mem_cons]
  rintro (h | h | h)
  · exact hname h
  · exact absurd h (by decide)
  · exact Decimal.notMem_toString (by decide) _ h

theorem lastValue?_numberParameter {name : String} (hname : '=' ∉ name.toList) (n : UInt32)
    (parameters : List (List Char)) (key : String) :
    lastValue? (parameters ++ [numberParameter name n]) key =
      if name = key then some (toString n.toNat).toList else lastValue? parameters key := by
  rw [lastValue?_concat, numberParameter, parameterName_append hname, parameterValue_append hname]
  simp only [String.toList_inj]

/-- A topic is written as its status, and its parameters with ampersands between them. -/
theorem readResponseTopic_of_written {text : String} {topic : ResponseTopic}
    {parameters : List (List Char)} (htext : text.toList = responseTopicStart.toList ++
      ((toString topic.status.toNat).toList ++ ['/', '?'] ++ ['&'].intercalate parameters))
    (hne : parameters ≠ []) (hmark : ∀ p ∈ parameters, '&' ∉ p)
    (hreadable : ∀ p ∈ parameters, IsReadable p)
    (hof : topic.IsOf (toString topic.status.toNat).toList parameters) :
    readResponseTopic text = .ok (some topic) := by
  have hsplit : (['&'].intercalate parameters).splitOn '&' = parameters :=
    List.splitOn_intercalate '&' hmark hne
  have hcut : CutsAt ['/', '?'] _ (toString topic.status.toNat).toList
      (['&'].intercalate parameters) := cutsAt_of_notMem (Decimal.notMem_toString (by decide) _)
  rw [readResponseTopic_eq_ok_some_iff htext, readTopicRest?_of_cutsAt hcut, hsplit]
  exact ⟨hof, hreadable⟩

theorem rid_toList : "/?$rid=".toList = ['/', '?'] ++ ("$rid".toList ++ ['=']) := rfl

theorem retryAfter_toList :
    "&retry-after=".toList = ['&'] ++ ("retry-after".toList ++ ['=']) := rfl

theorem readResponseTopic_requestId (status : UInt16) (requestId : UInt32) :
    readResponseTopic (responseTopicStart ++ toString status.toNat ++ "/?$rid=" ++
      toString requestId.toNat) = .ok (some ⟨status, requestId, 0⟩) := by
  have hlast (key : String) : lastValue? [numberParameter "$rid" requestId] key = _ :=
    lastValue?_numberParameter (by decide) requestId [] key
  refine @readResponseTopic_of_written _ _ [numberParameter "$rid" requestId] ?_
    (List.cons_ne_nil _ _) ?_ ?_ ⟨Decimal.isNumber_toString _, ?_, ?_⟩
  · simp only [String.toList_append, rid_toList, numberParameter, List.intercalate_singleton,
      List.append_assoc, List.cons_append, List.nil_append]
  · exact List.forall_mem_singleton.mpr (notMem_numberParameter (by decide) _)
  · exact List.forall_mem_singleton.mpr (isReadable_numberParameter (by decide) _)
  · exact ⟨_, hlast "$rid", Decimal.isNumber_toString _⟩
  · exact .inr ⟨hlast "retry-after", rfl⟩

theorem readResponseTopic_render (topic : ResponseTopic) :
    readResponseTopic topic.render = .ok (some topic) := by
  have hfirst (key : String) : lastValue? [numberParameter "$rid" topic.requestId] key = _ :=
    lastValue?_numberParameter (by decide) topic.requestId [] key
  have hlast (key : String) : lastValue? [numberParameter "$rid" topic.requestId,
      numberParameter "retry-after" topic.retryAfter] key = _ :=
    lastValue?_numberParameter (by decide) topic.retryAfter
      [numberParameter "$rid" topic.requestId] key
  refine @readResponseTopic_of_written _ _ [numberParameter "$rid" topic.requestId,
    numberParameter "retry-after" topic.retryAfter] ?_ (List.cons_ne_nil _ _) ?_ ?_
    ⟨Decimal.isNumber_toString _, ?_, ?_⟩
  · simp only [ResponseTopic.render, String.toList_append, rid_toList, retryAfter_toList,
      numberParameter, List.intercalate_cons_cons, List.intercalate_singleton, List.append_assoc,
      List.cons_append, List.nil_append]
  · exact List.forall_mem_cons.mpr ⟨notMem_numberParameter (by decide) _,
      List.forall_mem_singleton.mpr (notMem_numberParameter (by decide) _)⟩
  · exact List.forall_mem_cons.mpr ⟨isReadable_numberParameter (by decide) _,
      List.forall_mem_singleton.mpr (isReadable_numberParameter (by decide) _)⟩
  · exact ⟨_, (hlast "$rid").trans (hfirst "$rid"), Decimal.isNumber_toString _⟩
  · exact .inl ⟨_, hlast "retry-after", Decimal.isNumber_toString _⟩

end Written

/-! ## All topics -/

/-- Which topics are read, and what they say. A topic without the common start is none; a topic with
it is a response iff what follows is cut at the first `/?` into a status and parameters of this form.
It says what its status says, and the last of the parameters with each name. Every other topic is a
failure. The topics that the service writes give their numbers back. -/
theorem readResponseTopic_grammar (text : String) :
    (readResponseTopic text = .ok none ↔ ¬"$dps/registrations/res/".toList <+: text.toList) ∧
    (∀ rest, text.toList = "$dps/registrations/res/".toList ++ rest →
      ((∃ topic, readResponseTopic text = .ok (some topic)) ↔
        ∃ status query, CutsAt ['/', '?'] rest status query ∧
          IsResponseForm status (query.splitOn '&')) ∧
      ∀ status query topic, CutsAt ['/', '?'] rest status query →
        readResponseTopic text = .ok (some topic) → topic.IsOf status (query.splitOn '&')) ∧
    (∀ failure, readResponseTopic text = .error failure → failure = .failed) ∧
    ∀ (status : UInt16) (requestId retryAfter : UInt32),
      readResponseTopic ("$dps/registrations/res/" ++ toString status.toNat ++ "/?$rid=" ++
          toString requestId.toNat) = .ok (some ⟨status, requestId, 0⟩) ∧
        readResponseTopic ("$dps/registrations/res/" ++ toString status.toNat ++ "/?$rid=" ++
          toString requestId.toNat ++ "&retry-after=" ++ toString retryAfter.toNat) =
            .ok (some ⟨status, requestId, retryAfter⟩) := by
  refine ⟨readResponseTopic_eq_ok_none_iff, fun rest htext => ⟨?_, ?_⟩,
    fun failure => readResponseTopic_error, fun status requestId retryAfter => ⟨?_, ?_⟩⟩
  · simp only [readResponseTopic_eq_ok_some_iff htext]
    exact exists_readTopicRest?_iff
  · intro status query topic hcut htopic
    rw [readResponseTopic_eq_ok_some_iff htext] at htopic
    exact ((readTopicRest?_of_cutsAt hcut).mp htopic).1
  · exact readResponseTopic_requestId status requestId
  · exact readResponseTopic_render ⟨status, requestId, retryAfter⟩

/-- A topic with a plus sign and a leading zero, other parameters, an empty one, a second `/?`, and a
request id that is repeated. -/
theorem readResponseTopic_grammar_repeated :
    ∃ (text : String) (rest query : List Char),
      text.toList = "$dps/registrations/res/".toList ++ rest ∧
      CutsAt ['/', '?'] rest "+0202".toList query ∧
      readResponseTopic text = .ok (some ⟨202, 1, 3⟩) ∧
      IsResponseForm "+0202".toList (query.splitOn '&') ∧
      ResponseTopic.IsOf ⟨202, 1, 3⟩ "+0202".toList (query.splitOn '&') := by
  let text := "$dps/registrations/res/+0202/?a=b&$rid=7&&retry-after=03&$rid=1&c/?d"
  let query := "a=b&$rid=7&&retry-after=03&$rid=1&c/?d".toList
  have htext : text.toList = "$dps/registrations/res/".toList ++
      ("+0202".toList ++ ['/', '?'] ++ query) := by decide
  have hcut : CutsAt ['/', '?'] ("+0202".toList ++ ['/', '?'] ++ query) "+0202".toList query :=
    cutsAt_of_notMem (by decide)
  have hread : readResponseTopic text = .ok (some ⟨202, 1, 3⟩) := by decide +kernel
  obtain ⟨-, hgrammar, -⟩ := readResponseTopic_grammar text
  obtain ⟨hform, hof⟩ := hgrammar _ htext
  obtain ⟨status, query', hcut', hform'⟩ := hform.mp ⟨_, hread⟩
  obtain ⟨rfl, rfl⟩ := hcut.unique hcut'
  exact ⟨text, _, query, htext, hcut, hread, hform', hof _ _ _ hcut hread⟩

end DeviceTrust.Provisioning
