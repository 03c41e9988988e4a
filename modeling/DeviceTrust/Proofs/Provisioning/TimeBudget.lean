import DeviceTrust.Proofs.Provisioning.CallOrder
import Mathlib.Algebra.GroupWithZero.Nat

/-!
# The time of a registration

A registration divides its time into waits: full ones, and one for what is left. In every turn it runs
one action and then sends and receives for one of these waits. It makes use of all of them unless the
workflow completes before, and it waits for nothing else, so it never waits for longer than its time.
A registration without any time still takes a turn, with a wait of zero.

None of this depends on the unit of the times.

Results:
* `budget_of_le`, `budget_of_lt`, `sum_budget`: how a time is divided.
* `waits_turnMoments`: the wait of one turn.
* `Session.exists_spends`: what any number of turns does and waits for.
* `Session.time_budget`: the waits of every registration.
-/

namespace DeviceTrust.Provisioning

/-! ## Waits -/

/-- The waits that a time is divided into, none longer than `limit`. -/
def budget (limit time : Nat) : List Nat :=
  if time = 0 then [0]
  else List.replicate (time / limit) limit ++ if time % limit = 0 then [] else [time % limit]

/-- The timeout that sending and receiving is given. -/
def Call.wait? : Call → Option Nat
  | .processLoop timeout => some timeout
  | .connect _ | .subscribe _ _ | .publish _ _ _ => none

/-- The timeouts that sending and receiving is given, in order. -/
def waits (calls : List Call) : List Nat :=
  calls.filterMap Call.wait?

section Budget

variable {limit time : Nat}

/-- A time that is short enough is one wait. -/
theorem budget_of_le (h : time ≤ limit) : budget limit time = [time] := by
  unfold budget
  split
  next hzero => rw [hzero]
  next hpos =>
    rcases Nat.lt_or_eq_of_le h with hlt | rfl
    · rw [Nat.div_eq_of_lt hlt, Nat.mod_eq_of_lt hlt, if_neg hpos]
      rfl
    · rw [Nat.div_self (Nat.pos_of_ne_zero hpos), Nat.mod_self, if_pos rfl]
      rfl

/-- The first wait of a longer time is a full one. -/
theorem budget_of_lt (hlimit : 0 < limit) (h : limit < time) :
    budget limit time = limit :: budget limit (time - limit) := by
  have hpos : time ≠ 0 := Nat.ne_of_gt (Nat.zero_lt_of_lt h)
  have hrest : time - limit ≠ 0 := Nat.ne_of_gt (Nat.sub_pos_of_lt h)
  have htime : time = (time - limit) + limit := (Nat.sub_add_cancel (Nat.le_of_lt h)).symm
  have hdiv : time / limit = (time - limit) / limit + 1 := by
    rw [htime, Nat.add_div_right _ hlimit, Nat.add_sub_cancel]
  have hmod : time % limit = (time - limit) % limit := by
    rw [htime, Nat.add_mod_right, Nat.add_sub_cancel]
  rw [budget, if_neg hpos, hdiv, hmod, List.replicate_succ, List.cons_append, budget, if_neg hrest]

/-- The waits add up to the time. -/
theorem sum_budget (limit time : Nat) : (budget limit time).sum = time := by
  unfold budget
  split
  next hzero =>
    rw [hzero]
    rfl
  next =>
    rw [List.sum_append_nat, List.sum_replicate_nat]
    have hdiv := Nat.div_add_mod' time limit
    split
    next hmod =>
      rw [hmod] at hdiv
      exact hdiv
    next => simpa using hdiv

/-- No wait is longer than the limit. -/
theorem le_of_mem_budget (hlimit : 0 < limit) {wait : Nat} (h : wait ∈ budget limit time) :
    wait ≤ limit := by
  unfold budget at h
  split at h
  next =>
    rw [List.mem_singleton.mp h]
    exact Nat.zero_le limit
  next =>
    rcases List.mem_append.mp h with h | h
    · exact Nat.le_of_eq (List.eq_of_mem_replicate h)
    · split at h
      next => cases h
      next =>
        rw [List.mem_singleton.mp h]
        exact Nat.le_of_lt (Nat.mod_lt time hlimit)

end Budget

theorem waits_append (before after : List Call) :
    waits (before ++ after) = waits before ++ waits after :=
  List.filterMap_append

/-! ## Turns -/

section Turns

variable {σ : Type} {host : Host σ} {s t : Session σ}

/-- From one session to another by turns: before each wait one action is run, and nothing else is done.
An action that completes the workflow is the last thing that is done. -/
inductive Session.Alternates (host : Host σ) : Session σ → List Nat → Session σ → Prop where
  | stop (s : Session σ) : Alternates host s [] s
  | last {s : Session σ} (hopen : s.client.state ≠ .complete)
      (hcomplete : (s.act host).client.state = .complete) : Alternates host s [] (s.act host)
  | turn {s t : Session σ} {wait : Nat} {waits : List Nat} (hopen : s.client.state ≠ .complete)
      (hact : (s.act host).client.state ≠ .complete)
      (h : Alternates host ((s.act host).process host wait) waits t) :
      Alternates host s (wait :: waits) t

theorem waits_actMoments (s : Session σ) (host : Host σ) :
    waits (calls (s.actMoments host)) = [] := by
  rw [calls_actMoments, waits, List.filterMap_eq_nil_iff]
  intro call hcall
  cases call with
  | processLoop timeout => exact absurd rfl ((calls_actCall? s host).2 _ hcall timeout)
  | connect | subscribe | publish => rfl

/-- A turn waits once, if its action does not complete the workflow. -/
theorem waits_turnMoments (s : Session σ) (host : Host σ) (wait : Nat) :
    waits (calls (s.turnMoments host wait)) =
      if (s.act host).client.state = .complete then [] else [wait] := by
  rw [Session.turnMoments, calls_append, waits_append, waits_actMoments, List.nil_append]
  split
  next => rfl
  next =>
    rw [calls_processMoments]
    rfl

theorem Client.outcome_eq_pending_iff {c : Client} :
    c.outcome = .ok .pending ↔ c.state ≠ .complete := by
  unfold outcome
  split
  next hstate => exact ⟨fun _ => hstate, fun _ => rfl⟩
  next hstate =>
    rw [not_not] at hstate
    cases c.lastResult <;> simp [hstate]

namespace Session

/-- A turn whose action does not complete the workflow sends and receives. -/
theorem tick_of_act_open (hact : (s.act host).client.state ≠ .complete) (wait : Nat) :
    s.tick host wait = (s.act host).process host wait ∧
      waits (calls (s.turnMoments host wait)) = [wait] := by
  rw [waits_turnMoments, if_neg hact]
  exact ⟨if_neg hact, rfl⟩

variable {time limit : Nat} {hlimit : 0 < limit} {made : List Call}

theorem run_complete (hstate : s.client.state = .complete) : s.run host time limit hlimit = s := by
  rw [run, if_pos hstate]

theorem run_of_le (hopen : s.client.state ≠ .complete) (hle : time ≤ limit) :
    s.run host time limit hlimit = s.tick host time := by
  rw [run, if_neg hopen, if_pos hle, Nat.min_eq_left hle]

theorem run_of_lt (hopen : s.client.state ≠ .complete) (hlt : limit < time) :
    s.run host time limit hlimit = (s.tick host limit).run host (time - limit) limit hlimit := by
  rw [run, if_neg hopen, if_neg (Nat.not_le_of_lt hlt), Nat.min_eq_right (Nat.le_of_lt hlt)]

theorem run_of_tick_complete (hopen : s.client.state ≠ .complete)
    (htick : ∀ wait, (s.tick host wait).client.state = .complete) :
    ∃ wait, s.run host time limit hlimit = s.tick host wait := by
  rcases Nat.lt_or_ge limit time with hlt | hle
  · exact ⟨limit, (run_of_lt hopen hlt).trans (run_complete (htick limit))⟩
  · exact ⟨time, run_of_le hopen hle⟩

/-- What the turns of a time do, and how much of the time they wait for: a part of its budget, and all
of it if they do not complete the workflow. The calls that they make are `made`. -/
structure Spends (s : Session σ) (host : Host σ) (time limit : Nat) (hlimit : 0 < limit)
    (made : List Call) : Prop where
  recorded : ∀ log, (s.beside log).run host.recorded time limit hlimit =
    (s.run host time limit hlimit).beside (made.reverse ++ log)
  alternates : s.Alternates host (waits made) (s.run host time limit hlimit)
  isPrefix : waits made <+: budget limit time
  eq_of_open : (s.run host time limit hlimit).client.state ≠ .complete →
    waits made = budget limit time

theorem spends_of_complete (hstate : s.client.state = .complete) :
    s.Spends host time limit hlimit [] := by
  have hrun : s.run host time limit hlimit = s := run_complete hstate
  refine ⟨fun log => ?_, ?_, List.nil_prefix, ?_⟩
  · rw [hrun]
    exact run_complete hstate
  · rw [hrun]
    exact .stop s
  · rw [hrun]
    exact fun hopen => absurd hstate hopen

/-- A turn whose action completes the workflow is the last one, and does not wait. -/
theorem spends_of_act_complete (hopen : s.client.state ≠ .complete)
    (hact : (s.act host).client.state = .complete) :
    s.Spends host time limit hlimit (calls (s.actMoments host)) := by
  have htick (wait : Nat) : s.tick host wait = s.act host := if_pos hact
  have hrecorded (log : List Call) (wait : Nat) : (s.beside log).tick host.recorded wait =
      (s.act host).beside ((calls (s.actMoments host)).reverse ++ log) := by
    rw [tick_recorded, htick, turnMoments, if_pos hact, List.append_nil]
  obtain ⟨wait, hrun⟩ : ∃ wait, s.run host time limit hlimit = s.tick host wait :=
    run_of_tick_complete hopen fun wait => by rwa [htick]
  rw [htick] at hrun
  refine ⟨fun log => ?_, ?_, ?_, ?_⟩
  · obtain ⟨wait', hrun'⟩ : ∃ wait, (s.beside log).run host.recorded time limit hlimit =
        (s.beside log).tick host.recorded wait :=
      run_of_tick_complete hopen fun wait => by rw [hrecorded]; exact hact
    rw [hrun', hrecorded, hrun]
  · rw [hrun, waits_actMoments]
    exact .last hopen hact
  · rw [waits_actMoments]
    exact List.nil_prefix
  · rw [hrun]
    exact fun hopen => absurd hact hopen

/-- The only turn of a short time. -/
theorem spends_of_le (hopen : s.client.state ≠ .complete)
    (hact : (s.act host).client.state ≠ .complete) (hle : time ≤ limit) :
    s.Spends host time limit hlimit (calls (s.turnMoments host time)) := by
  obtain ⟨htick, hwaits⟩ := tick_of_act_open hact time
  have hrun : s.run host time limit hlimit = s.tick host time := run_of_le hopen hle
  have hall := hwaits.trans (budget_of_le hle).symm
  refine ⟨fun log => ?_, ?_, ⟨[], (List.append_nil _).trans hall⟩, fun _ => hall⟩
  · rw [hrun, ← tick_recorded]
    exact run_of_le hopen hle
  · rw [hrun, htick, hwaits]
    exact .turn hopen hact (.stop _)

/-- The first turn of a longer time, before the others. -/
theorem spends_of_lt (hopen : s.client.state ≠ .complete)
    (hact : (s.act host).client.state ≠ .complete) (hlt : limit < time)
    (hnext : (s.tick host limit).Spends host (time - limit) limit hlimit made) :
    s.Spends host time limit hlimit (calls (s.turnMoments host limit) ++ made) := by
  obtain ⟨htick, hwaits⟩ := tick_of_act_open hact limit
  have hrun : s.run host time limit hlimit =
      (s.tick host limit).run host (time - limit) limit hlimit := run_of_lt hopen hlt
  have hbudget := budget_of_lt hlimit hlt
  refine ⟨fun log => ?_, ?_, ?_, fun hlast => ?_⟩
  · rw [hrun, List.reverse_append, List.append_assoc, ← hnext.recorded, ← tick_recorded]
    exact run_of_lt hopen hlt
  · rw [hrun, waits_append, hwaits]
    exact .turn hopen hact (htick ▸ hnext.alternates)
  · rw [waits_append, hwaits, hbudget]
    exact List.cons_prefix_cons.mpr ⟨rfl, hnext.isPrefix⟩
  · rw [hrun] at hlast
    rw [waits_append, hwaits, hbudget, hnext.eq_of_open hlast]
    rfl

/-- The turns of any time, by the time that is left. -/
theorem exists_spends (s : Session σ) (host : Host σ) (time limit : Nat) (hlimit : 0 < limit) :
    ∃ made, s.Spends host time limit hlimit made := by
  induction time using Nat.strongRecOn generalizing s with
  | ind time ih =>
    by_cases hstate : s.client.state = .complete
    · exact ⟨_, spends_of_complete hstate⟩
    by_cases hact : (s.act host).client.state = .complete
    · exact ⟨_, spends_of_act_complete hstate hact⟩
    rcases Nat.lt_or_ge limit time with hlt | hle
    · have hshorter : time - limit < time := Nat.sub_lt (Nat.zero_lt_of_lt hlt) hlimit
      obtain ⟨made, hnext⟩ := ih (time - limit) hshorter (s.tick host limit)
      exact ⟨_, spends_of_lt hstate hact hlt hnext⟩
    · exact ⟨_, spends_of_le hstate hact hle⟩

/-- The time of a registration, whatever its client and its host are, and in whatever unit: a
millisecond has `unit` of them. It makes some calls, which are those that a host is told that keeps its
calls, and it runs one action before each wait. The waits are the timeouts of its calls that send and
receive. They are a part of the budget of the timeout, and all of it if the registration is still pending
afterwards; so none is longer than 500 milliseconds, and together they are not longer than the
timeout. -/
theorem time_budget (s : Session σ) (host : Host σ) (timeout : Nat) {unit : Nat}
    (hunit : 0 < 500 * unit) :
    let result := s.register host timeout (500 * unit) hunit
    ∃ made, (∀ log, (s.beside log).register host.recorded timeout (500 * unit) hunit =
        (result.1, result.2.beside (made.reverse ++ log))) ∧
      s.start.Alternates host (waits made) result.2 ∧
      waits made <+: budget (500 * unit) timeout ∧
      (result.1 = .ok .pending → waits made = budget (500 * unit) timeout) ∧
      (∀ wait ∈ waits made, wait ≤ 500 * unit) ∧ (waits made).sum ≤ timeout := by
  intro result
  obtain ⟨made, hspends⟩ := s.start.exists_spends host timeout (500 * unit) hunit
  refine ⟨made, ?_, hspends.alternates, hspends.isPrefix, ?_, ?_, ?_⟩
  · intro log
    have hrun := hspends.recorded log
    rw [← start_beside] at hrun
    rw [register, hrun]
    rfl
  · intro hpending
    exact hspends.eq_of_open (Client.outcome_eq_pending_iff.mp hpending)
  · intro wait hwait
    exact le_of_mem_budget hunit (hspends.isPrefix.subset hwait)
  · obtain ⟨rest, hrest⟩ := hspends.isPrefix
    have hsum := congrArg List.sum hrest
    rw [List.sum_append_nat, sum_budget] at hsum
    exact Nat.le_of_add_right_le (Nat.le_of_eq hsum)

/-- A registration of 1200 milliseconds that is still pending afterwards. -/
theorem time_budget_pending : ∃ (s : Session Script) (made : List Call),
    (s.register .scripted 1200).1 = .ok .pending ∧
    ((s.beside []).register Host.scripted.recorded 1200).2.outside.2 = made.reverse ∧
    waits made = [500, 500, 200] := by
  let s : Session Script := .scripted []
  have hopen : (s.register .scripted 1200).2.client.state ≠ .complete := by
    decide +kernel
  have hpending : (s.register .scripted 1200).1 = .ok .pending :=
    Client.outcome_eq_pending_iff.mpr hopen
  obtain ⟨made, hrecorded, -, -, hwaits, -⟩ :=
    s.time_budget .scripted 1200 (by decide : 0 < 500 * 1)
  refine ⟨s, made, hpending, ?_, hwaits hpending⟩
  exact (congrArg (fun result => result.2.outside.2) (hrecorded [])).trans (List.append_nil _)

end Session

end Turns

end DeviceTrust.Provisioning
