import DeviceTrust.Proofs.Provisioning.CustomPayload

/-!
# Timeouts can be split

A registration hands out its time turn by turn, and nothing of it is kept between two registrations.
So a registration whose time is a number of full turns can be followed by another one, and the two
are the registration for both times together. The time of the second one must not be zero: as every
registration takes a turn, it would take one more.

Results:
* `Session.run_fullTurn`, `Session.run_fullTurns`: full turns come first.
* `Session.register_fullTurns`: the same for registrations, as none starts the workflow anew.
* `Session.register_split`: two registrations and the one for both times.
-/

namespace DeviceTrust.Provisioning

namespace Session

variable {σ : Type} {time limit : Nat}

/-- A full turn is the first one of a longer time. -/
theorem run_fullTurn (s : Session σ) (host : Host σ) (hlimit : 0 < limit) (htime : 0 < time) :
    s.run host (limit + time) limit hlimit =
      (s.run host limit limit hlimit).run host time limit hlimit ∧
    s.runMoments host (limit + time) limit hlimit = s.runMoments host limit limit hlimit ++
      (s.run host limit limit hlimit).runMoments host time limit hlimit := by
  by_cases hstate : s.client.state = .complete
  · have hdone (time : Nat) : s.run host time limit hlimit = s ∧
        s.runMoments host time limit hlimit = [] := run_of_complete hstate host time
    rw [(hdone limit).1, (hdone limit).2, (hdone (limit + time)).1, (hdone (limit + time)).2,
      (hdone time).1, (hdone time).2]
    exact ⟨rfl, rfl⟩
  · have hlonger : ¬limit + time ≤ limit := by omega
    have hwait : min (limit + time) limit = limit := by omega
    have hturn : s.run host limit limit hlimit = s.tick host limit := by
      rw [run, if_neg hstate, Nat.min_self, if_pos (Nat.le_refl _)]
    have hmoments : s.runMoments host limit limit hlimit = s.turnMoments host limit := by
      rw [runMoments, if_neg hstate, Nat.min_self, if_pos (Nat.le_refl _), List.append_nil]
    rw [hturn, hmoments]
    constructor
    · rw [run, if_neg hstate, hwait, if_neg hlonger, Nat.add_sub_cancel_left]
    · rw [runMoments, if_neg hstate, hwait, if_neg hlonger, Nat.add_sub_cancel_left]

/-- Full turns are the first ones of a longer time. -/
theorem run_fullTurns (s : Session σ) (host : Host σ) (hlimit : 0 < limit) {turns : Nat}
    (hturns : 1 ≤ turns) (htime : 0 < time) :
    s.run host (turns * limit + time) limit hlimit =
      (s.run host (turns * limit) limit hlimit).run host time limit hlimit ∧
    s.runMoments host (turns * limit + time) limit hlimit =
      s.runMoments host (turns * limit) limit hlimit ++
        (s.run host (turns * limit) limit hlimit).runMoments host time limit hlimit := by
  induction turns, hturns using Nat.le_induction generalizing s with
  | base =>
    rw [Nat.one_mul]
    exact s.run_fullTurn host hlimit htime
  | succ turns hturns ih =>
    have hsum : (turns + 1) * limit = limit + turns * limit := by
      rw [Nat.add_mul, Nat.one_mul, Nat.add_comm]
    have hpos : 0 < turns * limit := Nat.mul_pos hturns hlimit
    obtain ⟨hrun, hmoments⟩ := s.run_fullTurn host hlimit hpos
    obtain ⟨hlonger, hlongerMoments⟩ := s.run_fullTurn host hlimit (Nat.add_pos_left hpos time)
    obtain ⟨hlater, hlaterMoments⟩ := ih (s.run host limit limit hlimit)
    rw [hsum, Nat.add_assoc, hrun, hmoments, hlonger, hlongerMoments, hlater, hlaterMoments]
    exact ⟨rfl, (List.append_assoc _ _ _).symm⟩

/-- A workflow that has been started is not started again. -/
theorem start_of_register (s : Session σ) (host : Host σ) (timeout : Nat) (hlimit : 0 < limit) :
    (s.register host timeout limit hlimit).2.start = (s.register host timeout limit hlimit).2 :=
  if_neg (s.register_reaches host timeout limit hlimit).payload_eq.1

/-- Full turns and the rest of a longer time can be left to two registrations. -/
theorem register_fullTurns (s : Session σ) (host : Host σ) (hlimit : 0 < limit) {turns : Nat}
    (hturns : 1 ≤ turns) (htime : 0 < time) :
    (s.register host (turns * limit) limit hlimit).2.register host time limit hlimit =
      s.register host (turns * limit + time) limit hlimit ∧
    s.registerMoments host (turns * limit) limit hlimit ++
        (s.register host (turns * limit) limit hlimit).2.registerMoments host time limit hlimit =
      s.registerMoments host (turns * limit + time) limit hlimit := by
  obtain ⟨hrun, hmoments⟩ := s.start.run_fullTurns host hlimit hturns htime
  rw [register, registerMoments, registerMoments, start_of_register]
  constructor
  · exact congrArg (fun t : Session σ => (t.client.outcome, t)) hrun.symm
  · exact hmoments.symm

/-- A registration for some full turns, followed by one for a time that is not zero, is the
registration for both times together: the second one gives its answer and leaves its session, and
what happens in the two of them happens in the one. The same holds with a host that keeps its calls,
so these are the same in the same order. The times are in any unit: a millisecond has `unit` of
them. -/
theorem register_split (s : Session σ) (host : Host σ) {turns timeout unit : Nat}
    (hturns : 1 ≤ turns) (htimeout : 0 < timeout) (hunit : 0 < 500 * unit) :
    let full := turns * (500 * unit)
    (s.register host full (500 * unit) hunit).2.register host timeout (500 * unit) hunit =
      s.register host (full + timeout) (500 * unit) hunit ∧
    s.registerMoments host full (500 * unit) hunit ++
        (s.register host full (500 * unit) hunit).2.registerMoments host timeout (500 * unit) hunit =
      s.registerMoments host (full + timeout) (500 * unit) hunit ∧
    ∀ log, ((s.beside log).register host.recorded full (500 * unit) hunit).2.register host.recorded
        timeout (500 * unit) hunit =
      (s.beside log).register host.recorded (full + timeout) (500 * unit) hunit := by
  obtain ⟨hregister, hmoments⟩ := s.register_fullTurns host hunit hturns htimeout
  exact ⟨hregister, hmoments, fun log =>
    ((s.beside log).register_fullTurns host.recorded hunit hturns htimeout).1⟩

/-- A registration of one second and then one of 700 milliseconds: the device is assigned in the
fourth turn, as it is in 1700 milliseconds. -/
theorem register_split_assigned : ∃ s : Session Script,
    (s.register .scripted (2 * 500)).1 = .ok .pending ∧
    (s.register .scripted (2 * 500)).2.register .scripted 700 = s.register .scripted (2 * 500 + 700) ∧
    (s.register .scripted (2 * 500 + 700)).1 = .ok .assigned := by
  let message : Message := {
    topic := "$dps/registrations/res/200/?$rid=1"
    payload := utf8 "\x7b\"operationId\":\"4\",\"status\":\"assigned\"\x7d" }
  let s : Session Script := .scripted [.ok [], .ok [.suback 1], .ok [.publish message]]
  obtain ⟨hsame, -⟩ := s.register_split .scripted (by decide : 1 ≤ 2) (by decide : 0 < 700)
    (by decide : 0 < 500 * 1)
  have hpending : (s.register .scripted (2 * 500)).2.client.state ≠ .complete := by decide +kernel
  have hcomplete : (s.register .scripted (2 * 500 + 700)).2.client.state = .complete ∧
      (s.register .scripted (2 * 500 + 700)).2.client.lastResult = .success := by
    decide +kernel
  exact ⟨s, if_pos hpending, hsame, Client.outcome_eq_assigned_iff.mpr hcomplete⟩

end Session

end DeviceTrust.Provisioning
