import DeviceTrust.Bytes
import Mathlib.Logic.Basic

/-!
# Steps in sequence

What a sequence of steps tells of its parts, for computations that may fail and for operations that
also change a state.

Results:
* `bind_eq_ok_iff`: a sequence succeeds iff its parts do.
* `map_eq_ok_iff`, `mapError_eq_ok_iff`: another value or error does not make a success.
* `of_bind_eq_error`: a sequence that fails in a way that its first part cannot fails in the second.
* `bind_congr_of_ok`: two sequences are the same if they go on in the same way where they go on.
* `run_bind`: an operation that fails leaves out what follows it, but not the state it has reached.
-/

namespace DeviceTrust

section Computations

variable {ε α β : Type} {step : Except ε α} {next : α → Except ε β}

theorem bind_eq_ok_iff {b : β} :
    step >>= next = .ok b ↔ ∃ a, step = .ok a ∧ next a = .ok b := by
  cases step with
  | error e =>
    constructor
    · intro h
      cases h
    · rintro ⟨_, h, -⟩
      cases h
  | ok a => exact ⟨fun h => ⟨a, rfl, h⟩, fun ⟨_, ha, h⟩ => Except.ok.inj ha ▸ h⟩

theorem map_eq_ok_iff {f : α → β} {b : β} :
    step.map f = .ok b ↔ ∃ a, step = .ok a ∧ f a = b := by
  cases step with
  | error e =>
    constructor
    · intro h
      cases h
    · rintro ⟨_, h, -⟩
      cases h
  | ok a => exact ⟨fun h => ⟨a, rfl, Except.ok.inj h⟩, fun ⟨_, ha, h⟩ => by rw [ha, ← h]; rfl⟩

theorem mapError_eq_ok_iff {ε' : Type} {f : ε → ε'} {a : α} :
    step.mapError f = .ok a ↔ step = .ok a := by
  cases step with
  | error e =>
    constructor
    · intro h
      cases h
    · intro h
      cases h
  | ok b => exact ⟨fun h => congrArg _ (Except.ok.inj h), fun h => congrArg _ (Except.ok.inj h)⟩

/-- A step that cannot fail in this way has succeeded. -/
theorem of_bind_eq_error {e : ε} (h : step >>= next = .error e) (hstep : step ≠ .error e) :
    ∃ a, step = .ok a ∧ next a = .error e := by
  cases step with
  | error e' =>
    obtain rfl : e' = e := Except.error.inj h
    exact absurd rfl hstep
  | ok a => exact ⟨a, rfl, h⟩

/-- What follows a step matters only after what the step gives. -/
theorem bind_congr_of_ok {next' : α → Except ε β} (h : ∀ a, step = .ok a → next a = next' a) :
    step >>= next = step >>= next' := by
  cases step with
  | error e => rfl
  | ok a => exact h a rfl

theorem bind_eq_error {a : α} {e : ε} (hstep : step = .ok a) (h : next a = .error e) :
    step >>= next = .error e := by
  rw [hstep]
  exact h

end Computations

/-- An operation that fails leaves out what follows it. -/
theorem run_bind {ε σ α β : Type} (operation : ExceptT ε (StateM σ) α)
    (next : α → ExceptT ε (StateM σ) β) (s : σ) :
    (operation >>= next).run.run s = match operation.run.run s with
      | (.ok a, s') => (next a).run.run s'
      | (.error e, s') => (.error e, s') := by
  rw [ExceptT.run_bind, StateT.run_bind]
  rcases operation.run.run s with ⟨_ | _, _⟩ <;> rfl

end DeviceTrust
