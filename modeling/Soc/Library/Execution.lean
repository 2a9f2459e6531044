import Mathlib.Data.Nat.Find
import Soc.Library.Machine

/-!
# Infinite runs

A clocked system never stops, so what it does "in every cycle" and "eventually" is said of its
infinite runs: the state and the input of every cycle, counted from the start.
-/

namespace Soc.Library.Machine

variable {σ ι : Type*} {M : Machine σ ι}

/-- An infinite run. -/
structure Execution (M : Machine σ ι) where
  state : Nat → σ
  input : Nat → ι
  initial : M.Initial (state 0)
  allowed : ∀ t, M.Allowed (state t) (input t)
  step : ∀ t, state (t + 1) = M.next (state t) (input t)

namespace Execution

/-- The states of an infinite run are reachable. -/
theorem reachable (e : M.Execution) (t : Nat) : M.Reachable (e.state t) := by
  induction t with
  | zero => exact .initial e.initial
  | succ t ih =>
      rw [e.step t]
      exact ih.step (e.allowed t)

/-- An invariant holds in every cycle. -/
theorem invariant (e : M.Execution) {P : σ → Prop} (hinit : ∀ state, M.Initial state → P state)
    (hstep : ∀ state input, P state → M.Allowed state input → P (M.next state input)) (t : Nat) :
    P (e.state t) :=
  Machine.invariant hinit hstep (e.reachable t)

/-- What happens from cycle `t` on happens a first time. -/
theorem first_of_exists {P : Nat → Prop} {t : Nat} (h : ∃ u, t ≤ u ∧ P u) :
    ∃ u, t ≤ u ∧ P u ∧ ∀ v, t ≤ v → v < u → ¬ P v := by
  classical
  obtain ⟨hle, hu⟩ := Nat.find_spec h
  refine ⟨Nat.find h, hle, hu, fun v hfrom hlt hv => ?_⟩
  exact Nat.find_min h hlt ⟨hfrom, hv⟩

/-- What happens again and again happens a first time from cycle `t` on. -/
theorem first_from {P : Nat → Prop} (h : ∀ t, ∃ u, t ≤ u ∧ P u) (t : Nat) :
    ∃ u, t ≤ u ∧ P u ∧ ∀ v, t ≤ v → v < u → ¬ P v :=
  first_of_exists (h t)

/-- What holds in cycle `t` and is kept by each cycle before `u` holds in cycle `u`. -/
theorem kept_until {Q : Nat → Prop} {t u : Nat} (hle : t ≤ u) (h : Q t)
    (hkeep : ∀ v, t ≤ v → v < u → Q v → Q (v + 1)) : Q u := by
  induction u, hle using Nat.le_induction with
  | base => exact h
  | succ u hle ih =>
      exact hkeep u hle (Nat.lt_succ_self u) (ih fun v hfrom hlt => hkeep v hfrom (by omega))

/-- The states that an infinite sequence of inputs leads through. -/
def states (M : Machine σ ι) (start : σ) (input : Nat → ι) : Nat → σ
  | 0 => start
  | t + 1 => M.next (states M start input t) (input t)

/-- The run of an infinite sequence of allowed inputs. -/
def ofInputs (start : σ) (input : Nat → ι) (initial : M.Initial start)
    (allowed : ∀ t, M.Allowed (states M start input t) (input t)) : M.Execution where
  state := states M start input
  input := input
  initial := initial
  allowed := allowed
  step _ := rfl

end Execution

end Soc.Library.Machine
