import Mathlib.Tactic.Basic

/-!
# Machines driven by inputs

A clocked circuit, a driver with its hardware and a network node are all read here
as a state, the inputs the environment may offer in that state, and the state that
follows. `Reachable` collects the states of all runs, `restrict` keeps the runs whose
steps all meet a guard, and `invariant` is the induction every safety proof goes
through.
-/

namespace Soc.Library

/-- A state machine: where it may start, which inputs the environment may offer in a
state, and the state after taking one of them. -/
structure Machine (σ ι : Type*) where
  Initial : σ → Prop
  Allowed : σ → ι → Prop
  next : σ → ι → σ

namespace Machine

variable {σ ι : Type*}

/-- The states of all runs of a machine. -/
inductive Reachable (M : Machine σ ι) : σ → Prop where
  | initial {state : σ} : M.Initial state → Reachable M state
  | step {state : σ} {input : ι} :
      Reachable M state → M.Allowed state input → Reachable M (M.next state input)

/-- A predicate that holds initially and is preserved by every allowed step holds in every
reachable state. -/
theorem invariant {M : Machine σ ι} {P : σ → Prop}
    (hinit : ∀ state, M.Initial state → P state)
    (hstep : ∀ state input, P state → M.Allowed state input → P (M.next state input))
    {state : σ} (h : M.Reachable state) : P state := by
  induction h with
  | initial h => exact hinit _ h
  | step _ hallowed ih => exact hstep _ _ ih hallowed

/-- The machine whose environment also keeps to `guard`. -/
def restrict (M : Machine σ ι) (guard : σ → ι → Prop) : Machine σ ι where
  Initial := M.Initial
  Allowed state input := M.Allowed state input ∧ guard state input
  next := M.next

/-- A guarded step is decidable when its two conditions are. -/
instance (M : Machine σ ι) (guard : σ → ι → Prop) (state : σ) (input : ι)
    [Decidable (M.Allowed state input)] [Decidable (guard state input)] :
    Decidable ((M.restrict guard).Allowed state input) :=
  inferInstanceAs (Decidable (_ ∧ _))

/-- The state after a list of inputs. -/
def run (M : Machine σ ι) (state : σ) (inputs : List ι) : σ :=
  inputs.foldl M.next state

/-- Every input of the list is allowed in the state it meets. -/
def AllowedRun (M : Machine σ ι) : σ → List ι → Prop
  | _, [] => True
  | state, input :: inputs => M.Allowed state input ∧ M.AllowedRun (M.next state input) inputs

/-- `AllowedRun` is decidable when each step is. -/
instance decidableAllowedRun (M : Machine σ ι)
    [hdec : ∀ state input, Decidable (M.Allowed state input)] :
    ∀ state inputs, Decidable (M.AllowedRun state inputs)
  | _, [] => isTrue trivial
  | state, input :: inputs =>
      match hdec state input, decidableAllowedRun M (M.next state input) inputs with
      | isTrue h, isTrue hrest => isTrue ⟨h, hrest⟩
      | isFalse h, _ => isFalse (fun hrun => h hrun.1)
      | _, isFalse h => isFalse (fun hrun => h hrun.2)

/-- Running two lists of inputs one after the other. -/
theorem run_append (M : Machine σ ι) (state : σ) (first second : List ι) :
    M.run state (first ++ second) = M.run (M.run state first) second :=
  List.foldl_append

/-- The second list continues from where the first ends. -/
theorem allowedRun_append {M : Machine σ ι} {state : σ} {first second : List ι} :
    M.AllowedRun state (first ++ second) ↔
      M.AllowedRun state first ∧ M.AllowedRun (M.run state first) second := by
  induction first generalizing state with
  | nil => exact (iff_of_eq (true_and _)).symm
  | cons input first ih => exact (and_congr_right fun _ => ih).trans and_assoc.symm

/-- An allowed run from a reachable state ends in a reachable state. -/
theorem Reachable.run {M : Machine σ ι} {state : σ} (h : M.Reachable state) {inputs : List ι}
    (hallowed : M.AllowedRun state inputs) : M.Reachable (M.run state inputs) := by
  induction inputs generalizing state with
  | nil => exact h
  | cons input inputs ih => exact ih (h.step hallowed.1) hallowed.2

/-- A reachable state is where some run ends. -/
theorem Reachable.exists_run {M : Machine σ ι} {state : σ} (h : M.Reachable state) :
    ∃ first inputs, M.Initial first ∧ M.AllowedRun first inputs ∧ M.run first inputs = state := by
  induction h with
  | initial h => exact ⟨_, [], h, trivial, rfl⟩
  | @step _ input _ hallowed ih =>
      obtain ⟨first, inputs, hinit, hrun, rfl⟩ := ih
      refine ⟨first, inputs ++ [input], hinit, ?_, M.run_append first inputs [input]⟩
      exact allowedRun_append.2 ⟨hrun, hallowed, trivial⟩

/-- Every state of a run satisfies `P`. -/
def Always (M : Machine σ ι) (P : σ → Prop) : σ → List ι → Prop
  | state, [] => P state
  | state, input :: inputs => P state ∧ M.Always P (M.next state input) inputs

/-- A run that satisfies `P` throughout does so in its first state. -/
theorem Always.here {M : Machine σ ι} {P : σ → Prop} {state : σ} {inputs : List ι}
    (h : M.Always P state inputs) : P state := by
  cases inputs with
  | nil => exact h
  | cons _ _ => exact h.1

/-- A run that satisfies `P` throughout does so from each of its states on. -/
theorem Always.drop {M : Machine σ ι} {P : σ → Prop} {state : σ} {first second : List ι}
    (h : M.Always P state (first ++ second)) : M.Always P (M.run state first) second := by
  induction first generalizing state with
  | nil => exact h
  | cons input first ih => exact ih h.2

/-- If an invariant `I` implies `P`, steps that meet a guard keep `I`, and a step that does not meet
it breaks `P`, then a run from a state with `I` satisfies `P` throughout exactly when all its steps
meet the guard. -/
theorem always_iff_guarded {M : Machine σ ι} {guard : σ → ι → Prop} {I P : σ → Prop}
    (hsafe : ∀ state, I state → P state)
    (hkeep : ∀ state input, I state → M.Allowed state input → guard state input →
      I (M.next state input))
    (hbreak : ∀ state input, I state → M.Allowed state input → ¬ guard state input →
      ¬ P (M.next state input))
    {state : σ} (hI : I state) {inputs : List ι} (hrun : M.AllowedRun state inputs) :
    M.Always P state inputs ↔ (M.restrict guard).AllowedRun state inputs := by
  induction inputs generalizing state with
  | nil => exact iff_of_true (hsafe _ hI) trivial
  | cons input inputs ih =>
      obtain ⟨hallowed, hrest⟩ := hrun
      constructor
      · rintro ⟨-, hafter⟩
        have hguard : guard state input :=
          Classical.byContradiction fun hnot => hbreak _ _ hI hallowed hnot hafter.here
        exact ⟨⟨hallowed, hguard⟩, (ih (hkeep _ _ hI hallowed hguard) hrest).1 hafter⟩
      · rintro ⟨⟨-, hguard⟩, hafter⟩
        exact ⟨hsafe _ hI, (ih (hkeep _ _ hI hallowed hguard) hrest).2 hafter⟩

/-- If each step keeps `P` exactly when it meets a guard, then a run from a state with `P` satisfies
`P` throughout exactly when all its steps meet the guard. `I` is an invariant the steps may use. -/
theorem always_iff_restrict {M : Machine σ ι} {guard : σ → ι → Prop} {I P : σ → Prop}
    (hinv : ∀ state input, I state → M.Allowed state input → I (M.next state input))
    (hstep : ∀ state input, I state → P state → M.Allowed state input →
      (P (M.next state input) ↔ guard state input))
    {state : σ} (hI : I state) (hP : P state) {inputs : List ι}
    (hrun : M.AllowedRun state inputs) :
    M.Always P state inputs ↔ (M.restrict guard).AllowedRun state inputs :=
  always_iff_guarded (I := fun state => I state ∧ P state) (fun _ h => h.2)
    (fun state input h hallowed hguard =>
      ⟨hinv state input h.1 hallowed, (hstep state input h.1 h.2 hallowed).2 hguard⟩)
    (fun state input h hallowed => mt (hstep state input h.1 h.2 hallowed).1) ⟨hI, hP⟩ hrun

/-- An invariant holds at the end of every allowed run. -/
theorem run_invariant {M : Machine σ ι} {I : σ → Prop}
    (hinv : ∀ state input, I state → M.Allowed state input → I (M.next state input))
    {state : σ} (hI : I state) {inputs : List ι} (hrun : M.AllowedRun state inputs) :
    I (M.run state inputs) := by
  induction inputs generalizing state with
  | nil => exact hI
  | cons input inputs ih => exact ih (hinv _ _ hI hrun.1) hrun.2

end Machine

end Soc.Library
