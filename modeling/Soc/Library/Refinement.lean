import Soc.Library.Machine

/-!
# Machines that refine others

A machine refines a more abstract one along an abstraction of its states if each of its steps is
seen there as one event or as none. What its runs reach then abstracts to what runs of the abstract
machine reach. That events come at all is shown with a measure: `count_le` bounds the steps between
two of them.
-/

namespace Soc.Library.Machine

variable {σ ι α ε : Type*}

/-- A step of `M` from a state with `I` keeps `I` and is an event of `A` or leaves the abstract
state alone. -/
structure Simulates (M : Machine σ ι) (A : Machine α ε) (abs : σ → α) (event : σ → ι → Option ε)
    (I : σ → Prop) : Prop where
  initial : ∀ state, M.Initial state → I state ∧ A.Initial (abs state)
  invariant : ∀ state input, I state → M.Allowed state input → I (M.next state input)
  silent : ∀ state input, I state → M.Allowed state input → event state input = none →
    abs (M.next state input) = abs state
  visible : ∀ state input e, I state → M.Allowed state input → event state input = some e →
    A.Allowed (abs state) e ∧ abs (M.next state input) = A.next (abs state) e

/-- Reachable states abstract to reachable states. -/
theorem Simulates.reachable {M : Machine σ ι} {A : Machine α ε} {abs : σ → α}
    {event : σ → ι → Option ε} {I : σ → Prop} (h : Simulates M A abs event I) {state : σ}
    (hreach : M.Reachable state) : I state ∧ A.Reachable (abs state) := by
  induction hreach with
  | initial hinit =>
      obtain ⟨hI, hA⟩ := h.initial _ hinit
      exact ⟨hI, .initial hA⟩
  | @step state input _ hallowed ih =>
      obtain ⟨hI, hA⟩ := ih
      refine ⟨h.invariant _ _ hI hallowed, ?_⟩
      cases hevent : event state input with
      | none =>
          rw [h.silent _ _ hI hallowed hevent]
          exact hA
      | some e =>
          obtain ⟨hlegal, hnext⟩ := h.visible _ _ _ hI hallowed hevent
          rw [hnext]
          exact hA.step hlegal

/-- `Always` is decidable when the predicate is. -/
instance decidableAlways (M : Machine σ ι) (P : σ → Prop) [hdec : ∀ state, Decidable (P state)] :
    ∀ state inputs, Decidable (M.Always P state inputs)
  | state, [] => hdec state
  | state, input :: inputs =>
      match hdec state, decidableAlways M P (M.next state input) inputs with
      | isTrue h, isTrue hrest => isTrue ⟨h, hrest⟩
      | isFalse h, _ => isFalse (fun halways => h halways.1)
      | _, isFalse h => isFalse (fun halways => h halways.2)

section Runs

variable {M : Machine σ ι} {A : Machine α ε} {abs : σ → α} {event : σ → ι → Option ε} {I : σ → Prop}

/-- The events of a run. -/
def events (M : Machine σ ι) (event : σ → ι → Option ε) : σ → List ι → List ε
  | _, [] => []
  | state, input :: inputs =>
      (event state input).toList ++ M.events event (M.next state input) inputs

/-- A run abstracts to the run of its events. -/
theorem Simulates.run (h : Simulates M A abs event I) {state : σ} (hI : I state)
    {inputs : List ι} (hrun : M.AllowedRun state inputs) :
    A.AllowedRun (abs state) (M.events event state inputs) ∧
      abs (M.run state inputs) = A.run (abs state) (M.events event state inputs) := by
  induction inputs generalizing state with
  | nil => exact ⟨trivial, rfl⟩
  | cons input inputs ih =>
      obtain ⟨hallowed, hrest⟩ := hrun
      obtain ⟨ihallowed, ihrun⟩ := ih (h.invariant _ _ hI hallowed) hrest
      cases hevent : event state input with
      | none =>
          rw [h.silent _ _ hI hallowed hevent] at ihallowed ihrun
          rw [events, hevent]
          exact ⟨ihallowed, ihrun⟩
      | some e =>
          obtain ⟨hlegal, hnext⟩ := h.visible _ _ _ hI hallowed hevent
          rw [hnext] at ihallowed ihrun
          rw [events, hevent]
          exact ⟨⟨hlegal, ihallowed⟩, ihrun⟩

/-- What holds of the abstract state throughout a run holds throughout the run of its events. -/
theorem Simulates.always (h : Simulates M A abs event I) {P : α → Prop} {state : σ}
    (hI : I state) {inputs : List ι} (hrun : M.AllowedRun state inputs)
    (halways : M.Always (fun state => P (abs state)) state inputs) :
    A.Always P (abs state) (M.events event state inputs) := by
  induction inputs generalizing state with
  | nil => exact halways
  | cons input inputs ih =>
      obtain ⟨hallowed, hrest⟩ := hrun
      obtain ⟨hhere, hafter⟩ := halways
      have hlater := ih (h.invariant _ _ hI hallowed) hrest hafter
      cases hevent : event state input with
      | none =>
          rw [h.silent _ _ hI hallowed hevent] at hlater
          rw [events, hevent]
          exact hlater
      | some e =>
          rw [(h.visible _ _ _ hI hallowed hevent).2] at hlater
          rw [events, hevent]
          exact ⟨hhere, hlater⟩

/-- A run that has enough events has a part at its beginning with any smaller number of them. -/
theorem exists_beginning {n : Nat} {state : σ} {inputs : List ι}
    (h : n ≤ (M.events event state inputs).length) :
    ∃ first, first <+: inputs ∧ (M.events event state first).length = n ∧
      M.events event state first <+: M.events event state inputs := by
  induction inputs generalizing state n with
  | nil => exact ⟨[], List.prefix_refl _, (Nat.le_zero.1 h).symm, List.prefix_refl _⟩
  | cons input inputs ih =>
      rw [events, List.length_append] at h
      rcases Nat.eq_zero_or_pos n with rfl | hpos
      · exact ⟨[], List.nil_prefix, rfl, List.nil_prefix⟩
      · have hone : (event state input).toList.length ≤ 1 := by
          cases event state input with
          | none => exact Nat.zero_le _
          | some e => exact Nat.le_refl _
        have hrest : n - (event state input).toList.length ≤
            (M.events event (M.next state input) inputs).length := by omega
        obtain ⟨first, hfirst, hlen, hevents⟩ := ih hrest
        refine ⟨input :: first, (List.prefix_cons_inj input).2 hfirst, ?_, ?_⟩
        · rw [events, List.length_append, hlen]
          omega
        · rw [events, events]
          exact (List.prefix_append_right_inj _).2 hevents

/-- The steps of a run that meet `useful`. -/
def count (M : Machine σ ι) (useful : σ → ι → Bool) : σ → List ι → Nat
  | _, [] => 0
  | state, input :: inputs =>
      (useful state input).toNat + M.count useful (M.next state input) inputs

/-- The number of events of a run. -/
theorem length_events (M : Machine σ ι) (event : σ → ι → Option ε) (state : σ)
    (inputs : List ι) : (M.events event state inputs).length =
      M.count (fun state input => (event state input).isSome) state inputs := by
  induction inputs generalizing state with
  | nil => rfl
  | cons input inputs ih =>
      rw [events, count, List.length_append, ih]
      cases event state input <;> rfl

/-- The steps of a run. -/
theorem count_true (M : Machine σ ι) (state : σ) (inputs : List ι) :
    M.count (fun _ _ => true) state inputs = inputs.length := by
  induction inputs generalizing state with
  | nil => rfl
  | cons input inputs ih => rw [count, ih, List.length_cons, Bool.toNat_true, Nat.add_comm]

/-- What the environment keeps to does not matter for what is counted. -/
theorem count_restrict (M : Machine σ ι) (guard : σ → ι → Prop) (useful : σ → ι → Bool)
    (state : σ) (inputs : List ι) :
    (M.restrict guard).count useful state inputs = M.count useful state inputs := by
  induction inputs generalizing state with
  | nil => rfl
  | cons input inputs ih => exact congrArg ((useful state input).toNat + ·) (ih _)

/-- A measure that goes up in events only, and down in every useful step that is none, bounds the
useful steps by the events. -/
theorem count_le (measure : σ → Nat) (bound : Nat) {useful : σ → ι → Bool}
    (hkeep : ∀ state input, I state → M.Allowed state input → I (M.next state input))
    (hbound : ∀ state, I state → measure state ≤ bound)
    (hdown : ∀ state input, I state → M.Allowed state input → event state input = none →
      measure (M.next state input) + (useful state input).toNat ≤ measure state)
    {state : σ} (hI : I state) {inputs : List ι} (hrun : M.AllowedRun state inputs) :
    M.count useful state inputs ≤
      measure state + (bound + 1) * (M.events event state inputs).length := by
  induction inputs generalizing state with
  | nil => exact Nat.zero_le _
  | cons input inputs ih =>
      obtain ⟨hallowed, hrest⟩ := hrun
      have hnext := hkeep _ _ hI hallowed
      have hlater := ih hnext hrest
      rw [count, events]
      cases hevent : event state input with
      | none =>
          have hstep := hdown _ _ hI hallowed hevent
          rw [Option.toList_none, List.nil_append]
          omega
      | some e =>
          have hle := hbound _ hnext
          have hone : (useful state input).toNat ≤ 1 := Bool.toNat_le _
          rw [Option.toList_some, List.singleton_append, List.length_cons, Nat.mul_succ]
          omega

end Runs

end Soc.Library.Machine
