import Mathlib.Tactic.Basic

/-!
# Toggle synchronisers

A pulse crosses from one clock to another as a change of a level: the first clock toggles it,
the second one samples it in three registers and shows a pulse while the last two differ. A
pulse is in flight from the toggle until it has been seen; `Sampler.holding` says what the
registers hold at each stage of the flight, and `Sampler.boundaries` counts the differences that
travel through the registers.
-/

namespace Soc.Library

/-- The three registers that sample the level. -/
structure Sampler where
  level1 : Bool
  level2 : Bool
  level3 : Bool
  deriving DecidableEq

/-- The stages of a flight, by the register that changed last. -/
inductive Flight where
  | toggled
  | level1
  | level2
  deriving DecidableEq

/-- The stage after one more sample. -/
def Flight.next : Flight → Option Flight
  | toggled => some level1
  | level1 => some level2
  | level2 => none

namespace Sampler

/-- The output. -/
def out (r : Sampler) : Bool := r.level2 ^^ r.level3

/-- The registers after an edge of the second clock. -/
def next (r : Sampler) (level : Bool) : Sampler := ⟨level, r.level1, r.level2⟩

/-- What the registers hold for a level, without or with a pulse in flight. -/
def holding (level : Bool) : Option Flight → Sampler
  | none => ⟨level, level, level⟩
  | some .toggled => ⟨!level, !level, !level⟩
  | some .level1 => ⟨level, !level, !level⟩
  | some .level2 => ⟨level, level, !level⟩

variable {level : Bool} {flight : Option Flight}

/-- The pulse is seen in the last stage of its flight. -/
@[simp] theorem out_holding : (holding level flight).out = decide (flight = some .level2) := by
  match flight with
  | none | some .toggled | some .level1 | some .level2 => cases level <;> rfl

/-- A sample takes the flight to its next stage. -/
@[simp] theorem next_holding : (holding level flight).next level =
    holding level (flight.bind Flight.next) := by
  match flight with
  | none | some .toggled | some .level1 | some .level2 => rfl

/-- A toggle starts a flight, also when the old level is sampled at the same moment. -/
@[simp] theorem holding_not_toggled : holding (!level) (some .toggled) = holding level none := by
  cases level <;> rfl

/-- The two clocks of a synchroniser: a toggle starts a flight, if none is going on, and a sample
takes one further. Both may happen at once. -/
theorem holding_step {sync : Sampler} {toggle sample : Bool} (h : sync = holding level flight)
    (hfree : toggle = true → flight = none) : (if sample then sync.next level else sync) =
      holding (level ^^ toggle)
        (if toggle then some .toggled else if sample then flight.bind Flight.next else flight) := by
  subst h
  cases toggle with
  | false => cases sample <;> simp
  | true =>
      obtain rfl := hfree rfl
      cases sample <;> simp

/-- How many of the boundaries between the level and the registers have different sides. -/
def boundaries (level : Bool) (r : Sampler) : Nat :=
  (level ^^ r.level1).toNat + (r.level1 ^^ r.level2).toNat + (r.level2 ^^ r.level3).toNat

/-- A sample moves every difference one boundary on, and the last one out. -/
theorem boundaries_next (level : Bool) (r : Sampler) :
    r.out.toNat + (r.next level).boundaries level = r.boundaries level := by
  simp only [boundaries, next, out, Bool.xor_self, Bool.toNat_false]
  omega

/-- A toggle makes a difference at the first boundary, if there is none. -/
theorem boundaries_not {r : Sampler} (h : r.level1 = level) :
    r.boundaries (!level) = r.boundaries level + 1 := by
  simp only [boundaries, h, Bool.xor_self, Bool.not_xor, Bool.not_false, Bool.toNat_false,
    Bool.toNat_true]
  omega

/-- A toggle and a sample at the same moment. -/
theorem boundaries_not_next (level : Bool) (r : Sampler) :
    r.out.toNat + (r.next level).boundaries (!level) = r.boundaries level + 1 := by
  have hlevel : (r.next level).level1 = level := rfl
  rw [boundaries_not hlevel, ← Nat.add_assoc, boundaries_next]

end Sampler

end Soc.Library
