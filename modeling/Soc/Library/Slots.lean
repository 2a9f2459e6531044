import Mathlib.Data.List.FinRange
import Mathlib.Logic.Function.Basic

/-!
# Tables of slots

A table of `n` slots, each empty or holding an entry. An entry is inserted into the first
empty slot and removed from the first slot that holds it; both fail without a change when
there is no such slot.
-/

namespace Soc.Library.Slots

variable {n : Nat} {α : Type*}

/-- A table of `n` slots. -/
abbrev Table (n : Nat) (α : Type*) := Fin n → Option α

/-- The first slot with a property. -/
def first (p : Fin n → Bool) : Option (Fin n) :=
  (List.finRange n).find? p

/-- The slots before the one found do not have the property. -/
theorem first_lt {p : Fin n → Bool} {i j : Fin n} (h : first p = some i) (hj : j < i) :
    p j = false := by
  obtain ⟨_, k, hk, hget, hbefore⟩ := List.find?_eq_some_iff_getElem.1 h
  rw [List.getElem_finRange] at hget
  have hjk : (j : Nat) < k := by
    rw [← hget] at hj
    exact hj
  have hfalse := hbefore j hjk
  rw [List.getElem_finRange] at hfalse
  simpa using hfalse

/-- No slot is found exactly when none has the property. -/
theorem first_eq_none {p : Fin n → Bool} : first p = none ↔ ∀ i, p i = false := by
  simp [first]

namespace Table

/-- The first empty slot. -/
def free (t : Table n α) : Option (Fin n) :=
  first fun i => (t i).isNone

/-- The table with `x` in slot `i`. -/
def put (t : Table n α) (i : Fin n) (x : α) : Table n α :=
  Function.update t i (some x)

/-- The table with slot `i` empty. -/
def erase (t : Table n α) (i : Fin n) : Table n α :=
  Function.update t i none

/-- The table after `x` was inserted, if there was room. -/
def insert (t : Table n α) (x : α) : Option (Table n α) :=
  t.free.map fun i => t.put i x

/-- The first slot that holds `x`. -/
def find [DecidableEq α] (t : Table n α) (x : α) : Option (Fin n) :=
  first fun i => t i == some x

/-- The table after `x` was removed, if it was there. -/
def remove [DecidableEq α] (t : Table n α) (x : α) : Option (Table n α) :=
  (t.find x).map t.erase

variable {t : Table n α} {i : Fin n}

/-- The slots before the first empty one are in use. -/
theorem free_lt {j : Fin n} (h : t.free = some i) (hj : j < i) : (t j).isSome = true := by
  simpa using first_lt h hj

/-- There is no empty slot exactly when all are in use. -/
theorem free_eq_none : t.free = none ↔ ∀ i, (t i).isSome = true := by
  rw [free, first_eq_none]
  simp only [← Option.not_isSome, Bool.not_eq_false']

end Table

end Soc.Library.Slots
