import Mathlib.Tactic.Basic

/-!
# Bit fields

A field of `k` bits at position `p` of a word, read, compared and replaced the way C does
it, with a shifted mask. The lemmas hold for every width and position; a field that is
replaced reads back, and fields apart from it keep their value.
-/

namespace Soc.Library.BitField

variable {n k p q : Nat} {w : BitVec n} {v : BitVec k}

/-- The mask of the field at `p`. -/
def mask (n p k : Nat) : BitVec n :=
  (BitVec.allOnes k).setWidth n <<< p

/-- The value `v` moved to the field at `p`. -/
def place (n p : Nat) (v : BitVec k) : BitVec n :=
  v.setWidth n <<< p

/-- The bits of a placed value. -/
theorem getLsbD_place (i : Nat) :
    (place n p v).getLsbD i = (decide (i < n) && decide (p ≤ i) && v.getLsbD (i - p)) := by
  rw [place, BitVec.getLsbD_shiftLeft, BitVec.getLsbD_setWidth]
  by_cases hp : p ≤ i
  · by_cases hn : i < n
    · simp [hp, hn, show ¬ i < p by omega, show i - p < n by omega]
    · simp [hn]
  · simp [hp, show i < p by omega]

/-- The bits of a mask. -/
theorem getLsbD_mask (i : Nat) :
    (mask n p k).getLsbD i = (decide (i < n) && decide (p ≤ i) && decide (i - p < k)) := by
  rw [show mask n p k = place n p (BitVec.allOnes k) from rfl, getLsbD_place,
    BitVec.getLsbD_allOnes]

/-- A replaced field reads back. -/
theorem extract_replace_self (h : p + k ≤ n) :
    (w &&& ~~~mask n p k ||| place n p v).extractLsb' p k = v := by
  apply BitVec.eq_of_getLsbD_eq
  intro i hi
  rw [BitVec.getLsbD_extractLsb', BitVec.getLsbD_or, BitVec.getLsbD_and, BitVec.getLsbD_not,
    getLsbD_mask, getLsbD_place]
  simp [hi, show p + i < n by omega]

/-- A field apart from the replaced one keeps its value. -/
theorem extract_replace_of_disjoint (h : p + k ≤ q ∨ q + k ≤ p) :
    (w &&& ~~~mask n p k ||| place n p v).extractLsb' q k = w.extractLsb' q k := by
  apply BitVec.eq_of_getLsbD_eq
  intro i hi
  have hout : ¬ (p ≤ q + i ∧ q + i - p < k) := by omega
  have hplace : (place n p v).getLsbD (q + i) = false := by
    rw [getLsbD_place]
    by_cases hp : p ≤ q + i
    · rw [BitVec.getLsbD_of_ge v (q + i - p) (by omega), Bool.and_false]
    · simp [hp]
  rw [BitVec.getLsbD_extractLsb', BitVec.getLsbD_extractLsb', BitVec.getLsbD_or,
    BitVec.getLsbD_and, BitVec.getLsbD_not, getLsbD_mask, hplace]
  by_cases hn : q + i < n
  · have hmask : (decide (p ≤ q + i) && decide (q + i - p < k)) = false := by
      simpa using hout
    simp [hi, hn, hmask]
  · simp [BitVec.getLsbD_of_ge w (q + i) (by omega)]

/-- Clearing a field is replacing it by zero. -/
theorem clear_eq_replace :
    w &&& ~~~mask n p k = w &&& ~~~mask n p k ||| place n p (0 : BitVec k) := by
  have hzero : place n p (0 : BitVec k) = 0#n := by
    apply BitVec.eq_of_getLsbD_eq
    intro i hi
    simp [getLsbD_place]
  rw [hzero, BitVec.or_zero]

/-- A masked word equals a placed value when its field does. -/
theorem masked_eq_iff (h : p + k ≤ n) :
    w &&& mask n p k = place n p v ↔ w.extractLsb' p k = v := by
  constructor
  · intro heq
    apply BitVec.eq_of_getLsbD_eq
    intro i hi
    have hbit := congrArg (fun u => u.getLsbD (p + i)) heq
    simp only [BitVec.getLsbD_and, getLsbD_mask, getLsbD_place] at hbit
    rw [BitVec.getLsbD_extractLsb']
    simpa [hi, show p + i < n by omega] using hbit
  · intro heq
    apply BitVec.eq_of_getLsbD_eq
    intro i hi
    rw [BitVec.getLsbD_and, getLsbD_mask, getLsbD_place, ← heq, BitVec.getLsbD_extractLsb']
    by_cases hp : p ≤ i
    · simp [hi, hp, Nat.add_sub_cancel' hp, Bool.and_comm]
    · simp [hp]

end Soc.Library.BitField
