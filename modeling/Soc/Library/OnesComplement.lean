import Mathlib.Tactic.Ring

/-!
# One's complement sums

Words of which `m` is the greatest, added with the carry brought around to the other end. A sum of
words is then the `residue` of their ordinary sum: the number from 1 to `m` that is congruent to it
modulo `m`, or 0 if all of them are. The `complement` of a sum brings it to `m`.
-/

namespace Soc.Library.OnesComplement

variable {m : Nat}

/-- Addition with end-around carry. -/
def add (m x y : Nat) : Nat := (x + y) % (m + 1) + (x + y) / (m + 1)

/-- The sum of some words with end-around carry. -/
def sum (m : Nat) (words : List Nat) : Nat := words.foldl (add m) 0

/-- The ordinary sum of some words. -/
def total : List Nat → Nat
  | [] => 0
  | word :: words => word + total words

/-- What is left of an ordinary sum when all its carries are brought around. -/
def residue (m t : Nat) : Nat := if t = 0 then 0 else (t - 1) % m + 1

/-- What is added to make a sum complete, with `m` for 0. -/
def complement (m t : Nat) : Nat := if m - residue m t = 0 then m else m - residue m t

/-- The sum of two lists. -/
theorem total_append (words words' : List Nat) :
    total (words ++ words') = total words + total words' := by
  induction words with
  | nil => exact (Nat.zero_add _).symm
  | cons word words ih => rw [List.cons_append, total, ih, total, Nat.add_assoc]

/-- Only 0 leaves 0. -/
theorem residue_eq_zero_iff {t : Nat} : residue m t = 0 ↔ t = 0 := by
  unfold residue
  split <;> omega

/-- A residue is a word. -/
theorem residue_le (hm : 0 < m) (t : Nat) : residue m t ≤ m := by
  have hlt := Nat.mod_lt (t - 1) hm
  unfold residue
  split <;> omega

/-- A word is its own residue. -/
theorem residue_of_le {t : Nat} (h : t ≤ m) : residue m t = t := by
  unfold residue
  split
  · omega
  · rw [Nat.mod_eq_of_lt (by omega)]
    omega

/-- A number and its residue are congruent. -/
theorem eq_residue_add (m t : Nat) : ∃ k, t = residue m t + m * k := by
  unfold residue
  split
  · exact ⟨0, by omega⟩
  · have hsplit := Nat.div_add_mod (t - 1) m
    exact ⟨(t - 1) / m, by omega⟩

/-- Numbers that are congruent leave the same, unless one of them is 0. -/
theorem residue_add_mul {t k : Nat} (h : t = 0 → m * k = 0) :
    residue m (t + m * k) = residue m t := by
  by_cases hzero : t = 0
  · rw [h hzero, Nat.add_zero]
  · have hsub : t + m * k - 1 = t - 1 + m * k := by omega
    unfold residue
    rw [if_neg hzero, if_neg (by omega), hsub, Nat.add_mul_mod_self_left]

/-- Bringing a carry around leaves the residue. -/
theorem residue_carry (m t : Nat) :
    residue m (t % (m + 1) + t / (m + 1)) = residue m t := by
  have hsplit : t = t % (m + 1) + t / (m + 1) + m * (t / (m + 1)) := by
    calc t = (m + 1) * (t / (m + 1)) + t % (m + 1) := (Nat.div_add_mod t (m + 1)).symm
      _ = _ := by ring
  refine (Eq.trans (congrArg (residue m) hsplit) (residue_add_mul fun hzero => ?_)).symm
  rw [(Nat.add_eq_zero_iff.1 hzero).2, Nat.mul_zero]

/-- A summand may be replaced by its residue. -/
theorem residue_residue_add (m a y : Nat) : residue m (residue m a + y) = residue m (a + y) := by
  obtain ⟨k, hk⟩ := eq_residue_add m a
  have hcong : a + y = residue m a + y + m * k := by omega
  refine (Eq.trans (congrArg (residue m) hcong) (residue_add_mul fun hzero => ?_)).symm
  have ha : a = 0 := residue_eq_zero_iff.1 (show residue m a = 0 by omega)
  omega

/-- Two words added with end-around carry. -/
theorem add_eq_residue {x y : Nat} (hx : x ≤ m) (hy : y ≤ m) : add m x y = residue m (x + y) := by
  have hle : add m x y ≤ m := by
    unfold add
    rcases Nat.lt_or_ge (x + y) (m + 1) with hlt | hge
    · rw [Nat.mod_eq_of_lt hlt, Nat.div_eq_of_lt hlt]
      omega
    · rw [Nat.mod_eq_sub_mod hge, Nat.mod_eq_of_lt (by omega), Nat.div_eq_of_lt_le (by omega)
        (show x + y < (1 + 1) * (m + 1) by omega)]
      omega
  rw [← residue_of_le hle, add, residue_carry]

/-- A sum with end-around carry is the residue of the ordinary sum. -/
theorem sum_eq_residue (hm : 0 < m) {words : List Nat} (h : ∀ word ∈ words, word ≤ m) :
    sum m words = residue m (total words) := by
  suffices hfold : ∀ a, words.foldl (add m) (residue m a) = residue m (a + total words) by
    have hzero := hfold 0
    rwa [residue_of_le (Nat.zero_le m), Nat.zero_add] at hzero
  induction words with
  | nil =>
      intro a
      rfl
  | cons word words ih =>
      intro a
      rw [List.foldl_cons, add_eq_residue (residue_le hm a) (h word List.mem_cons_self),
        residue_residue_add, ih (fun w hw => h w (List.mem_cons_of_mem _ hw)), total,
        Nat.add_assoc]

/-- A sum and its complement are complete. -/
theorem residue_add_complement (hm : 0 < m) (t : Nat) : residue m (t + complement m t) = m := by
  have hle := residue_le hm t
  rw [← residue_residue_add]
  unfold complement
  split
  · have hfull : residue m t = m := by omega
    have hcarry := residue_add_mul (m := m) (t := m) (k := 1) (by omega)
    rw [hfull]
    rw [Nat.mul_one, residue_of_le (Nat.le_refl m)] at hcarry
    exact hcarry
  · rw [Nat.add_sub_of_le hle, residue_of_le (Nat.le_refl m)]

/-- A complement is not 0. -/
theorem complement_pos (hm : 0 < m) (t : Nat) : 0 < complement m t := by
  unfold complement
  split <;> omega

end Soc.Library.OnesComplement
