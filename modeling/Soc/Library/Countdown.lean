import Mathlib.Tactic.Ring

/-!
# Countdowns

A number that goes down by one in every step, and is loaded anew in the step after it is 0. The
first 0 comes after as many steps as the number says, and the others at the distance of the reload.
-/

namespace Soc.Library.Countdown

variable {rest : Nat → Nat} {reload : Nat}

/-- What is left before the first 0. -/
theorem rest_eq (hdown : ∀ t, rest t ≠ 0 → rest (t + 1) = rest t - 1) {t : Nat}
    (ht : t ≤ rest 0) : rest t = rest 0 - t := by
  induction t with
  | zero => rfl
  | succ t ih =>
      have hrest := ih (by omega)
      rw [hdown t (by omega), hrest]
      omega

/-- What is left after the first 0, if every 0 loads the number anew. -/
theorem rest_after (hdown : ∀ t, rest t ≠ 0 → rest (t + 1) = rest t - 1)
    (hreload : ∀ t, rest t = 0 → rest (t + 1) = reload) (n : Nat) :
    rest (rest 0 + 1 + n) = reload - n % (reload + 1) := by
  induction n with
  | zero =>
      have hzero : rest (rest 0) = 0 := by rw [rest_eq hdown (Nat.le_refl _), Nat.sub_self]
      simpa using hreload _ hzero
  | succ n ih =>
      have hlt : n % (reload + 1) < reload + 1 := Nat.mod_lt _ (Nat.succ_pos _)
      by_cases hend : n % (reload + 1) = reload
      · have hwrap : (n + 1) % (reload + 1) = 0 := by
          rw [Nat.add_mod, hend]
          rcases Nat.eq_zero_or_pos reload with hzero | hpos
          · rw [hzero]
          · rw [Nat.mod_eq_of_lt (show 1 < reload + 1 by omega), Nat.mod_self]
        rw [hwrap, Nat.sub_zero]
        exact hreload (rest 0 + 1 + n) (by rw [ih, hend, Nat.sub_self])
      · have hnext : (n + 1) % (reload + 1) = n % (reload + 1) + 1 := by
          rw [Nat.add_mod, Nat.mod_eq_of_lt (show 1 < reload + 1 by omega),
            Nat.mod_eq_of_lt (show n % (reload + 1) + 1 < reload + 1 by omega)]
        rw [hnext, ← Nat.add_assoc, hdown _ (by omega), ih]
        omega

/-- The zeros of a countdown that is loaded anew at each of them. -/
theorem rest_eq_zero_iff (hdown : ∀ t, rest t ≠ 0 → rest (t + 1) = rest t - 1)
    (hreload : ∀ t, rest t = 0 → rest (t + 1) = reload) (t : Nat) :
    rest t = 0 ↔ ∃ m, t = rest 0 + m * (reload + 1) := by
  rcases Nat.lt_or_ge (rest 0) t with hafter | hbefore
  · obtain ⟨n, rfl⟩ := Nat.exists_eq_add_of_le (Nat.succ_le_of_lt hafter)
    rw [rest_after hdown hreload]
    have hlt : n % (reload + 1) < reload + 1 := Nat.mod_lt _ (Nat.succ_pos _)
    have hsplit := Nat.div_add_mod n (reload + 1)
    constructor
    · intro hzero
      refine ⟨n / (reload + 1) + 1, ?_⟩
      have hend : n % (reload + 1) = reload := by omega
      calc rest 0 + 1 + n
          = rest 0 + 1 + ((reload + 1) * (n / (reload + 1)) + n % (reload + 1)) := by rw [hsplit]
        _ = rest 0 + (n / (reload + 1) + 1) * (reload + 1) := by rw [hend]; ring
    · rintro ⟨m, hm⟩
      have hn : n + 1 = m * (reload + 1) := by omega
      have hpos : m ≠ 0 := by
        rintro rfl
        omega
      obtain ⟨m, rfl⟩ := Nat.exists_eq_succ_of_ne_zero hpos
      have hmul : n = reload + m * (reload + 1) := by
        rw [Nat.succ_mul] at hn
        omega
      rw [hmul, Nat.add_mul_mod_self_right, Nat.mod_eq_of_lt (Nat.lt_succ_self _), Nat.sub_self]
  · rw [rest_eq hdown hbefore]
    constructor
    · intro hzero
      exact ⟨0, by omega⟩
    · rintro ⟨m, hm⟩
      omega

end Soc.Library.Countdown
