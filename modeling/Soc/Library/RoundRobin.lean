import Mathlib.Data.Nat.Find

/-!
# Round-robin arbitration

A grant goes around a circle of `n` clients: its holder keeps it as long as it requests it, and then
it goes to the nearest client in front that does. A client that waits is never passed, so every move
brings the grant nearer to it, and nobody else is granted twice before it.
-/

namespace Soc.Library.RoundRobin

variable {n : Nat} {req : Fin n → Bool} {g g' j : Fin n}

/-- How far in front of `g` the client `j` is. -/
def ahead (g j : Fin n) : Nat := if g ≤ j then j - g else j + n - g

/-- The grant goes from `g` to `g'`: it stays with a client that requests it or if nobody else
does, and goes to the nearest one that does otherwise. -/
structure Passes (req : Fin n → Bool) (g g' : Fin n) : Prop where
  holds : req g = true → g' = g
  moves : g' ≠ g → req g' = true
  nearest : g' ≠ g → ∀ j, req j = true → ahead g g' ≤ ahead g j

/-- A client on the way is nearer. -/
theorem ahead_sub (h : ahead g g' ≤ ahead g j) : ahead g' j = ahead g j - ahead g g' := by
  unfold ahead at h ⊢
  split at h <;> split at h <;> split <;> simp only [Fin.le_def] at * <;> omega

/-- Only the holder itself is not ahead. -/
theorem ahead_pos (h : g ≠ j) : 0 < ahead g j := by
  have hne : g.val ≠ j.val := fun heq => h (Fin.ext heq)
  unfold ahead
  split <;> simp only [Fin.le_def] at * <;> omega

/-- A move brings the grant nearer to every client that waits. -/
theorem Passes.nearer (h : Passes req g g') (hmove : g' ≠ g) (hj : req j = true) (hne : g ≠ j) :
    ahead g' j < ahead g j := by
  rw [ahead_sub (h.nearest hmove j hj)]
  exact Nat.sub_lt (ahead_pos hne) (ahead_pos hmove.symm)

section Runs

variable {reqs : Nat → Fin n → Bool} {gnt : Nat → Fin n} {first last : Nat}

/-- The grant never goes away from a client that waits. -/
theorem ahead_le (hpasses : ∀ t, Passes (reqs t) (gnt t) (gnt (t + 1)))
    (hreq : ∀ t, first ≤ t → t < last → reqs t j = true)
    (hwaits : ∀ t, first ≤ t → t ≤ last → gnt t ≠ j) {t u : Nat} (ht : first ≤ t) (htu : t ≤ u)
    (hu : u ≤ last) : ahead (gnt u) j ≤ ahead (gnt t) j := by
  induction u, htu using Nat.le_induction with
  | base => exact Nat.le_refl _
  | succ u htu ih =>
      refine Nat.le_trans ?_ (ih (by omega))
      by_cases hmove : gnt (u + 1) = gnt u
      · rw [hmove]
      · exact Nat.le_of_lt ((hpasses u).nearer hmove (hreq u (by omega) (by omega))
          (hwaits u (by omega) (by omega)))

/-- While a client waits, nobody who has been granted is granted anew. -/
theorem not_regained (hpasses : ∀ t, Passes (reqs t) (gnt t) (gnt (t + 1)))
    (hreq : ∀ t, first ≤ t → t < last → reqs t j = true)
    (hwaits : ∀ t, first ≤ t → t ≤ last → gnt t ≠ j) {t u : Nat} (ht : first ≤ t) (htu : t ≤ u)
    (hu : u < last) (hgain : gnt (u + 1) ≠ gnt u) : gnt (u + 1) ≠ gnt t := by
  intro heq
  have hnearer := (hpasses u).nearer hgain (hreq u (by omega) hu) (hwaits u (by omega) (by omega))
  have hle := ahead_le hpasses hreq hwaits ht htu (Nat.le_of_lt hu)
  rw [heq] at hnearer
  exact absurd hle (Nat.not_le_of_lt hnearer)

end Runs

end Soc.Library.RoundRobin
