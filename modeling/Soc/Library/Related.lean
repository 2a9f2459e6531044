import Mathlib.Tactic.Basic

/-!
# One program over two states

The same program may run over two kinds of state: one that the machine has, and one that shows what
the program is for. `Related R x y` says that `x` follows `y` wherever `R` holds between the states,
and the rules below follow the shape of the program.
-/

namespace Soc.Library

variable {σ τ α β : Type} {R : σ → τ → Prop}

/-- Whenever `y` ends, `x` ends with the same value, in a state that is again related. -/
def Related (R : σ → τ → Prop) (x : StateT σ Option α) (y : StateT τ Option α) : Prop :=
  ∀ s t, R s t → ∀ a t', y.run t = some (a, t') → ∃ s', x.run s = some (a, s') ∧ R s' t'

namespace Related

/-- Returning a value. -/
theorem pure (a : α) : Related R (Pure.pure a) (Pure.pure a) := by
  intro s t h b t' hy
  obtain ⟨rfl, rfl⟩ : a = b ∧ t = t' := Prod.mk.inj (Option.some.inj hy)
  exact ⟨s, rfl, h⟩

/-- A program that never ends is followed by any other. -/
theorem failure (x : StateT σ Option α) : Related R x (failure : StateT τ Option α) := by
  intro s t h a t' hy
  cases hy

/-- One program after another. -/
theorem bind {x : StateT σ Option α} {y : StateT τ Option α} {f : α → StateT σ Option β}
    {g : α → StateT τ Option β} (hx : Related R x y) (hf : ∀ a, Related R (f a) (g a)) :
    Related R (x >>= f) (y >>= g) := by
  intro s t h b t' hy
  rw [StateT.run_bind] at hy ⊢
  obtain ⟨⟨a, t₁⟩, hrun, hrest⟩ := Option.bind_eq_some_iff.1 hy
  obtain ⟨s₁, hrun', h₁⟩ := hx s t h a t₁ hrun
  obtain ⟨s', hrest', h'⟩ := hf a s₁ t₁ h₁ b t' hrest
  exact ⟨s', Option.bind_eq_some_iff.2 ⟨(a, s₁), hrun', hrest'⟩, h'⟩

/-- A choice that does not depend on the states. -/
theorem ite {p : Prop} [Decidable p] {x x' : StateT σ Option α} {y y' : StateT τ Option α}
    (hx : Related R x y) (hx' : Related R x' y') :
    Related R (if p then x else x') (if p then y else y') := by
  by_cases hp : p
  · rwa [if_pos hp, if_pos hp]
  · rwa [if_neg hp, if_neg hp]

/-- Changing both states. -/
theorem modify {f : σ → σ} {g : τ → τ} (h : ∀ s t, R s t → R (f s) (g t)) :
    Related R (modify f) (modify g) := by
  intro s t hst a t' hy
  obtain ⟨rfl, rfl⟩ : () = a ∧ g t = t' := Prod.mk.inj (Option.some.inj hy)
  exact ⟨f s, rfl, h s t hst⟩

/-- A value that may be missing. -/
theorem lift (a : Option α) : Related R (StateT.lift a) (StateT.lift a) := by
  intro s t h b t' hy
  cases a with
  | none => cases hy
  | some a =>
      obtain ⟨rfl, rfl⟩ : a = b ∧ t = t' := Prod.mk.inj (Option.some.inj hy)
      exact ⟨s, rfl, h⟩

/-- A loop over a list. -/
theorem forM {l : List β} {f : β → StateT σ Option PUnit} {g : β → StateT τ Option PUnit}
    (h : ∀ b, Related R (f b) (g b)) : Related R (l.forM f) (l.forM g) := by
  induction l with
  | nil => exact pure _
  | cons b l ih => exact bind (h b) fun _ => ih

end Related

end Soc.Library
