import Mathlib.Logic.Relation

/-!
# Deterministic runs

Runs of a system that goes from a state to at most one next state.
-/

namespace Soc.Library.Determinism

variable {α : Type*} {next : α → Option α} {a b b' : α}

/-- A run does not leave a state without a next one. -/
theorem eq_of_end (hend : next b = none)
    (h : Relation.ReflTransGen (fun x y => next x = some y) b b') : b = b' := by
  obtain heq | ⟨c, hnext, -⟩ := Relation.ReflTransGen.cases_head h
  · exact heq
  · cases hend.symm.trans hnext

/-- Runs from one state that cannot go on end in the same state. -/
theorem end_unique (h : Relation.ReflTransGen (fun x y => next x = some y) a b)
    (hend : next b = none) (h' : Relation.ReflTransGen (fun x y => next x = some y) a b')
    (hend' : next b' = none) : b = b' := by
  have hfunctional : Relator.RightUnique fun x y => next x = some y :=
    fun _ _ _ hb hc => Option.some.inj (hb.symm.trans hc)
  obtain hmore | hmore := Relation.ReflTransGen.total_of_right_unique hfunctional h h'
  · exact eq_of_end hend hmore
  · exact (eq_of_end hend' hmore).symm

/-- If a run that ends passes only states in which the system has no other steps, then these are all
the runs there are. -/
theorem only_run {P : α → Prop} {Step : α → α → Prop}
    (hstep : ∀ x y, P x → Step x y → next x = some y)
    (h : Relation.ReflTransGen (fun x y => P x ∧ next x = some y) a b) (hlast : P b)
    (hend : next b = none) (h' : Relation.ReflTransGen Step a b') :
    Relation.ReflTransGen (fun x y => next x = some y) a b' := by
  -- what is left of the run that ends, from every state of the other
  have hleft : Relation.ReflTransGen (fun x y => next x = some y) a b' ∧
      Relation.ReflTransGen (fun x y => P x ∧ next x = some y) b' b := by
    induction h' with
    | refl => exact ⟨.refl, h⟩
    | tail _ hlater ih =>
        obtain ⟨hsame, hrest⟩ := ih
        obtain rfl | ⟨z, ⟨hquiet, hnext⟩, hrest⟩ := Relation.ReflTransGen.cases_head hrest
        · cases hend.symm.trans (hstep _ _ hlast hlater)
        · have hnext' := hstep _ _ hquiet hlater
          cases hnext.symm.trans hnext'
          exact ⟨hsame.tail hnext', hrest⟩
  exact hleft.1

end Soc.Library.Determinism
