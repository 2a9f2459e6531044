import Mathlib.Tactic.Basic

/-!
# Ports that answer one request at a time

A port takes up a request when it has none, and is free again when it acknowledges. `nextJob`
is the register that remembers which request that is.
-/

namespace Soc.Library

variable {τ : Type*} {job request : Option τ} {ack : Bool} {t : τ}

/-- The request a port has taken up, after a cycle in which it sees `request`. -/
def nextJob (job request : Option τ) (ack : Bool) : Option τ :=
  if ack then none else job.or request

/-- A request that is taken up has been there before or is new, and has not been acknowledged. -/
theorem of_nextJob_eq_some (h : nextJob job request ack = some t) :
    ack = false ∧ (job = some t ∨ job = none ∧ request = some t) := by
  cases ack with
  | true => cases h
  | false =>
      refine ⟨rfl, ?_⟩
      cases job with
      | none => exact .inr ⟨rfl, h⟩
      | some t' => exact .inl h

/-- A request stays taken up until it is acknowledged. -/
theorem nextJob_isSome_of_job (h : job.isSome) : (nextJob job request false).isSome := by
  obtain ⟨t, rfl⟩ := Option.isSome_iff_exists.1 h
  rfl

/-- A request that is not acknowledged at once is taken up, unless another one is. -/
theorem nextJob_isSome_of_request (h : request.isSome) :
    (nextJob job request false).isSome := by
  cases job with
  | none => exact h
  | some t => rfl

end Soc.Library
