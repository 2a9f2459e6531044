import Mathlib.Tactic.Basic

/-!
# Computations with a trace

A computation that returns a value and leaves a trace of what it touched on the way: the
memory it read, the calls it made. `Within P` says that everything it touched satisfies
`P`, and the rules below follow the shape of the computation.
-/

namespace Soc.Library

/-- A value, and the trace of the computation that returned it, oldest event first. -/
structure Traced (ε α : Type) where
  value : α
  trace : List ε

namespace Traced

variable {ε α β γ : Type}

instance : Monad (Traced ε) where
  pure a := ⟨a, []⟩
  bind x f := ⟨(f x.value).value, x.trace ++ (f x.value).trace⟩

/-- Touch `e`, giving `a`. -/
def touch (e : ε) (a : α) : Traced ε α := ⟨a, [e]⟩

@[simp] theorem value_pure (a : α) : (pure a : Traced ε α).value = a := rfl

@[simp] theorem trace_pure (a : α) : (pure a : Traced ε α).trace = [] := rfl

@[simp] theorem value_bind (x : Traced ε α) (f : α → Traced ε β) :
    (x >>= f).value = (f x.value).value := rfl

@[simp] theorem trace_bind (x : Traced ε α) (f : α → Traced ε β) :
    (x >>= f).trace = x.trace ++ (f x.value).trace := rfl

@[simp] theorem value_touch (e : ε) (a : α) : (touch e a).value = a := rfl

@[simp] theorem trace_touch (e : ε) (a : α) : (touch e a).trace = [e] := rfl

@[simp] theorem value_ite (p : Prop) [Decidable p] (x y : Traced ε α) :
    (if p then x else y).value = if p then x.value else y.value := by
  split <;> rfl

/-- A guard that gives up, in a computation whose results satisfy `P` otherwise. -/
theorem guard_value {P : α → Prop} {c : Prop} [Decidable c] {x : Traced ε α} {a : α} (ha : P a)
    (hx : P x.value) : P (if c then pure a else x).value := by
  by_cases hc : c
  · rw [if_pos hc]
    exact ha
  · rw [if_neg hc]
    exact hx

/-- A guard that does not hold is passed. -/
theorem value_passed {c : Prop} [Decidable c] {x y : Traced ε α} {a : α} (hc : ¬ c)
    (hx : x.value = a) : (if c then y else x).value = a := by
  rw [if_neg hc]
  exact hx

/-- Sequencing is associative. -/
theorem bind_assoc (x : Traced ε α) (f : α → Traced ε β) (g : β → Traced ε γ) :
    x >>= f >>= g = x >>= fun a => f a >>= g := by
  show (⟨_, _⟩ : Traced ε γ) = ⟨_, _⟩
  simp

/-- Everything the computation touches satisfies `P`. -/
def Within (P : ε → Prop) (x : Traced ε α) : Prop := ∀ e ∈ x.trace, P e

variable {P : ε → Prop}

/-- Returning touches nothing. -/
theorem within_pure (a : α) : Within P (pure a : Traced ε α) := by
  intro e he
  cases he

/-- One event. -/
theorem within_touch {e : ε} (a : α) (h : P e) : Within P (touch e a) := by
  intro e' he
  rw [List.mem_singleton.1 he]
  exact h

/-- One computation after another. -/
theorem Within.bind {x : Traced ε α} {f : α → Traced ε β} (hx : Within P x)
    (hf : Within P (f x.value)) : Within P (x >>= f) := by
  intro e he
  rw [trace_bind, List.mem_append] at he
  exact he.elim (hx e) (hf e)

/-- The first of two computations touches what both touch together. -/
theorem Within.of_bind {x : Traced ε α} {f : α → Traced ε β} (h : Within P (x >>= f)) :
    Within P x ∧ Within P (f x.value) := by
  constructor
  · exact fun e he => h e (List.mem_append_left _ he)
  · exact fun e he => h e (List.mem_append_right _ he)

/-- Returning touches nothing. -/
@[simp] theorem within_pure_iff (a : α) : Within P (pure a : Traced ε α) ↔ True :=
  iff_true_intro (within_pure a)

/-- One event. -/
@[simp] theorem within_touch_iff {e : ε} (a : α) : Within P (touch e a) ↔ P e :=
  ⟨fun h => h e List.mem_cons_self, within_touch a⟩

/-- One computation after another. -/
@[simp] theorem within_bind_iff {x : Traced ε α} {f : α → Traced ε β} :
    Within P (x >>= f) ↔ Within P x ∧ Within P (f x.value) :=
  ⟨Within.of_bind, fun h => h.1.bind h.2⟩

/-- One computation after another that may fail. -/
def tryBind (x : Traced ε (Option α)) (f : α → Traced ε (Option β)) : Traced ε (Option β) := do
  match ← x with
  | none => pure none
  | some a => f a

@[simp] theorem value_tryBind (x : Traced ε (Option α)) (f : α → Traced ε (Option β)) :
    (x.tryBind f).value = x.value.bind fun a => (f a).value := by
  rw [tryBind, value_bind]
  cases x.value <;> rfl

/-- What comes after a computation that may fail is touched if it succeeds. -/
theorem within_tryBind {x : Traced ε (Option α)} {f : α → Traced ε (Option β)} :
    Within P (x.tryBind f) ↔ Within P x ∧ ∀ a, x.value = some a → Within P (f a) := by
  rw [tryBind, within_bind_iff]
  cases x.value <;> simp

end Traced

end Soc.Library
