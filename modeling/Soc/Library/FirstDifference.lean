import Mathlib.Tactic.Basic

/-!
# The first difference of two lists

Comparisons of strings and of memory areas look for the first place where two lists differ, and
decide there. The place of a third list's difference from the second one says where the first
and the third list differ.
-/

namespace Soc.Library

variable {α : Type*}

/-- The lists agree in their first `i` elements, and the next ones are the different `x` and `y`. -/
inductive FirstDiffer : List α → List α → Nat → α → α → Prop where
  | here {x y : α} {l m : List α} : x ≠ y → FirstDiffer (x :: l) (y :: m) 0 x y
  | later {a : α} {l m : List α} {i : Nat} {x y : α} :
      FirstDiffer l m i x y → FirstDiffer (a :: l) (a :: m) (i + 1) x y

namespace FirstDiffer

variable {l m n : List α} {i j : Nat} {x y y' z : α}

/-- The other list differs at the same place. -/
theorem symm (h : FirstDiffer l m i x y) : FirstDiffer m l i y x := by
  induction h with
  | here hne => exact .here (Ne.symm hne)
  | later _ ih => exact .later ih

/-- The elements of a difference are different. -/
theorem ne (h : FirstDiffer l m i x y) : x ≠ y := by
  induction h with
  | here hne => exact hne
  | later _ ih => exact ih

/-- A list does not differ from itself. -/
theorem irrefl : ¬ FirstDiffer l l i x y := by
  intro h
  induction l generalizing i with
  | nil => cases h
  | cons a l ih =>
      cases h with
      | here hne => exact hne rfl
      | later h => exact ih h

/-- There is one first difference. -/
theorem unique (h : FirstDiffer l m i x y) {x' : α} (h' : FirstDiffer l m j x' y') :
    i = j ∧ x = x' ∧ y = y' := by
  induction h generalizing j with
  | here hne =>
      cases h' with
      | here _ => exact ⟨rfl, rfl, rfl⟩
      | later _ => exact absurd rfl hne
  | later _ ih =>
      cases h' with
      | here hne => exact absurd rfl hne
      | later h' =>
          obtain ⟨rfl, rfl, rfl⟩ := ih h'
          exact ⟨rfl, rfl, rfl⟩

/-- An earlier difference of the first two lists is the one of the first and the third. -/
theorem trans_of_lt (h : FirstDiffer l m i x y) (h' : FirstDiffer m n j y' z) (hlt : i < j) :
    FirstDiffer l n i x y := by
  induction h generalizing n j with
  | here hne =>
      cases h' with
      | here _ => exact absurd hlt (Nat.lt_irrefl 0)
      | later _ => exact .here hne
  | later _ ih =>
      cases h' with
      | here _ => exact absurd hlt (Nat.not_lt_zero _)
      | later h' => exact .later (ih h' (Nat.lt_of_succ_lt_succ hlt))

/-- At one place, the second list has one element. -/
theorem middle (h : FirstDiffer l m i x y) (h' : FirstDiffer m n i y' z) : y = y' := by
  induction h generalizing n with
  | here _ => cases h'; rfl
  | later _ ih =>
      cases h' with
      | later h' => exact ih h'

/-- Two differences at one place are one of the first and the third list, unless these have the
same element there. -/
theorem trans_of_ne (h : FirstDiffer l m i x y) (h' : FirstDiffer m n i y' z) (hne : x ≠ z) :
    FirstDiffer l n i x z := by
  induction h generalizing n with
  | here _ =>
      cases h' with
      | here _ => exact .here hne
  | later _ ih =>
      cases h' with
      | later h' => exact .later (ih h' hne)

end FirstDiffer

/-- Different lists without the terminator differ when they are terminated. -/
theorem exists_firstDiffer {stop : α} {l m : List α} (hl : stop ∉ l) (hm : stop ∉ m) (h : l ≠ m) :
    ∃ i x y, FirstDiffer (l ++ [stop]) (m ++ [stop]) i x y := by
  induction l generalizing m with
  | nil =>
      cases m with
      | nil => exact absurd rfl h
      | cons b m => exact ⟨0, stop, b, .here (List.ne_of_not_mem_cons hm)⟩
  | cons a l ih =>
      cases m with
      | nil => exact ⟨0, a, stop, .here (Ne.symm (List.ne_of_not_mem_cons hl))⟩
      | cons b m =>
          by_cases hab : a = b
          · subst hab
            obtain ⟨i, x, y, hdiff⟩ := ih (List.not_mem_of_not_mem_cons hl)
              (List.not_mem_of_not_mem_cons hm) fun heq => h (by rw [heq])
            exact ⟨i + 1, x, y, .later hdiff⟩
          · exact ⟨0, a, b, .here hab⟩

end Soc.Library
