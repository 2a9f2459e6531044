import Mathlib.Data.List.Range
import Mathlib.Logic.Function.Basic

/-!
# Ring buffers

A ring of `n` cells with a producer and a consumer index, both below `n`. `queued` is the
list of elements between the two, and the two lemmas about it are the queue laws: storing
at the producer index appends, as long as one cell stays free, and stepping the consumer
index drops the head. `Tracks` is the same seen from the cells: which of them hold an
element that was stored and not taken yet.
-/

namespace Soc.Library.Ring

variable {α : Type*} {n produce consume : Nat} (buf : Nat → α)

/-- The index after `i` in a ring of `n` cells. -/
def next (n i : Nat) : Nat := (i + 1) % n

/-- The number of elements between the two indices. -/
def count (n produce consume : Nat) : Nat := (produce + n - consume) % n

/-- The elements between the two indices, oldest first. -/
def queued (n : Nat) (buf : Nat → α) (produce consume : Nat) : List α :=
  (List.range (count n produce consume)).map fun i => buf ((consume + i) % n)

/-- Stepping an index stays inside the ring. -/
theorem next_lt (h : produce < n) : next n produce < n :=
  Nat.mod_lt _ (by omega)

/-- `count` without the modulus. -/
theorem count_eq (hp : produce < n) (hc : consume < n) :
    count n produce consume =
      if consume ≤ produce then produce - consume else produce + n - consume := by
  unfold count
  split
  · rw [show produce + n - consume = produce - consume + n by omega, Nat.add_mod_right,
      Nat.mod_eq_of_lt (by omega)]
  · exact Nat.mod_eq_of_lt (by omega)

/-- `next` without the modulus. -/
theorem next_eq (h : produce < n) :
    next n produce = if produce + 1 = n then 0 else produce + 1 := by
  unfold next
  split
  · simp [*]
  · exact Nat.mod_eq_of_lt (by omega)

/-- The number of queued elements. -/
@[simp] theorem queued_length :
    (queued n buf produce consume).length = count n produce consume := by
  simp [queued]

/-- The ring is empty exactly when the indices coincide. -/
theorem queued_eq_nil (hp : produce < n) (hc : consume < n) :
    queued n buf produce consume = [] ↔ produce = consume := by
  rw [← List.length_eq_zero_iff, queued_length, count_eq hp hc]
  split <;> omega

/-- A store at the producer index is not seen through the queued elements. -/
theorem queued_update (hp : produce < n) (hc : consume < n) (x : α) :
    queued n (Function.update buf produce x) produce consume = queued n buf produce consume := by
  unfold queued
  refine List.map_congr_left fun i hi => Function.update_of_ne ?_ _ _
  rw [List.mem_range, count_eq hp hc] at hi
  by_cases hwrap : consume + i < n
  · rw [Nat.mod_eq_of_lt hwrap]
    split at hi <;> omega
  · rw [Nat.mod_eq_sub_mod (by omega), Nat.mod_eq_of_lt (by split at hi <;> omega)]
    split at hi <;> omega

/-- Stepping the producer index appends the element it pointed to. -/
theorem queued_push (hp : produce < n) (hc : consume < n)
    (hroom : count n produce consume + 1 < n) :
    queued n buf (next n produce) consume = queued n buf produce consume ++ [buf produce] := by
  have hcount : count n (next n produce) consume = count n produce consume + 1 := by
    rw [count_eq hp hc] at hroom
    rw [count_eq (next_lt hp) hc, count_eq hp hc, next_eq hp]
    split at hroom <;> split <;> split <;> omega
  have hlast : (consume + count n produce consume) % n = produce := by
    rw [count_eq hp hc]
    split
    · rw [show consume + (produce - consume) = produce by omega, Nat.mod_eq_of_lt hp]
    · rw [show consume + (produce + n - consume) = produce + n by omega, Nat.add_mod_right,
        Nat.mod_eq_of_lt hp]
  simp [queued, hcount, List.range_succ, hlast]

/-- Stepping the consumer index of a ring that is not empty leaves one element less. -/
theorem count_pop (hp : produce < n) (hc : consume < n) (hne : produce ≠ consume) :
    count n produce consume = count n produce (next n consume) + 1 := by
  rw [count_eq hp hc, count_eq hp (next_lt hc), next_eq hc]
  split <;> split <;> split <;> omega

/-- Stepping the consumer index drops the oldest element. -/
theorem queued_pop (hp : produce < n) (hc : consume < n) (hne : produce ≠ consume) :
    queued n buf produce consume = buf consume :: queued n buf produce (next n consume) := by
  have hcount := count_pop hp hc hne
  have hindex (i : Nat) : (consume + (i + 1)) % n = (next n consume + i) % n := by
    rw [next, Nat.mod_add_mod, Nat.add_right_comm, Nat.add_assoc]
  simp only [queued, hcount, List.range_succ_eq_map, List.map_cons, List.map_map, Nat.add_zero,
    Nat.mod_eq_of_lt hc, List.cons.injEq, true_and]
  refine List.map_congr_left fun i _ => ?_
  simp only [Function.comp_apply, Nat.succ_eq_add_one, hindex]

/-! ## Which cells are occupied -/

/-- Cell `i` lies between the two indices. -/
def Between (n produce consume i : Nat) : Prop := count n i consume < count n produce consume

section Between

variable {i : Nat}

/-- Stepping the producer index adds the cell it pointed to. -/
theorem between_push (hp : produce < n) (hc : consume < n) (hi : i < n)
    (hroom : count n produce consume + 1 < n) :
    Between n (next n produce) consume i ↔ Between n produce consume i ∨ i = produce := by
  rw [count_eq hp hc] at hroom
  rw [Between, Between, count_eq hi hc, count_eq hp hc, count_eq (next_lt hp) hc, next_eq hp]
  split at hroom <;> split <;> split <;> split <;> omega

/-- Stepping the consumer index removes the cell it pointed to. -/
theorem between_pop (hp : produce < n) (hc : consume < n) (hi : i < n) (hne : produce ≠ consume) :
    Between n produce (next n consume) i ↔ Between n produce consume i ∧ i ≠ consume := by
  rw [Between, Between, count_eq hi hc, count_eq hp hc, count_eq hi (next_lt hc),
    count_eq hp (next_lt hc), next_eq hc]
  split <;> split <;> split <;> split <;> split <;> omega

/-- The cell at the producer index is never between the two. -/
theorem not_between_produce : ¬ Between n produce consume produce := by
  simp [Between]

/-- Equal indices have no cell between them. -/
theorem not_between_self (hc : consume < n) : ¬ Between n consume consume i := by
  simp [Between, count_eq hc hc]

end Between

/-- Stepping the producer index of a ring with a single free cell makes the indices equal. -/
theorem next_eq_of_full (hp : produce < n) (hc : consume < n)
    (hfull : ¬ count n produce consume + 1 < n) : next n produce = consume := by
  rw [count_eq hp hc] at hfull
  rw [next_eq hp]
  split at hfull <;> split <;> omega

/-- Stepping the producer index of a ring with room does not make the indices equal. -/
theorem next_ne (hp : produce < n) (hc : consume < n) (hroom : count n produce consume + 1 < n) :
    next n produce ≠ consume := by
  rw [count_eq hp hc] at hroom
  rw [next_eq hp]
  split at hroom <;> split <;> omega

/-- The cells that hold an element not taken yet are those between the indices, where the oldest
may be `taken` already while the consumer index still points to it. -/
structure Tracks (n produce consume : Nat) (taken : Bool) (full : Nat → Bool) : Prop where
  produce_lt : produce < n
  consume_lt : consume < n
  nonempty : taken = true → produce ≠ consume
  cells : ∀ i < n, full i = true ↔ Between n produce (if taken then next n consume else consume) i

namespace Tracks

variable {taken : Bool} {full : Nat → Bool}

/-- The consumer side, as far as the cells are concerned. -/
theorem taker_lt (h : Tracks n produce consume taken full) :
    (if taken then next n consume else consume) < n := by
  cases taken with
  | false => exact h.consume_lt
  | true => exact next_lt h.consume_lt

/-- A ring whose cells are all free, with equal indices. -/
theorem empty (hc : consume < n) (hfree : ∀ i < n, full i = false) :
    Tracks n consume consume false full :=
  ⟨hc, hc, by simp, fun i hi => by simp [hfree i hi, not_between_self hc]⟩

/-- The cell at the producer index is free. -/
theorem free (h : Tracks n produce consume taken full) : full produce = false :=
  Bool.eq_false_iff.2 fun hfull => not_between_produce ((h.cells _ h.produce_lt).1 hfull)

/-- Equal indices mean that every cell is free. -/
theorem all_free (h : Tracks n produce consume taken full) (heq : produce = consume) :
    ∀ i < n, full i = false := by
  intro i hi
  cases htaken : taken with
  | true => exact absurd heq (h.nonempty htaken)
  | false =>
      refine Bool.eq_false_iff.2 fun hfull => ?_
      have hbetween := (h.cells i hi).1 hfull
      rw [htaken, heq] at hbetween
      exact not_between_self h.consume_lt hbetween

/-- With one cell to spare, an element is stored and the producer index stepped. -/
theorem push (h : Tracks n produce consume taken full)
    (hroom : count n produce consume + 1 < n) :
    Tracks n (next n produce) consume taken (Function.update full produce true) := by
  have hspare : count n produce (if taken then next n consume else consume) + 1 < n := by
    cases htaken : taken with
    | false => exact hroom
    | true =>
        have hcount := count_pop h.produce_lt h.consume_lt (h.nonempty htaken)
        show count n produce (next n consume) + 1 < n
        omega
  refine ⟨next_lt h.produce_lt, h.consume_lt, fun _ => next_ne h.produce_lt h.consume_lt hroom,
    fun i hi => ?_⟩
  rw [between_push h.produce_lt h.taker_lt hi hspare, Function.update_apply]
  by_cases heq : i = produce
  · simp [heq]
  · simp [heq, h.cells i hi]

/-- The oldest element is taken, before the consumer index is stepped. -/
theorem take (h : Tracks n produce consume false full) (hne : produce ≠ consume) :
    Tracks n produce consume true (Function.update full consume false) := by
  refine ⟨h.produce_lt, h.consume_lt, fun _ => hne, fun i hi => ?_⟩
  have hcell := h.cells i hi
  simp only [Bool.false_eq_true, if_false, if_true] at hcell ⊢
  rw [between_pop h.produce_lt h.consume_lt hi hne, Function.update_apply]
  by_cases heq : i = consume
  · simp [heq]
  · simp [heq, hcell]

/-- The consumer index is stepped over the element taken. -/
theorem pop (h : Tracks n produce consume true full) :
    Tracks n produce (next n consume) false full :=
  ⟨h.produce_lt, next_lt h.consume_lt, by simp, h.cells⟩

end Tracks

end Soc.Library.Ring
