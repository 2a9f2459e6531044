import Mathlib.Data.Nat.Basic
import Mathlib.Logic.Function.Basic

/-!
# Regions of a memory

A memory is a function on the addresses of a fixed width. Lists are stored at and loaded from
consecutive addresses, which wrap around at the end of the address space.
-/

namespace Soc.Library.Region

variable {w : Nat} {α : Type*}

/-- The address lies among the `n` addresses from `a` on. -/
def Covers (a : BitVec w) (n : Nat) (b : BitVec w) : Prop := (b - a).toNat < n

instance (a : BitVec w) (n : Nat) (b : BitVec w) : Decidable (Covers a n b) :=
  inferInstanceAs (Decidable (_ < _))

/-- The memory after a list was stored at consecutive addresses. -/
def store (m : BitVec w → α) (a : BitVec w) : List α → BitVec w → α
  | [] => m
  | x :: xs => store (Function.update m a x) (a + 1) xs

/-- The list at consecutive addresses. -/
def load (m : BitVec w → α) (a : BitVec w) : Nat → List α
  | 0 => []
  | n + 1 => m a :: load m (a + 1) n

variable {m m' : BitVec w → α} {a b : BitVec w} {n : Nat}

@[simp] theorem store_nil : store m a [] = m := rfl

@[simp] theorem load_zero : load m a 0 = [] := rfl

@[simp] theorem load_length : (load m a n).length = n := by
  induction n generalizing a with
  | zero => rfl
  | succ n ih => rw [load, List.length_cons, ih]

/-- The distance from the next address. -/
theorem sub_toNat (h : b ≠ a) : (b - a).toNat = (b - (a + 1)).toNat + 1 := by
  have hstep : b - a = b - (a + 1) + 1 := by grind
  have hne : b - a ≠ 0 := by
    intro hzero
    exact h (by grind)
  have hlt := (b - (a + 1)).isLt
  have hpos : (b - a).toNat ≠ 0 := by
    intro hzero
    exact hne (BitVec.eq_of_toNat_eq hzero)
  rw [hstep, BitVec.toNat_add] at hpos ⊢
  cases w with
  | zero => exact absurd (Subsingleton.elim _ _) h
  | succ w =>
      have hone : (1 : BitVec (w + 1)).toNat = 1 := by simp
      rw [hone] at hpos ⊢
      by_cases hwrap : (b - (a + 1)).toNat + 1 < 2 ^ (w + 1)
      · exact Nat.mod_eq_of_lt hwrap
      · have hfull : (b - (a + 1)).toNat + 1 = 2 ^ (w + 1) := by omega
        rw [hfull, Nat.mod_self] at hpos
        exact absurd rfl hpos

/-- The addresses from the next one on. -/
theorem Covers.succ (h : Covers (a + 1) n b) : b = a ∨ Covers a (n + 1) b := by
  by_cases heq : b = a
  · exact .inl heq
  · refine .inr ?_
    rw [Covers, sub_toNat heq]
    exact Nat.succ_lt_succ h

/-- Another address keeps its content. -/
theorem store_outside {xs : List α} (h : ¬ Covers a xs.length b) : store m a xs b = m b := by
  induction xs generalizing m a with
  | nil => rfl
  | cons x xs ih =>
      have hne : b ≠ a := by
        rintro rfl
        apply h
        simp [Covers]
      rw [store, ih, Function.update_of_ne hne]
      intro hcovers
      obtain heq | hcovers := hcovers.succ
      · exact hne heq
      · exact h hcovers

/-- The first address of a region is not covered again while the region fits. -/
theorem not_covers_self (h : n < Nat.pow 2 w) : ¬ Covers (a + 1) n a := by
  intro hcovers
  change n < 2 ^ w at h
  have hlast : a - (a + 1) = -1 := by grind
  rw [Covers, hlast, BitVec.toNat_neg] at hcovers
  cases w with
  | zero =>
      have : n = 0 := by omega
      subst this
      exact Nat.not_lt_zero _ hcovers
  | succ w =>
      have hone : (1 : BitVec (w + 1)).toNat = 1 := by simp
      have hpow := Nat.two_pow_pos (w + 1)
      rw [hone, Nat.mod_eq_of_lt (by omega)] at hcovers
      omega

/-- The list just stored is loaded again. -/
theorem load_store_same {xs : List α} (h : xs.length ≤ Nat.pow 2 w) :
    load (store m a xs) a xs.length = xs := by
  induction xs generalizing m a with
  | nil => rfl
  | cons x xs ih =>
      rw [List.length_cons] at h ⊢
      have hfirst : store (Function.update m a x) (a + 1) xs a = x := by
        rw [store_outside (not_covers_self h), Function.update_self]
      rw [store, load, hfirst, ih (Nat.le_of_succ_le h)]

/-- What is loaded depends on the region only. -/
theorem load_congr (h : ∀ c, Covers a n c → m c = m' c) (hn : n ≤ Nat.pow 2 w) :
    load m a n = load m' a n := by
  induction n generalizing a with
  | zero => rfl
  | succ n ih =>
      have hself : Covers a (n + 1) a := by simp [Covers]
      have hrest : ∀ c, Covers (a + 1) n c → m c = m' c := by
        intro c hc
        obtain rfl | hc := hc.succ
        · exact h _ hself
        · exact h c hc
      rw [load, load, h a hself, ih hrest (Nat.le_of_succ_le hn)]

/-- Two lists of one length that leave the same content in their region are equal. -/
theorem store_inj {xs ys : List α} (hlength : xs.length = ys.length)
    (hfits : xs.length ≤ Nat.pow 2 w)
    (h : ∀ c, Covers a xs.length c → store m a xs c = store m' a ys c) : xs = ys := by
  have hload := load_congr h hfits
  rw [load_store_same hfits, hlength, load_store_same (hlength ▸ hfits)] at hload
  exact hload

/-- A region apart from the one stored keeps its content. -/
theorem load_store_other {xs : List α} (h : ∀ c, Covers b n c → ¬ Covers a xs.length c)
    (hn : n ≤ Nat.pow 2 w) : load (store m a xs) b n = load m b n :=
  load_congr (fun c hc => store_outside (h c hc)) hn

/-- Storing what is there changes nothing. -/
theorem store_load : store m a (load m a n) = m := by
  induction n generalizing a with
  | zero => rfl
  | succ n ih => rw [load, store, Function.update_eq_self, ih]

/-- The address `n + 1` further on. -/
theorem succ_add (a : BitVec w) (n : Nat) : a + 1 + .ofNat w n = a + .ofNat w (n + 1) := by
  rw [BitVec.add_assoc, BitVec.add_comm 1]
  congr 1
  apply BitVec.eq_of_toNat_eq
  simp [BitVec.toNat_add]

/-- The addresses of a region in order. -/
theorem covers_add {i : Nat} (hi : i < n) : Covers a n (a + .ofNat w i) := by
  have hsub : a + .ofNat w i - a = .ofNat w i := by grind
  rw [Covers, hsub, BitVec.toNat_ofNat]
  exact Nat.lt_of_le_of_lt (Nat.mod_le _ _) hi

/-- The end of a region lies in it. -/
theorem Covers.of_add {k : Nat} (h : Covers (a + .ofNat w k) n b) : Covers a (k + n) b := by
  have hsub : b - a = b - (a + .ofNat w k) + .ofNat w k := by grind
  have hle : (b - (a + .ofNat w k)).toNat + k < k + n := by
    rw [Covers] at h
    omega
  rw [Covers, hsub, BitVec.toNat_add, BitVec.toNat_ofNat, Nat.add_mod_mod]
  exact Nat.lt_of_le_of_lt (Nat.mod_le _ _) hle

/-- The addresses before the end of a region do not lie in it. -/
theorem not_covers_add {i k : Nat} (hi : i < k) (hfits : k + n ≤ Nat.pow 2 w) :
    ¬ Covers (a + .ofNat w k) n (a + .ofNat w i) := by
  change k + n ≤ 2 ^ w at hfits
  have hsub : a + .ofNat w i - (a + .ofNat w k) = .ofNat w i - .ofNat w k := by grind
  rw [Covers, hsub, BitVec.toNat_sub, BitVec.toNat_ofNat, BitVec.toNat_ofNat]
  cases n with
  | zero => exact Nat.not_lt_zero _
  | succ n =>
      rw [Nat.mod_eq_of_lt (by omega : k < 2 ^ w), Nat.mod_eq_of_lt (by omega : i < 2 ^ w),
        Nat.mod_eq_of_lt (by omega)]
      omega

/-- An element of the list that is loaded. -/
theorem getElem?_load {i : Nat} (hi : i < n) : (load m a n)[i]? = some (m (a + .ofNat w i)) := by
  induction n generalizing a i with
  | zero => exact absurd hi (Nat.not_lt_zero i)
  | succ n ih =>
      cases i with
      | zero => simp [load]
      | succ i => rw [load, List.getElem?_cons_succ, ih (Nat.lt_of_succ_lt_succ hi), succ_add]

/-- An element of the list that was stored. -/
theorem store_inside {xs : List α} {i : Nat} {x : α} (hfits : xs.length ≤ Nat.pow 2 w)
    (hx : xs[i]? = some x) : store m a xs (a + .ofNat w i) = x := by
  have hi : i < xs.length := (List.getElem?_eq_some_iff.1 hx).1
  have hload := getElem?_load (m := store m a xs) (a := a) hi
  rw [load_store_same hfits, hx] at hload
  exact (Option.some.inj hload).symm

/-- Loading one list behind another. -/
theorem load_add (k : Nat) : load m a (n + k) = load m a n ++ load m (a + .ofNat w n) k := by
  induction n generalizing a with
  | zero => simp
  | succ n ih =>
      rw [Nat.succ_add, load, load, ih, succ_add, List.cons_append]

/-- Memories that agree on a region still do after the same list was stored. -/
theorem store_congr {xs : List α} (h : m b = m' b) : store m a xs b = store m' a xs b := by
  induction xs generalizing m m' a with
  | nil => exact h
  | cons x xs ih =>
      rw [store, store]
      apply ih
      by_cases heq : b = a
      · subst heq
        rw [Function.update_self, Function.update_self]
      · rw [Function.update_of_ne heq, Function.update_of_ne heq, h]

end Soc.Library.Region
