import Soc.Csr
import Soc.Library.PiecewiseCopy

/-!
# Copying memory

`memcpy` of `libbase/libc.c`. It aligns the destination, copies words, and copies what is left. An
access of this CPU to an address that is not aligned goes to the aligned address below it, with no
trap, so a source that lies differently in its words is copied from other places. The number of
bytes is an `int`, as `size_t` is, and a negative one lets the loop run through the whole memory.
`memcpy_copies_iff` says which regions are copied.
-/

namespace Soc.Libbase

open Library.PiecewiseCopy (Copy Same Settled total)
open Library.Region (Covers)

namespace Memcpy

/-- Where an access of some size goes: the load/store unit and the RAM ignore bit 0 of the address
of a halfword, and bits 1 and 0 of the address of a word. -/
def accessed (size : Nat) (a : Word) : Word := a &&& ~~~.ofNat 32 (size - 1)

/-- `*xto++ = *xfrom++`, for pointers to elements of some size. -/
def step (size : Nat) (c : Copy 32 Byte) : Copy 32 Byte := c.piece accessed size

/-- The loop over `long`s, with `temp` rounds to go until `temp` is 0. -/
def longs : Nat → Copy 32 Byte → Copy 32 Byte
  | 0, c => c
  | temp + 1, c => longs temp (step 4 c)

end Memcpy

open Memcpy

/-- `memcpy`: the memory after it, and what it returns. `n` is an `int`. -/
def memcpy (mem : Word → Byte) (dest src n : Word) : (Word → Byte) × Word :=
  let xto := dest
  if n = 0 then (mem, xto)
  else
    let c : Copy 32 Byte := ⟨mem, dest, src⟩
    let (c, n) := if c.dest &&& 1 ≠ 0 then (step 1 c, n - 1) else (c, n)
    let (c, n) := if (2 : Word).slt n ∧ c.dest &&& 2 ≠ 0 then (step 2 c, n - 2) else (c, n)
    let temp := n.sshiftRight 2
    let c := if temp ≠ 0 then longs temp.toNat c else c
    let c := if n &&& 2 ≠ 0 then step 2 c else c
    let c := if n &&& 1 ≠ 0 then step 1 c else c
    (c.mem, xto)

namespace Memcpy

/-- The sizes of the accesses once the destination is aligned to words, or less than a word is
left. -/
def rest (n : Word) : List Nat :=
  List.replicate (n.sshiftRight 2).toNat 4 ++ List.replicate (n.toNat / 2 % 2) 2 ++
    List.replicate (n.toNat % 2) 1

/-- The sizes of the accesses from an even destination on. -/
def aligned (dest n : Word) : List Nat :=
  if (2 : Word).slt n ∧ dest &&& 2 ≠ 0 then 2 :: rest (n - 2) else rest n

/-- The sizes of the accesses. -/
def accesses (dest n : Word) : List Nat :=
  if n = 0 then []
  else if dest &&& 1 ≠ 0 then 1 :: aligned (dest + 1) (n - 1)
  else aligned dest n

/-- The number of halfwords, 0 or 1, that align an even destination. -/
def halves (dest n : Nat) : Nat := if 2 < n ∧ dest / 2 % 2 = 1 then 1 else 0

/-- The same sizes for a number of bytes that is not negative. -/
def plan (dest n : Nat) : List Nat :=
  if n = 0 then []
  else
    let first := dest % 2
    let n := n - first
    let second := halves (dest + first) n
    let n := n - 2 * second
    List.replicate first 1 ++ (List.replicate second 2 ++ (List.replicate (n / 4) 4 ++
      List.replicate (n / 2 % 2) 2 ++ List.replicate (n % 2) 1))

/-- When there is such a halfword. -/
theorem halves_cases (dest n : Nat) :
    2 < n ∧ dest / 2 % 2 = 1 ∧ halves dest n = 1 ∨
      ¬ (2 < n ∧ dest / 2 % 2 = 1) ∧ halves dest n = 0 := by
  unfold halves
  split
  · rename_i h
    exact .inl ⟨h.1, h.2, rfl⟩
  · rename_i h
    exact .inr ⟨h, rfl⟩

/-- A bit of a word, as C tests it. -/
theorem and_twoPow_ne_zero (w : Word) {i : Nat} (hi : i < 32) :
    w &&& .twoPow 32 i ≠ 0 ↔ w.toNat.testBit i = true := by
  have htest := test_twoPow w i hi
  rw [bit, BitVec.getLsbD] at htest
  rw [← htest, test, bne_iff_ne]

/-- Bit 0 of a word. -/
theorem and_one_ne_zero (w : Word) : w &&& 1 ≠ 0 ↔ w.toNat % 2 = 1 := by
  have hbit := and_twoPow_ne_zero w (i := 0) (by decide)
  rwa [Nat.testBit_zero, decide_eq_true_iff] at hbit

/-- Bit 1 of a word. -/
theorem and_two_ne_zero (w : Word) : w &&& 2 ≠ 0 ↔ w.toNat / 2 % 2 = 1 := by
  have hbit := and_twoPow_ne_zero w (i := 1) (by decide)
  rwa [Nat.testBit_succ, Nat.testBit_zero, decide_eq_true_iff] at hbit

/-- A number that is not negative. -/
theorem slt_zero_iff (n : Word) : n.slt 0 = false ↔ n.toNat < 2147483648 := by
  have hzero : (0 : Word).toInt = 0 := rfl
  have hn := n.isLt
  rw [Bool.eq_false_iff, ne_eq, BitVec.slt_iff_toInt_lt, hzero, BitVec.toInt_eq_toNat_cond]
  split <;> omega

/-- Its value as an `int`. -/
theorem toInt_of_nonneg {n : Word} (hn : n.slt 0 = false) : n.toInt = n.toNat := by
  have hsmall := (slt_zero_iff n).1 hn
  rw [BitVec.toInt_eq_toNat_cond, if_pos (by omega)]

/-- The number of words. -/
theorem sshiftRight_two {n : Word} (hn : n.slt 0 = false) :
    (n.sshiftRight 2).toNat = n.toNat / 4 := by
  have hmsb : n.msb = false := by
    rw [BitVec.msb_eq_false_iff_two_mul_lt]
    have hsmall := (slt_zero_iff n).1 hn
    omega
  rw [BitVec.sshiftRight_eq_of_msb_false hmsb, BitVec.toNat_ushiftRight,
    Nat.shiftRight_eq_div_pow]

/-- A negative number of words. -/
theorem sshiftRight_ne_zero {n : Word} (hn : n.slt 0 = true) : (n.sshiftRight 2).toNat ≠ 0 := by
  intro hzero
  have hshift : (n.sshiftRight 2).toInt = n.toInt >>> (2 : Nat) := BitVec.toInt_sshiftRight
  rw [BitVec.eq_of_toNat_eq (hzero.trans rfl : (n.sshiftRight 2).toNat = (0 : Word).toNat),
    Int.shiftRight_eq_div_pow] at hshift
  have hneg : n.toInt < 0 := BitVec.slt_iff_toInt_lt.1 hn
  have hzero' : (0 : Word).toInt = 0 := rfl
  omega

variable {c : Copy 32 Byte}

/-- The loop over `long`s copies words. -/
theorem longs_eq (temp : Nat) : longs temp c = c.pieces accessed (List.replicate temp 4) := by
  induction temp generalizing c with
  | zero => rfl
  | succ temp ih => exact ih

/-- The loop is left out if there are no words. -/
theorem ite_longs (temp : Word) : (if temp ≠ 0 then longs temp.toNat c else c) =
    c.pieces accessed (List.replicate temp.toNat 4) := by
  split
  · exact longs_eq temp.toNat
  · rename_i h
    rw [Decidable.not_not.1 h]
    rfl

/-- An access that depends on a bit. -/
theorem ite_step {p : Prop} [Decidable p] {k : Nat} (h : p ↔ k % 2 = 1) (size : Nat) :
    (if p then step size c else c) = c.pieces accessed (List.replicate (k % 2) size) := by
  by_cases hp : p
  · rw [if_pos hp, h.1 hp]
    rfl
  · have hodd : ¬ k % 2 = 1 := fun hodd => hp (h.2 hodd)
    have hk : k % 2 = 0 := by omega
    rw [if_neg hp, hk]
    rfl

/-- The pieces of one list, and then those of another. -/
theorem pieces_append (l m : List Nat) :
    (c.pieces accessed l).pieces accessed m = c.pieces accessed (l ++ m) :=
  List.foldl_append.symm

/-- What is left when the destination is aligned. -/
theorem rest_eq (n : Word) :
    (let c := if n.sshiftRight 2 ≠ 0 then longs (n.sshiftRight 2).toNat c else c
     let c := if n &&& 2 ≠ 0 then step 2 c else c
     if n &&& 1 ≠ 0 then step 1 c else c) = c.pieces accessed (rest n) := by
  dsimp only
  rw [ite_longs, ite_step (and_two_ne_zero n), ite_step (and_one_ne_zero n), pieces_append,
    pieces_append, rest, List.append_assoc]

/-- The second stage, and the rest. -/
theorem aligned_eq (n : Word) :
    (let (c, n) := if (2 : Word).slt n ∧ c.dest &&& 2 ≠ 0 then (step 2 c, n - 2) else (c, n)
     let c := if n.sshiftRight 2 ≠ 0 then longs (n.sshiftRight 2).toNat c else c
     let c := if n &&& 2 ≠ 0 then step 2 c else c
     if n &&& 1 ≠ 0 then step 1 c else c) = c.pieces accessed (aligned c.dest n) := by
  rw [aligned]
  by_cases h : (2 : Word).slt n ∧ c.dest &&& 2 ≠ 0
  · rw [if_pos h, if_pos h]
    exact rest_eq (c := step 2 c) (n - 2)
  · rw [if_neg h, if_neg h]
    exact rest_eq n

/-- `memcpy` makes these accesses. -/
theorem memcpy_eq (mem : Word → Byte) (dest src n : Word) : memcpy mem dest src n =
    (((Copy.mk mem dest src).pieces accessed (accesses dest n)).mem, dest) := by
  unfold memcpy accesses
  by_cases hn : n = 0
  · rw [if_pos hn, if_pos hn]
    rfl
  · rw [if_neg hn, if_neg hn]
    dsimp only
    by_cases hodd : dest &&& 1 ≠ 0
    · rw [if_pos hodd, if_pos hodd]
      exact congrArg (fun c => (c.mem, dest)) (aligned_eq (c := step 1 ⟨mem, dest, src⟩) (n - 1))
    · rw [if_neg hodd, if_neg hodd]
      exact congrArg (fun c => (c.mem, dest)) (aligned_eq (c := ⟨mem, dest, src⟩) n)

/-- What is left of a number that is not negative. -/
theorem rest_of_nonneg {n : Word} (hn : n.slt 0 = false) : rest n =
    List.replicate (n.toNat / 4) 4 ++ List.replicate (n.toNat / 2 % 2) 2 ++
      List.replicate (n.toNat % 2) 1 := by
  rw [rest, sshiftRight_two hn]

/-- The second stage. Only bit 1 of the destination counts. -/
theorem aligned_of_nonneg {dest n : Word} (hn : n.slt 0 = false) {d : Nat}
    (hd : dest.toNat / 2 % 2 = d / 2 % 2) : aligned dest n =
      let second := halves d n.toNat
      let rest := n.toNat - 2 * second
      List.replicate second 2 ++ (List.replicate (rest / 4) 4 ++ List.replicate (rest / 2 % 2) 2 ++
        List.replicate (rest % 2) 1) := by
  have hsmall := (slt_zero_iff n).1 hn
  have hlt : (2 : Word).slt n = true ↔ 2 < n.toNat := by
    have htwo : (2 : Word).toInt = 2 := rfl
    rw [BitVec.slt_iff_toInt_lt, htwo, BitVec.toInt_eq_toNat_cond, if_pos (by omega)]
    omega
  have hcond : ((2 : Word).slt n = true ∧ dest &&& 2 ≠ 0) ↔ (2 < n.toNat ∧ d / 2 % 2 = 1) := by
    rw [and_two_ne_zero, hd, hlt]
  rw [aligned]
  by_cases h : 2 < n.toNat ∧ d / 2 % 2 = 1
  · have hsub : (n - 2).toNat = n.toNat - 2 := by bv_omega
    have hnonneg : (n - 2).slt 0 = false := by
      rw [slt_zero_iff, hsub]
      omega
    rw [if_pos (hcond.2 h), halves, if_pos h, rest_of_nonneg hnonneg, hsub]
    rfl
  · rw [if_neg fun h' => h (hcond.1 h'), halves, if_neg h, rest_of_nonneg hn]
    rfl

/-- The accesses for a number of bytes that is not negative. -/
theorem accesses_eq_plan (dest : Word) {n : Word} (hn : n.slt 0 = false) :
    accesses dest n = plan dest.toNat n.toNat := by
  unfold accesses plan
  by_cases hzero : n = 0
  · subst hzero
    rfl
  have hpos : n.toNat ≠ 0 := fun h => hzero (BitVec.eq_of_toNat_eq h)
  rw [if_neg hzero, if_neg hpos]
  dsimp only
  by_cases hodd : dest.toNat % 2 = 1
  · have hn' : (n - 1).toNat = n.toNat - 1 := by bv_omega
    have hnonneg : (n - 1).slt 0 = false := by
      rw [slt_zero_iff] at hn ⊢
      omega
    have hdest : (dest + 1).toNat / 2 % 2 = (dest.toNat + 1) / 2 % 2 := by bv_omega
    rw [if_pos ((and_one_ne_zero dest).2 hodd), aligned_of_nonneg hnonneg hdest, hn', hodd]
    rfl
  · have heven : dest.toNat % 2 = 0 := by omega
    rw [if_neg fun h => hodd ((and_one_ne_zero dest).1 h), aligned_of_nonneg hn rfl, heven]
    rfl

/-- The accesses are to bytes, halfwords and words. -/
theorem mem_plan {dest n size : Nat} (h : size ∈ plan dest n) :
    size = 1 ∨ size = 2 ∨ size = 4 := by
  unfold plan at h
  split at h
  · exact absurd h List.not_mem_nil
  · simp only [List.mem_append, List.mem_replicate] at h
    omega

/-- The accesses are to all bytes. -/
theorem total_plan (dest n : Nat) : total (plan dest n) = n := by
  unfold plan
  split
  · rename_i h
    exact h.symm
  · have hcases := halves_cases (dest + dest % 2) (n - dest % 2)
    simp only [Library.PiecewiseCopy.total_append, Library.PiecewiseCopy.total_replicate]
    omega

/-- There are words to copy if there is one behind the part that aligns the destination. -/
theorem four_mem_plan (dest n : Nat) :
    4 ∈ plan dest n ↔ 4 + (4 - dest % 4) % 4 ≤ n := by
  unfold plan
  split
  · rename_i h
    simp [h]
  · have hcases := halves_cases (dest + dest % 2) (n - dest % 2)
    simp only [List.mem_append, List.mem_replicate, and_true]
    omega

/-- There are halfwords or words to copy if two bytes are left behind an odd address. -/
theorem two_mem_plan (dest n : Nat) :
    2 ∈ plan dest n ∨ 4 ∈ plan dest n ↔ 2 + dest % 2 ≤ n := by
  unfold plan
  split
  · rename_i h
    simp [h]
  · have hcases := halves_cases (dest + dest % 2) (n - dest % 2)
    simp only [List.mem_append, List.mem_replicate, and_true]
    omega

/-- Clearing the low bits. -/
theorem accessed_shift (k : Nat) (a : Word) : accessed (Nat.pow 2 k) a = (a >>> k) <<< k := by
  apply BitVec.eq_of_getLsbD_eq
  intro i hi
  change (a &&& ~~~BitVec.ofNat 32 (2 ^ k - 1)).getLsbD i = _
  rw [BitVec.getLsbD_and, BitVec.getLsbD_not, BitVec.getLsbD_ofNat, Nat.testBit_two_pow_sub_one,
    BitVec.getLsbD_shiftLeft, BitVec.getLsbD_ushiftRight]
  by_cases hk : i < k
  · simp [hi, hk]
  · have hadd : k + (i - k) = i := by omega
    simp [hi, hk, hadd]

/-- An access goes to the last multiple of the size. -/
theorem accessed_toNat {size : Nat} (hsize : size = 1 ∨ size = 2 ∨ size = 4) (a : Word) :
    (accessed size a).toNat = a.toNat / size * size := by
  have hpow : ∀ k, (accessed (Nat.pow 2 k) a).toNat = a.toNat / Nat.pow 2 k * Nat.pow 2 k := by
    intro k
    have hle : a.toNat / 2 ^ k * 2 ^ k ≤ a.toNat := Nat.div_mul_le_self _ _
    rw [accessed_shift, BitVec.toNat_shiftLeft, BitVec.toNat_ushiftRight,
      Nat.shiftRight_eq_div_pow, Nat.shiftLeft_eq]
    exact Nat.mod_eq_of_lt (Nat.lt_of_le_of_lt hle a.isLt)
  rcases hsize with rfl | rfl | rfl
  · exact hpow 0
  · exact hpow 1
  · exact hpow 2

/-- An access goes to the address itself if the size divides the address. -/
theorem accessed_eq_iff {size : Nat} (hsize : size = 1 ∨ size = 2 ∨ size = 4) (a : Word) :
    accessed size a = a ↔ a.toNat % size = 0 := by
  rw [← BitVec.toNat_inj, accessed_toNat hsize]
  have hdiv := Nat.div_add_mod' a.toNat size
  omega

/-- Two accesses go to one place if the addresses lie in the same piece of that size. -/
theorem accessed_eq_accessed_iff {size : Nat} (hsize : size = 1 ∨ size = 2 ∨ size = 4)
    (a b : Word) : accessed size a = accessed size b ↔ a.toNat / size = b.toNat / size := by
  rw [← BitVec.toNat_inj, accessed_toNat hsize, accessed_toNat hsize]
  rcases hsize with rfl | rfl | rfl <;> omega

/-- The sizes divide the size of the address space. -/
theorem toNat_add_mod {size : Nat} (hsize : size = 1 ∨ size = 2 ∨ size = 4) (a : Word) (k : Nat) :
    (a + .ofNat 32 k).toNat % size = (a.toNat + k) % size := by
  rw [BitVec.toNat_add, BitVec.toNat_ofNat]
  rcases hsize with rfl | rfl | rfl <;> omega

/-- Equal accesses in a row go where they should if the first one does. -/
theorem settled_replicate {size : Nat} (hsize : size = 1 ∨ size = 2 ∨ size = 4) {a : Word}
    {k : Nat} (h : k ≠ 0 → a.toNat % size = 0) :
    Settled accessed a (List.replicate k size) := by
  induction k generalizing a with
  | zero => trivial
  | succ k ih =>
      have ha := h (Nat.succ_ne_zero k)
      refine ⟨(accessed_eq_iff hsize a).2 ha, ih fun _ => ?_⟩
      rw [toNat_add_mod hsize, Nat.add_mod_right, ha]

/-- All stores go where they should. -/
theorem settled_plan (dest : Word) (n : Nat) : Settled accessed dest (plan dest.toNat n) := by
  unfold plan
  split
  · trivial
  · have hcases := halves_cases (dest.toNat + dest.toNat % 2) (n - dest.toNat % 2)
    simp only [Library.PiecewiseCopy.settled_append, Library.PiecewiseCopy.total_replicate]
    refine ⟨settled_replicate (by decide) fun _ => Nat.mod_one _,
      settled_replicate (by decide) fun hne => ?_, ⟨settled_replicate (by decide) fun hwords => ?_,
        settled_replicate (by decide) fun hlast => ?_⟩,
      settled_replicate (by decide) fun _ => Nat.mod_one _⟩
    · rw [toNat_add_mod (by decide)]
      omega
    · rw [← Library.PiecewiseCopy.add_ofNat_add, toNat_add_mod (by decide)]
      omega
    · rw [← Library.PiecewiseCopy.add_ofNat_add, ← Library.PiecewiseCopy.add_ofNat_add,
        toNat_add_mod (by decide)]
      omega

/-- Where the stores go where they should, the loads do if the sizes divide the distance of the
regions. -/
theorem settled_src_iff {dest src : Word} {sizes : List Nat}
    (hsizes : ∀ size ∈ sizes, size = 1 ∨ size = 2 ∨ size = 4)
    (hdest : Settled accessed dest sizes) :
    Settled accessed src sizes ↔ ∀ size ∈ sizes, (src - dest).toNat % size = 0 := by
  induction sizes generalizing dest src with
  | nil => exact iff_of_true trivial fun _ h => absurd h List.not_mem_nil
  | cons size sizes ih =>
      have hsize := hsizes size List.mem_cons_self
      have hself := (accessed_eq_iff hsize dest).1 hdest.1
      have hdistance : src + .ofNat 32 size - (dest + .ofNat 32 size) = src - dest := by grind
      have hmod : src.toNat % size = 0 ↔ (src - dest).toNat % size = 0 := by
        rw [BitVec.toNat_sub]
        rcases hsize with rfl | rfl | rfl <;> omega
      rw [Settled, accessed_eq_iff hsize, hmod,
        ih (fun size h => hsizes size (List.mem_cons_of_mem _ h)) hdest.2, hdistance,
        List.forall_mem_cons]

section Negative

/-- The sizes of what is left. -/
theorem mem_rest {n : Word} {size : Nat} : size ∈ rest n ↔
    size = 4 ∧ (n.sshiftRight 2).toNat ≠ 0 ∨ size = 2 ∧ n.toNat / 2 % 2 ≠ 0 ∨
      size = 1 ∧ n.toNat % 2 ≠ 0 := by
  simp only [rest, List.mem_append, List.mem_replicate, or_assoc, and_comm]

/-- The accesses are to bytes, halfwords and words. -/
theorem mem_accesses {dest n : Word} {size : Nat} (h : size ∈ accesses dest n) :
    size = 1 ∨ size = 2 ∨ size = 4 := by
  have hrest : ∀ m : Word, size ∈ rest m → size = 1 ∨ size = 2 ∨ size = 4 := fun m hm => by
    rw [mem_rest] at hm
    omega
  have haligned : ∀ d m : Word, size ∈ aligned d m → size = 1 ∨ size = 2 ∨ size = 4 := by
    intro d m hm
    rw [aligned] at hm
    split at hm
    · rcases List.mem_cons.1 hm with rfl | hm
      · exact .inr (.inl rfl)
      · exact hrest _ hm
    · exact hrest _ hm
  rw [accesses] at h
  split at h
  · exact absurd h List.not_mem_nil
  · split at h
    · rcases List.mem_cons.1 h with rfl | h
      · exact .inl rfl
      · exact haligned _ _ h
    · exact haligned _ _ h

/-- The smallest access for a negative number of bytes. -/
def finest (dest n : Word) : Nat :=
  if dest.toNat % 2 = 1 ∨ n.toNat % 2 = 1 then 1 else if n.toNat % 4 = 2 then 2 else 4

/-- It divides the others. -/
theorem finest_accesses {dest n : Word} (hn : n.slt 0 = true) :
    finest dest n ∈ accesses dest n ∧ ∀ size ∈ accesses dest n, size % finest dest n = 0 := by
  have hne : n ≠ 0 := by
    rintro rfl
    exact absurd hn (by decide)
  rw [accesses, if_neg hne]
  by_cases hodd : dest.toNat % 2 = 1
  · rw [if_pos ((and_one_ne_zero dest).2 hodd), finest, if_pos (.inl hodd)]
    exact ⟨List.mem_cons_self, fun size _ => Nat.mod_one size⟩
  · have hlt : ¬ (2 : Word).slt n := by
      have htwo : (2 : Word).toInt = 2 := rfl
      have hzero : (0 : Word).toInt = 0 := rfl
      rw [BitVec.slt_iff_toInt_lt] at hn ⊢
      omega
    have hwords := sshiftRight_ne_zero hn
    rw [if_neg fun h => hodd ((and_one_ne_zero dest).1 h), aligned, if_neg fun h => hlt h.1, finest]
    simp only [hodd, false_or, mem_rest]
    constructor
    · split
      · omega
      · split <;> omega
    · intro size hsize
      split
      · exact Nat.mod_one size
      · split <;> omega

/-- All accesses go to one place for both addresses if the finest one does. -/
theorem same_iff {sizes : List Nat} {k : Nat} (hk : k = 1 ∨ k = 2 ∨ k = 4) (hmem : k ∈ sizes)
    (hsizes : ∀ size ∈ sizes, (size = 1 ∨ size = 2 ∨ size = 4) ∧ size % k = 0) (dest src : Word) :
    Same accessed dest src sizes ↔ dest.toNat / k = src.toNat / k := by
  have hshift : ∀ (a : Word) (size : Nat), size = 1 ∨ size = 2 ∨ size = 4 →
      (a + .ofNat 32 size).toNat = (a.toNat + size) % 4294967296 := by
    intro a size hsize
    rw [BitVec.toNat_add, BitVec.toNat_ofNat, Nat.add_mod_mod]
  constructor
  · intro hsame
    induction sizes generalizing dest src with
    | nil => exact absurd hmem List.not_mem_nil
    | cons size sizes ih =>
        obtain ⟨hsize, hdvd⟩ := hsizes size List.mem_cons_self
        rcases List.mem_cons.1 hmem with rfl | hmem
        · exact (accessed_eq_accessed_iff hsize dest src).1 hsame.1
        · have hrest := ih hmem (fun size h => hsizes size (List.mem_cons_of_mem _ h)) _ _ hsame.2
          rw [hshift dest size hsize, hshift src size hsize] at hrest
          have hdest := dest.isLt
          have hsrc := src.isLt
          rcases hk with rfl | rfl | rfl <;> omega
  · intro heq
    clear hmem
    induction sizes generalizing dest src with
    | nil => trivial
    | cons size sizes ih =>
        obtain ⟨hsize, hdvd⟩ := hsizes size List.mem_cons_self
        refine ⟨(accessed_eq_accessed_iff hsize dest src).2 ?_,
          ih (fun size h => hsizes size (List.mem_cons_of_mem _ h)) _ _ ?_⟩
        · rcases hk with rfl | rfl | rfl <;> rcases hsize with rfl | rfl | rfl <;> omega
        · rw [hshift dest size hsize, hshift src size hsize]
          rcases hk with rfl | rfl | rfl <;> rcases hsize with rfl | rfl | rfl <;> omega

/-- Accesses of one size go to one place or to places that do not overlap. -/
theorem accessed_apart {size : Nat} (hsize : size = 1 ∨ size = 2 ∨ size = 4) {a b : Word}
    (h : accessed size a ≠ accessed size b) :
    ¬ Covers (accessed size a) size (accessed size b) := by
  have hne : (accessed size a).toNat ≠ (accessed size b).toNat :=
    fun heq => h (BitVec.eq_of_toNat_eq heq)
  rw [accessed_toNat hsize, accessed_toNat hsize] at hne
  rw [Covers, BitVec.toNat_sub, accessed_toNat hsize, accessed_toNat hsize]
  have ha := a.isLt
  have hb := b.isLt
  rcases hsize with rfl | rfl | rfl <;> omega

/-- A negative number of bytes changes no memory exactly if both addresses lie in the same piece of
the finest size. -/
theorem memcpy_negative {dest src n : Word} (hn : n.slt 0 = true) :
    (∀ mem, (memcpy mem dest src n).1 = mem) ↔
      dest.toNat / finest dest n = src.toNat / finest dest n := by
  obtain ⟨hmem, hdvd⟩ : finest dest n ∈ accesses dest n ∧
      ∀ size ∈ accesses dest n, size % finest dest n = 0 := finest_accesses hn
  rw [← same_iff (mem_accesses hmem) hmem (fun size h => ⟨mem_accesses h, hdvd size h⟩) dest src,
    ← Library.PiecewiseCopy.pieces_same_iff (x := (0 : Byte)) (y := 1) (by decide)
      (fun size h a b hne => accessed_apart (mem_accesses h) hne)
      (fun size h => by rcases mem_accesses h with rfl | rfl | rfl <;> decide)
      (fun size h => by rcases mem_accesses h with rfl | rfl | rfl <;> decide)]
  simp only [memcpy_eq]

end Negative

/-- The number of bytes is not negative, and the loads go where they should: the regions lie alike
in their words, or no access is made that is too large for the way they lie. Or it is negative, so
that there is nothing to copy, and every access is from where it goes to. -/
def Suited (dest src n : Word) : Prop :=
  if n.slt 0 then dest.toNat / finest dest n = src.toNat / finest dest n
  else
    (src - dest).toNat % 4 = 0 ∨
      (src - dest).toNat % 4 = 2 ∧ n.toNat < 4 + (4 - dest.toNat % 4) % 4 ∨
      n.toNat < 2 + dest.toNat % 2

instance (dest src n : Word) : Decidable (Suited dest src n) :=
  inferInstanceAs (Decidable (if n.slt 0 then _ = _ else _ ∨ _ ∧ _ ∨ _))

/-- The condition in terms of the accesses that are made. -/
theorem suited_iff (dest src : Word) {n : Word} (hn : n.slt 0 = false) : Suited dest src n ↔
    Settled accessed src (plan dest.toNat n.toNat) := by
  have hfour := four_mem_plan dest.toNat n.toNat
  have htwo := two_mem_plan dest.toNat n.toNat
  rw [settled_src_iff (fun _ => mem_plan) (settled_plan dest n.toNat), Suited, hn,
    if_neg Bool.false_ne_true]
  constructor
  · intro h size hsize
    rcases mem_plan hsize with rfl | rfl | rfl
    · exact Nat.mod_one _
    · have hlong := htwo.1 (.inl hsize)
      omega
    · have hlong := hfour.1 hsize
      have hlong' := htwo.1 (.inr hsize)
      omega
  · intro h
    by_cases h4 : 4 ∈ plan dest.toNat n.toNat
    · exact .inl (h 4 h4)
    · have hshort : ¬ 4 + (4 - dest.toNat % 4) % 4 ≤ n.toNat := fun hle => h4 (hfour.2 hle)
      by_cases h2 : 2 ∈ plan dest.toNat n.toNat
      · have heven := h 2 h2
        omega
      · have hshort' : ¬ 2 + dest.toNat % 2 ≤ n.toNat := fun hle => (htwo.2 hle).elim h2 h4
        omega

end Memcpy

/-- `memcpy` copies the region, changes nothing else, and returns its destination. A negative number
of bytes leaves nothing to copy. -/
structure Copies (dest src n : Word) (mem : Word → Byte) : Prop where
  copied : ∀ i : Nat, i < n.toInt →
    (memcpy mem dest src n).1 (dest + .ofNat 32 i) = mem (src + .ofNat 32 i)
  others : ∀ a, ¬ Covers dest n.toInt.toNat a → (memcpy mem dest src n).1 a = mem a
  returned : (memcpy mem dest src n).2 = dest

/-- Regions that do not overlap are copied, whatever they hold, if they are suited. -/
theorem copies_of_nonneg {dest src n : Word} (hn : n.slt 0 = false)
    (h : ∀ a, Covers dest n.toNat a → ¬ Covers src n.toNat a) (hsuited : Suited dest src n)
    (mem : Word → Byte) : Copies dest src n mem := by
  have hint := toInt_of_nonneg hn
  have hfits : total (plan dest.toNat n.toNat) ≤ Nat.pow 2 32 := by
    rw [total_plan]
    exact Nat.le_of_lt n.isLt
  rw [← total_plan dest.toNat n.toNat] at h
  have hsrc := (suited_iff dest src hn).1 hsuited
  refine ⟨fun i hi => ?_, fun a ha => ?_, by rw [memcpy_eq]⟩
  · rw [memcpy_eq, accesses_eq_plan dest hn]
    rw [hint, Int.ofNat_lt] at hi
    exact Library.PiecewiseCopy.pieces_inside (c := ⟨mem, dest, src⟩) (settled_plan dest n.toNat)
      hsrc hfits h (by rwa [total_plan])
  · rw [memcpy_eq, accesses_eq_plan dest hn]
    refine Library.PiecewiseCopy.pieces_outside (c := ⟨mem, dest, src⟩)
      (settled_plan dest n.toNat) ?_
    rwa [total_plan, ← Int.toNat_natCast n.toNat, ← hint]

/-- Regions that are not suited are not copied in some memory. -/
theorem suited_of_copies {dest src n : Word} (hn : n.slt 0 = false)
    (h : ∀ a, Covers dest n.toNat a → ¬ Covers src n.toNat a)
    (hcopies : ∀ mem, Copies dest src n mem) : Suited dest src n := by
  have hfits : total (plan dest.toNat n.toNat) ≤ Nat.pow 2 32 := by
    rw [total_plan]
    exact Nat.le_of_lt n.isLt
  rw [← total_plan dest.toNat n.toNat] at h
  rw [suited_iff dest src hn]
  by_contra hnot
  obtain ⟨k, hk, hne⟩ := Library.PiecewiseCopy.exists_not_copied (x := (0 : Byte)) (y := 1)
    (by decide) (settled_plan dest n.toNat) hnot
    (fun size hsize => by rcases mem_plan hsize with rfl | rfl | rfl <;> decide) hfits h
  rw [total_plan] at hk
  have hcopied := (hcopies (Library.PiecewiseCopy.marked 0 1 (src + .ofNat 32 k))).copied k
    (by rw [toInt_of_nonneg hn]; exact Int.ofNat_lt.2 hk)
  rw [memcpy_eq, accesses_eq_plan dest hn] at hcopied
  exact hne (hcopied.trans (Function.update_self _ _ _))

/-- Regions that do not overlap are copied, whatever they hold, exactly if they are suited. -/
theorem memcpy_copies_iff (dest src n : Word)
    (h : ∀ a, Covers dest n.toInt.toNat a → ¬ Covers src n.toInt.toNat a) :
    (∀ mem, Copies dest src n mem) ↔ Suited dest src n := by
  cases hn : n.slt 0 with
  | false =>
      rw [toInt_of_nonneg hn, Int.toNat_natCast] at h
      exact ⟨suited_of_copies hn h, copies_of_nonneg hn h⟩
  | true =>
      have hneg : n.toInt < 0 := BitVec.slt_iff_toInt_lt.1 hn
      rw [Suited, hn, if_pos rfl, ← memcpy_negative hn]
      constructor
      · intro hcopies mem
        refine funext fun a => (hcopies mem).others a ?_
        rw [Covers]
        omega
      · intro hkept mem
        refine ⟨fun i hi => ?_, fun a _ => congrFun (hkept mem) a, by rw [memcpy_eq]⟩
        omega

/-- Ten bytes at odd addresses that lie alike are copied. -/
theorem memcpy_copies_odd : Suited 0x101 0x205 10 ∧ ∀ mem, Copies 0x101 0x205 10 mem := by
  have hsuited : Suited 0x101 0x205 10 := by decide
  refine ⟨hsuited, (memcpy_copies_iff 0x101 0x205 10 fun a h h' => ?_).2 hsuited⟩
  have hten : (10 : Word).toInt.toNat = 10 := rfl
  rw [Covers, hten] at h h'
  bv_omega

/-- Four bytes from an odd address to an aligned one come from the word below. -/
theorem memcpy_misaligned : (∀ a, Covers 0x100 4 a → ¬ Covers (0x201 : Word) 4 a) ∧
    ¬ Copies 0x100 0x201 4 (fun a => a.setWidth 8) := by
  refine ⟨fun a h h' => ?_, fun h => ?_⟩
  · rw [Covers] at h h'
    bv_omega
  · have hfirst := h.copied 0 (by decide)
    exact absurd hfirst (by decide)

end Soc.Libbase
