import Soc.Csr
import Soc.Library.FirstDifference

/-!
# String comparison

`strcmp` and `strncmp` of `libbase/libc.c`. They return the difference of the first two
characters that differ, but they keep it in a `signed char`, where a difference of more than 127
changes its sign. `strcmp_order_iff` says for which strings the results are those of an order.
-/

namespace Soc.Libbase

open Library (FirstDiffer)

/-- A string: characters that are not NUL. -/
@[ext] structure CString where
  chars : List Byte
  nonzero : 0 ∉ chars
  deriving DecidableEq

namespace CString

/-- The characters and the NUL. -/
def bytes (s : CString) : List Byte := s.chars ++ [0]

/-- The memory from the string on, with the bytes `after` behind it. -/
def memory (s : CString) (after : List Byte) : List Byte := s.chars ++ 0 :: after

/-- The string truncated to `count` characters. -/
def take (s : CString) (count : Nat) : CString :=
  ⟨s.chars.take count, fun h => s.nonzero (List.mem_of_mem_take h)⟩

end CString

/-- `strcmp`, on the memory from `cs` and `ct` on. There is no result if it reads past the memory
that is known. -/
def strcmp : List Byte → List Byte → Option Int
  | c :: cs, d :: ct =>
      let res : Byte := c - d
      if res ≠ 0 ∨ c = 0 then some res.toInt else strcmp cs ct
  | _, _ => none

/-- The loop of `strncmp` from `n` on, with the last difference. `n` and `count` are `int`s, which
`size_t` is. -/
def strncmpFrom (count n : Word) (res : Byte) (cs ct : List Byte) : Option Int :=
  if n.slt count then
    match cs, ct with
    | c :: cs, d :: ct =>
        let res : Byte := c - d
        if res ≠ 0 ∨ c = 0 then some res.toInt else strncmpFrom count (n + 1) res cs ct
    | _, _ => none
  else some res.toInt

/-- `strncmp`. -/
def strncmp (cs ct : List Byte) (count : Word) : Option Int := strncmpFrom count 0 0 cs ct

section Comparison

variable {cs ct : List Byte} {c d : Byte}

/-- The difference of different characters is not 0. -/
theorem sub_ne_zero_of_ne (h : c ≠ d) : c - d ≠ 0 := by
  intro hz
  rw [BitVec.sub_eq_iff_eq_add] at hz
  exact h (hz.trans (BitVec.zero_add d))

/-- Different characters end the comparison. -/
theorem strcmp_ne (h : c ≠ d) : strcmp (c :: cs) (d :: ct) = some (c - d).toInt :=
  if_pos (.inl (sub_ne_zero_of_ne h))

/-- Two NULs end it. -/
theorem strcmp_nul : strcmp (0 :: cs) (0 :: ct) = some 0 := rfl

/-- Equal characters leave it to what follows. -/
theorem strcmp_same (h : c ≠ 0) : strcmp (c :: cs) (c :: ct) = strcmp cs ct := by
  have hgo : ¬ (c - c ≠ 0 ∨ c = 0) := not_or.2 ⟨not_not_intro (BitVec.sub_self c), h⟩
  exact if_neg hgo

section Counted

variable {count n : Word} {res : Byte}

/-- The count ends the comparison. -/
theorem strncmpFrom_done (h : ¬ n.slt count) : strncmpFrom count n res cs ct = some res.toInt := by
  unfold strncmpFrom
  exact if_neg h

/-- Different characters end the counted comparison. -/
theorem strncmpFrom_ne (hn : n.slt count) (h : c ≠ d) :
    strncmpFrom count n res (c :: cs) (d :: ct) = some (c - d).toInt := by
  rw [strncmpFrom, if_pos hn]
  exact if_pos (.inl (sub_ne_zero_of_ne h))

/-- Two NULs end it. -/
theorem strncmpFrom_nul (hn : n.slt count) :
    strncmpFrom count n res (0 :: cs) (0 :: ct) = some 0 := by
  rw [strncmpFrom, if_pos hn]
  rfl

/-- Equal characters leave it to what follows, with one character less to go. -/
theorem strncmpFrom_same (hn : n.slt count) (h : c ≠ 0) :
    strncmpFrom count n res (c :: cs) (c :: ct) = strncmpFrom count (n + 1) 0 cs ct := by
  have hres : c - c = 0 := BitVec.sub_self c
  rw [strncmpFrom, if_pos hn]
  simp only [hres, ne_eq, not_true_eq_false, false_or, if_neg h]

end Counted

variable {a b : CString} {ra rb : List Byte} {i : Nat} {x y : Byte}

/-- The result for strings that differ is the difference of the characters there. -/
theorem strcmp_of_differ (h : FirstDiffer a.bytes b.bytes i x y) :
    strcmp (a.memory ra) (b.memory rb) = some (x - y).toInt := by
  obtain ⟨l, hl⟩ := a
  obtain ⟨m, hm⟩ := b
  simp only [CString.bytes, CString.memory] at h ⊢
  induction l generalizing m i with
  | nil =>
      cases m with
      | nil => exact absurd h FirstDiffer.irrefl
      | cons d m =>
          cases h with
          | here hne => exact strcmp_ne hne
          | later _ => exact absurd List.mem_cons_self hm
  | cons c l ih =>
      cases m with
      | nil =>
          cases h with
          | here hne => exact strcmp_ne hne
          | later _ => exact absurd List.mem_cons_self hl
      | cons d m =>
          cases h with
          | here hne => exact strcmp_ne hne
          | later h =>
              rw [List.cons_append, List.cons_append, strcmp_same (List.ne_of_not_mem_cons hl).symm]
              exact ih (List.not_mem_of_not_mem_cons hl) m (List.not_mem_of_not_mem_cons hm) h

/-- Equal strings compare as equal, whatever follows them in memory. -/
theorem strcmp_self : strcmp (a.memory ra) (a.memory rb) = some 0 := by
  obtain ⟨l, hl⟩ := a
  simp only [CString.memory]
  induction l with
  | nil => exact strcmp_nul
  | cons c l ih =>
      rw [List.cons_append, List.cons_append, strcmp_same (List.ne_of_not_mem_cons hl).symm]
      exact ih (List.not_mem_of_not_mem_cons hl)

/-- Strings are equal, or they differ first somewhere. -/
theorem CString.eq_or_differ (a b : CString) :
    a = b ∨ ∃ i x y, FirstDiffer a.bytes b.bytes i x y := by
  by_cases h : a.chars = b.chars
  · exact .inl (CString.ext h)
  · exact .inr (Library.exists_firstDiffer a.nonzero b.nonzero h)

/-- The result is 0 for equal strings only. -/
theorem strcmp_eq_zero_iff : strcmp (a.memory ra) (b.memory rb) = some 0 ↔ a = b := by
  constructor
  · intro h
    rcases a.eq_or_differ b with rfl | ⟨i, x, y, hdiff⟩
    · rfl
    · rw [strcmp_of_differ hdiff, Option.some.injEq] at h
      exact absurd (BitVec.eq_of_toInt_eq h) (sub_ne_zero_of_ne hdiff.ne)
  · rintro rfl
    exact strcmp_self

/-- The next number, below another one. -/
theorem toInt_succ {n count : Word} (h : n.toInt < count.toInt) :
    (n + 1).toInt = n.toInt + 1 := by
  have hn := BitVec.le_toInt n
  have hcount := BitVec.toInt_lt (x := count)
  have hone : (1 : Word).toInt = 1 := by decide
  rw [BitVec.toInt_add, hone]
  exact Int.bmod_eq_of_le (by omega) (by omega)

/-- With `k` characters to go, `strncmp` compares as `strcmp` does when both strings are cut off
after `k` characters. -/
theorem strncmpFrom_eq {count n : Word} {k : Nat} (hk : (count.toInt - n.toInt).toNat = k) :
    strncmpFrom count n 0 (a.memory ra) (b.memory rb) =
      strcmp ((a.take k).memory []) ((b.take k).memory []) := by
  obtain ⟨l, hl⟩ := a
  obtain ⟨m, hm⟩ := b
  simp only [CString.memory, CString.take]
  induction k generalizing l m n with
  | zero =>
      have hn : ¬ n.slt count := by rw [BitVec.slt_iff_toInt_lt]; omega
      exact (strncmpFrom_done hn).trans strcmp_nul.symm
  | succ k ih =>
      have hlt : n.toInt < count.toInt := by omega
      have hn : n.slt count := BitVec.slt_iff_toInt_lt.2 hlt
      have hnext : (count.toInt - (n + 1).toInt).toNat = k := by
        rw [toInt_succ hlt]
        omega
      cases l with
      | nil =>
          cases m with
          | nil => exact strncmpFrom_nul hn
          | cons d m =>
              have hd : 0 ≠ d := List.ne_of_not_mem_cons hm
              exact (strncmpFrom_ne hn hd).trans (strcmp_ne hd).symm
      | cons c l =>
          have hc : c ≠ 0 := (List.ne_of_not_mem_cons hl).symm
          cases m with
          | nil => exact (strncmpFrom_ne hn hc).trans (strcmp_ne hc).symm
          | cons d m =>
              by_cases hcd : c = d
              · subst hcd
                exact (strncmpFrom_same hn hc).trans
                  ((ih hnext l (List.not_mem_of_not_mem_cons hl) m
                    (List.not_mem_of_not_mem_cons hm)).trans (strcmp_same hc).symm)
              · exact (strncmpFrom_ne hn hcd).trans (strcmp_ne hcd).symm

/-- `strncmp` agrees with `strcmp` on the truncated strings. -/
theorem strncmp_eq_strcmp_take (count : Word) :
    strncmp (a.memory ra) (b.memory rb) count =
      strcmp ((a.take count.toInt.toNat).memory []) ((b.take count.toInt.toNat).memory []) :=
  strncmpFrom_eq (congrArg Int.toNat (Int.sub_zero _))

end Comparison

/-- How far `y` lies above `x`, counted round from 255 to 0. -/
def above (x y : Byte) : Nat := (y - x).toNat

section Bytes

variable {x y z : Byte}

/-- Different characters have a distance. -/
theorem above_pos (h : x ≠ y) : 0 < above x y := by
  have hne : x.toNat ≠ y.toNat := fun heq => h (BitVec.eq_of_toNat_eq heq)
  have hx := x.isLt
  have hy := y.isLt
  rw [above, BitVec.toNat_sub]
  omega

/-- The two distances of different characters go once round. -/
theorem above_add_above (h : x ≠ y) : above x y + above y x = 256 := by
  have hne : x.toNat ≠ y.toNat := fun heq => h (BitVec.eq_of_toNat_eq heq)
  have hx := x.isLt
  have hy := y.isLt
  rw [above, above, BitVec.toNat_sub, BitVec.toNat_sub]
  omega

/-- Distances add up, round from 255 to 0. -/
theorem above_trans (x y z : Byte) : above x z = (above x y + above y z) % 256 := by
  have hx := x.isLt
  have hy := y.isLt
  have hz := z.isLt
  rw [above, above, above, BitVec.toNat_sub, BitVec.toNat_sub, BitVec.toNat_sub]
  omega

/-- The difference of different characters is negative up to a distance of 128. -/
theorem sub_toInt_neg_iff (h : x ≠ y) : (x - y).toInt < 0 ↔ above x y ≤ 128 := by
  have hsum := above_add_above h
  have hpos := above_pos h
  have hback : (x - y).toNat = above y x := rfl
  rw [BitVec.toInt_eq_toNat_cond, hback]
  split <;> omega

/-- The two differences of characters have opposite signs, unless their distance is 128. -/
theorem sub_sign_iff (h : x ≠ y) :
    (y - x).toInt.sign = -(x - y).toInt.sign ↔ above x y ≠ 128 := by
  have hsum := above_add_above h
  have hne : ∀ {u v : Byte}, u ≠ v → (u - v).toInt ≠ 0 := fun huv hz =>
    sub_ne_zero_of_ne huv (BitVec.eq_of_toInt_eq hz)
  have hxy := sub_toInt_neg_iff h
  have hyx := sub_toInt_neg_iff (Ne.symm h)
  rcases Int.lt_or_gt_of_ne (hne h) with hneg | hpos
  · rcases Int.lt_or_gt_of_ne (hne (Ne.symm h)) with hneg' | hpos'
    · rw [Int.sign_eq_neg_one_of_neg hneg, Int.sign_eq_neg_one_of_neg hneg']
      have heq : above x y = 128 := by omega
      simp [heq]
    · rw [Int.sign_eq_neg_one_of_neg hneg, Int.sign_eq_one_of_pos hpos']
      have hlt : above x y ≠ 128 := by omega
      simp [hlt]
  · have hneg' : (y - x).toInt < 0 := hyx.2 (by omega)
    rw [Int.sign_eq_one_of_pos hpos, Int.sign_eq_neg_one_of_neg hneg']
    have hlt : above x y ≠ 128 := by omega
    simp [hlt]

end Bytes

/-- The results of `strcmp` are those of an order at these strings, and `strncmp` follows it: only
equal strings compare as equal, the two ways round have opposite signs, and what is less than
something less than `c` is less than `c`. Nothing depends on the memory behind the strings, and a
negative `count` leaves no character. -/
def IsOrder (a b c : CString) : Prop :=
  ∀ ra rb rc, ∃ ab ba bc ac,
    strcmp (a.memory ra) (b.memory rb) = some ab ∧ strcmp (b.memory rb) (a.memory ra) = some ba ∧
    strcmp (b.memory rb) (c.memory rc) = some bc ∧ strcmp (a.memory ra) (c.memory rc) = some ac ∧
    (ab = 0 ↔ a = b) ∧ ba.sign = -ab.sign ∧ (ab < 0 → bc < 0 → ac < 0) ∧
    ∀ count, strncmp (a.memory ra) (b.memory rb) count =
      strcmp ((a.take count.toInt.toNat).memory []) ((b.take count.toInt.toNat).memory [])

/-- The characters in which `a` and `b` first differ are not 128 apart, and where `b` and `c` first
differ in the same place, two steps up of at most 128 are together at most 128. -/
def NoWrap (a b c : CString) : Prop :=
  (∀ i x y, FirstDiffer a.bytes b.bytes i x y → above x y ≠ 128) ∧
  ∀ i x y z, FirstDiffer a.bytes b.bytes i x y → FirstDiffer b.bytes c.bytes i y z →
    above x y ≤ 128 → above y z ≤ 128 → above x y + above y z ≤ 128

section Order

variable {a b c : CString} {ra rb rc : List Byte} {i : Nat} {x y z : Byte}

/-- `strcmp` has a result. -/
theorem strcmp_isSome (a b : CString) (ra rb : List Byte) :
    ∃ r, strcmp (a.memory ra) (b.memory rb) = some r := by
  rcases a.eq_or_differ b with rfl | ⟨i, x, y, h⟩
  · exact ⟨0, strcmp_self⟩
  · exact ⟨_, strcmp_of_differ h⟩

/-- Two strings compare with opposite signs, unless they first differ in characters 128 apart. -/
theorem strcmp_sign_iff {ab ba : Int} (hab : strcmp (a.memory ra) (b.memory rb) = some ab)
    (hba : strcmp (b.memory rb) (a.memory ra) = some ba) :
    ba.sign = -ab.sign ↔ ∀ i x y, FirstDiffer a.bytes b.bytes i x y → above x y ≠ 128 := by
  rcases a.eq_or_differ b with rfl | ⟨i, x, y, h⟩
  · rw [strcmp_self, Option.some.injEq] at hab hba
    subst hab hba
    exact iff_of_true rfl fun i x y h => absurd h FirstDiffer.irrefl
  · rw [strcmp_of_differ h, Option.some.injEq] at hab
    rw [strcmp_of_differ h.symm, Option.some.injEq] at hba
    subst hab hba
    rw [sub_sign_iff h.ne]
    constructor
    · intro hne i' x' y' h'
      obtain ⟨-, rfl, rfl⟩ := h.unique h'
      exact hne
    · intro hall
      exact hall i x y h

/-- Being less, by the first characters that differ. -/
theorem strcmp_neg_iff (h : FirstDiffer a.bytes b.bytes i x y) {ab : Int}
    (hab : strcmp (a.memory ra) (b.memory rb) = some ab) : ab < 0 ↔ above x y ≤ 128 := by
  rw [strcmp_of_differ h, Option.some.injEq] at hab
  rw [← hab]
  exact sub_toInt_neg_iff h.ne

/-- Two steps up in one place make a step up, unless they go too far. -/
theorem strcmp_trans_at (h : FirstDiffer a.bytes b.bytes i x y)
    (h' : FirstDiffer b.bytes c.bytes i y z) (hne : above x y ≠ 128) (hxy : above x y ≤ 128)
    (hyz : above y z ≤ 128) {ac : Int} (hac : strcmp (a.memory ra) (c.memory rc) = some ac) :
    ac < 0 ↔ above x y + above y z ≤ 128 := by
  have hxz : x ≠ z := by
    rintro rfl
    have hsum := above_add_above h.ne
    omega
  rw [strcmp_neg_iff (h.trans_of_ne h' hxz) hac, above_trans x y z]
  omega

/-- Being less is transitive for strings that do not wrap, and for these only, if the first two
compare with opposite signs. -/
theorem strcmp_trans_iff (hsign : ∀ i x y, FirstDiffer a.bytes b.bytes i x y → above x y ≠ 128)
    {ab bc ac : Int} (hab : strcmp (a.memory ra) (b.memory rb) = some ab)
    (hbc : strcmp (b.memory rb) (c.memory rc) = some bc)
    (hac : strcmp (a.memory ra) (c.memory rc) = some ac) :
    (ab < 0 → bc < 0 → ac < 0) ↔
      ∀ i x y z, FirstDiffer a.bytes b.bytes i x y → FirstDiffer b.bytes c.bytes i y z →
        above x y ≤ 128 → above y z ≤ 128 → above x y + above y z ≤ 128 := by
  rcases a.eq_or_differ b with rfl | ⟨i, x, y, h⟩
  · rw [strcmp_self, Option.some.injEq] at hab
    subst hab
    exact iff_of_true (fun hlt => absurd hlt (Int.lt_irrefl 0))
      fun i x y z h => absurd h FirstDiffer.irrefl
  rcases b.eq_or_differ c with rfl | ⟨j, y', z, h'⟩
  · rw [strcmp_self, Option.some.injEq] at hbc
    subst hbc
    exact iff_of_true (fun _ hlt => absurd hlt (Int.lt_irrefl 0))
      fun i x y z _ h => absurd h FirstDiffer.irrefl
  rw [strcmp_neg_iff h hab, strcmp_neg_iff h' hbc]
  rcases Nat.lt_trichotomy i j with hlt | rfl | hgt
  · -- The third string differs from the first one where the second does.
    rw [strcmp_neg_iff (h.trans_of_lt h' hlt) hac]
    refine iff_of_true (fun hxy _ => hxy) fun i₁ x₁ y₁ z₁ h₁ h₁' => ?_
    obtain ⟨rfl, -, -⟩ := h.unique h₁
    obtain ⟨rfl, -, -⟩ := h'.unique h₁'
    exact absurd hlt (Nat.lt_irrefl _)
  · obtain rfl := h.middle h'
    constructor
    · intro htrans i₁ x₁ y₁ z₁ h₁ h₁' hxy hyz
      obtain ⟨rfl, rfl, rfl⟩ := h.unique h₁
      obtain ⟨-, -, rfl⟩ := h'.unique h₁'
      exact (strcmp_trans_at h h' (hsign _ _ _ h) hxy hyz hac).1 (htrans hxy hyz)
    · intro hall hxy hyz
      exact (strcmp_trans_at h h' (hsign _ _ _ h) hxy hyz hac).2 (hall _ _ _ _ h h' hxy hyz)
  · -- The first string still agrees with the second where the third differs from it.
    have h'' := (h'.symm.trans_of_lt h.symm hgt).symm
    rw [strcmp_neg_iff h'' hac]
    refine iff_of_true (fun _ hyz => hyz) fun i₁ x₁ y₁ z₁ h₁ h₁' => ?_
    obtain ⟨rfl, -, -⟩ := h.unique h₁
    obtain ⟨rfl, -, -⟩ := h'.unique h₁'
    exact absurd hgt (Nat.lt_irrefl _)

/-- String comparison is an order exactly where the `signed char` does not wrap. -/
theorem strcmp_order_iff (a b c : CString) : IsOrder a b c ↔ NoWrap a b c := by
  constructor
  · intro h
    obtain ⟨ab, ba, bc, ac, hab, hba, hbc, hac, -, hsign, htrans, -⟩ := h [] [] []
    have hne := (strcmp_sign_iff hab hba).1 hsign
    exact ⟨hne, (strcmp_trans_iff hne hab hbc hac).1 htrans⟩
  · rintro ⟨hne, hsum⟩ ra rb rc
    obtain ⟨ab, hab⟩ := strcmp_isSome a b ra rb
    obtain ⟨ba, hba⟩ := strcmp_isSome b a rb ra
    obtain ⟨bc, hbc⟩ := strcmp_isSome b c rb rc
    obtain ⟨ac, hac⟩ := strcmp_isSome a c ra rc
    have hzero : ab = 0 ↔ a = b := by
      rw [← @strcmp_eq_zero_iff a b ra rb, hab, Option.some.injEq]
    exact ⟨ab, ba, bc, ac, hab, hba, hbc, hac, hzero, (strcmp_sign_iff hab hba).2 hne,
      (strcmp_trans_iff hne hab hbc hac).2 hsum, strncmp_eq_strcmp_take⟩

/-- Both `"\x80"` and the empty string are less than the other. -/
theorem strcmp_both_less : ¬ IsOrder ⟨[0x80], by decide⟩ ⟨[], by decide⟩ ⟨[], by decide⟩ := by
  intro h
  obtain ⟨ab, ba, -, -, hab, hba, -, -, -, hsign, -⟩ := h [] [] []
  have hab' : strcmp [0x80, 0] [0] = some (-128) := by decide
  have hba' : strcmp [0] [0x80, 0] = some (-128) := by decide
  obtain rfl : -128 = ab := Option.some.inj (hab'.symm.trans hab)
  obtain rfl : -128 = ba := Option.some.inj (hba'.symm.trans hba)
  exact absurd hsign (by decide)

-- Less than something less than the third string, but not less than the third string.
example : strcmp [0x01, 0] [0x51, 0] = some (-80) ∧ strcmp [0x51, 0] [0xa1, 0] = some (-80) ∧
    strcmp [0x01, 0] [0xa1, 0] = some 96 := by decide

end Order

end Soc.Libbase
