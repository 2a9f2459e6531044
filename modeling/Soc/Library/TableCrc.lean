import Mathlib.Data.List.GetD
import Mathlib.Data.List.Nodup
import Mathlib.Logic.Function.Iterate

/-!
# Table-driven checksums

A reflected checksum of 32 bits that takes a byte at a time through a table. If the table's upper
bytes are all different, a step can be undone, and up to four bytes at once act on the state like
one word. So an error within four consecutive bytes changes the final state, whatever stands
before and after it (`fold_window`); no property of the generator beyond that is needed.
-/

namespace Soc.Library.TableCrc

variable {table : BitVec 8 → BitVec 32} {s s' x y w : BitVec 32} {bytes bytes' : List (BitVec 8)}

/-- The state moves on by a byte. -/
def shift (table : BitVec 8 → BitVec 32) (x : BitVec 32) : BitVec 32 :=
  table (x.extractLsb' 0 8) ^^^ x >>> 8

/-- The state after a byte. -/
def step (table : BitVec 8 → BitVec 32) (s : BitVec 32) (byte : BitVec 8) : BitVec 32 :=
  shift table (s ^^^ byte.setWidth 32)

/-- The state after some bytes. -/
def fold (table : BitVec 8 → BitVec 32) (s : BitVec 32) (bytes : List (BitVec 8)) : BitVec 32 :=
  bytes.foldl (step table) s

/-- Some bytes as a word, the first one lowest. -/
def word : List (BitVec 8) → BitVec 32
  | [] => 0
  | byte :: bytes => byte.setWidth 32 ^^^ word bytes <<< 8

/-- The upper bytes of the table are all different. -/
def Reversible (table : BitVec 8 → BitVec 32) : Prop :=
  ∀ i j, (table i).extractLsb' 24 8 = (table j).extractLsb' 24 8 → i = j

/-- No number of the list is a bit of `mask`, and none comes twice. -/
def unseen : Nat → List Nat → Bool
  | _, [] => true
  | mask, x :: xs => !mask.testBit x && unseen (mask ||| 1 <<< x) xs

/-- `unseen` finds every repetition. -/
theorem nodup_of_unseen {mask : Nat} {xs : List Nat} (h : unseen mask xs = true) :
    xs.Nodup ∧ ∀ x ∈ xs, mask.testBit x = false := by
  induction xs generalizing mask with
  | nil => exact ⟨List.nodup_nil, by simp⟩
  | cons x xs ih =>
      rw [unseen, Bool.and_eq_true, Bool.not_eq_true', Nat.one_shiftLeft] at h
      obtain ⟨hx, hxs⟩ := h
      obtain ⟨hnodup, hmask⟩ := ih hxs
      have hlater : ∀ y ∈ xs, mask.testBit y = false ∧ x ≠ y := by
        intro y hy
        have hbit := hmask y hy
        rw [Nat.testBit_or, Bool.or_eq_false_iff, Nat.testBit_two_pow] at hbit
        exact ⟨hbit.1, of_decide_eq_false hbit.2⟩
      refine ⟨List.nodup_cons.2 ⟨fun hmem => (hlater x hmem).2 rfl, hnodup⟩, fun y hy => ?_⟩
      rcases List.mem_cons.1 hy with rfl | hmem
      · exact hx
      · exact (hlater y hmem).1

/-- A table given as a list is reversible if no upper byte comes twice. -/
theorem reversible_of_unseen {entries : List (BitVec 32)} (hlength : entries.length = 256)
    (h : unseen 0 (entries.map fun entry => (entry.extractLsb' 24 8).toNat) = true) :
    Reversible fun i => entries.getD i.toNat 0 := by
  intro i j heq
  have hi : i.toNat < entries.length := hlength ▸ i.isLt
  have hj : j.toNat < entries.length := hlength ▸ j.isLt
  have hi' : i.toNat < (entries.map fun entry => (entry.extractLsb' 24 8).toNat).length := by
    rwa [List.length_map]
  have hj' : j.toNat < (entries.map fun entry => (entry.extractLsb' 24 8).toNat).length := by
    rwa [List.length_map]
  simp only [List.getD_eq_getElem _ _ hi, List.getD_eq_getElem _ _ hj] at heq
  have hsame : (entries.map fun entry => (entry.extractLsb' 24 8).toNat)[i.toNat] =
      (entries.map fun entry => (entry.extractLsb' 24 8).toNat)[j.toNat] := by
    rw [List.getElem_map, List.getElem_map, heq]
  exact BitVec.eq_of_toNat_eq ((List.Nodup.getElem_inj_iff (nodup_of_unseen h).1).1 hsame)

/-- A word is determined by its lowest byte and the others. -/
theorem eq_of_low_of_high (hlow : x.extractLsb' 0 8 = y.extractLsb' 0 8)
    (hhigh : x >>> 8 = y >>> 8) : x = y := by
  apply BitVec.eq_of_getLsbD_eq
  intro i hi
  rcases Nat.lt_or_ge i 8 with hlt | hge
  · have hbit := congrArg (fun b => b.getLsbD i) hlow
    simpa only [BitVec.getLsbD_extractLsb', hlt, decide_true, Bool.true_and, Nat.zero_add]
      using hbit
  · have hbit := congrArg (fun b => b.getLsbD (i - 8)) hhigh
    simpa only [BitVec.getLsbD_ushiftRight, Nat.add_sub_of_le hge] using hbit

/-- The upper byte after a shift is the table's. -/
theorem extract_shift (x : BitVec 32) :
    (shift table x).extractLsb' 24 8 = (table (x.extractLsb' 0 8)).extractLsb' 24 8 := by
  apply BitVec.eq_of_getLsbD_eq
  intro i hi
  have hnone : x.getLsbD (8 + (24 + i)) = false := BitVec.getLsbD_of_ge x _ (by omega)
  simp only [shift, BitVec.getLsbD_extractLsb', BitVec.getLsbD_xor, BitVec.getLsbD_ushiftRight,
    hnone, Bool.xor_false]

/-- A shift can be undone. -/
theorem shift_injective (h : Reversible table) : Function.Injective (shift table) := by
  intro x y heq
  have hlow : x.extractLsb' 0 8 = y.extractLsb' 0 8 := by
    apply h
    rw [← extract_shift, ← extract_shift, heq]
  refine eq_of_low_of_high hlow ?_
  rw [shift, shift, hlow] at heq
  exact (BitVec.xor_right_inj _).1 heq

/-- So can some bytes, from the same state on. -/
theorem fold_injective (h : Reversible table) (heq : fold table s bytes = fold table s' bytes) :
    s = s' := by
  induction bytes generalizing s s' with
  | nil => exact heq
  | cons byte bytes ih => exact (BitVec.xor_left_inj _).1 (shift_injective h (ih heq))

/-- Bytes behind others. -/
theorem fold_append (table : BitVec 8 → BitVec 32) (s : BitVec 32)
    (bytes bytes' : List (BitVec 8)) :
    fold table s (bytes ++ bytes') = fold table (fold table s bytes) bytes' :=
  List.foldl_append

/-- The bits of a word above its bytes. -/
theorem getLsbD_word {i : Nat} (h : 8 * bytes.length ≤ i) : (word bytes).getLsbD i = false := by
  induction bytes generalizing i with
  | nil => exact BitVec.getLsbD_zero
  | cons byte bytes ih =>
      rw [List.length_cons] at h
      have hbyte : byte.getLsbD i = false := BitVec.getLsbD_of_ge byte i (by omega)
      have hrest : (word bytes).getLsbD (i - 8) = false := ih (by omega)
      simp only [word, BitVec.getLsbD_xor, BitVec.getLsbD_setWidth, BitVec.getLsbD_shiftLeft, hbyte,
        hrest, Bool.and_false, Bool.xor_false]

/-- Up to three bytes can be shifted up and down again. -/
theorem word_shift (h : bytes.length ≤ 3) : word bytes <<< 8 >>> 8 = word bytes := by
  apply BitVec.eq_of_getLsbD_eq
  intro i hi
  rw [BitVec.getLsbD_ushiftRight, BitVec.getLsbD_shiftLeft, Nat.add_sub_cancel_left]
  by_cases hlt : 8 + i < 32
  · simp [hlt]
  · have hnone : (word bytes).getLsbD i = false := getLsbD_word (by omega)
    simp [hnone]

/-- A byte is shifted out. -/
theorem setWidth_shift (byte : BitVec 8) : byte.setWidth 32 >>> 8 = 0#32 := by
  apply BitVec.eq_of_getLsbD_eq
  intro i hi
  simp

/-- The lowest byte and the others of a word. -/
theorem word_cons (h : bytes.length ≤ 3) (byte : BitVec 8) :
    (word (byte :: bytes)).extractLsb' 0 8 = byte ∧ word (byte :: bytes) >>> 8 = word bytes := by
  constructor
  · apply BitVec.eq_of_getLsbD_eq
    intro i hi
    simp [word, hi]
    omega
  · rw [word, BitVec.ushiftRight_xor_distrib, word_shift h, setWidth_shift, BitVec.zero_xor]

/-- Up to four bytes are determined by their word. -/
theorem word_injective (hlength : bytes.length = bytes'.length) (h : bytes.length ≤ 4)
    (heq : word bytes = word bytes') : bytes = bytes' := by
  induction bytes generalizing bytes' with
  | nil => exact (List.length_eq_zero_iff.1 hlength.symm).symm
  | cons byte bytes ih =>
      obtain ⟨byte', bytes', rfl⟩ := List.exists_cons_of_length_eq_add_one hlength.symm
      rw [List.length_cons] at h
      rw [List.length_cons, List.length_cons] at hlength
      obtain ⟨hlow, hhigh⟩ := word_cons (show bytes.length ≤ 3 by omega) byte
      obtain ⟨hlow', hhigh'⟩ := word_cons (show bytes'.length ≤ 3 by omega) byte'
      rw [heq] at hlow hhigh
      rw [← hlow, hlow', ih (by omega) (by omega) (hhigh.symm.trans hhigh')]

/-- The word of four bytes. -/
theorem word_four (b0 b1 b2 b3 : BitVec 8) : word [b0, b1, b2, b3] = b3 ++ b2 ++ b1 ++ b0 := by
  apply BitVec.eq_of_getLsbD_eq
  intro i hi
  simp only [word, BitVec.getLsbD_xor, BitVec.getLsbD_shiftLeft, BitVec.getLsbD_setWidth,
    BitVec.getLsbD_append, Nat.sub_sub]
  rcases Nat.lt_or_ge i 8 with h0 | h0
  · simp [h0, hi]
  have hnone0 : b0.getLsbD i = false := BitVec.getLsbD_of_ge b0 i h0
  have hsub1 : i - 8 < 32 := by omega
  rcases Nat.lt_or_ge i 16 with h1 | h1
  · have hlt : i - 8 < 8 := by omega
    simp [hi, hlt, hsub1, hnone0, Nat.not_lt_of_le h0]
  have hnone1 : b1.getLsbD (i - 8) = false := BitVec.getLsbD_of_ge b1 _ (by omega)
  have hge1 : ¬ i - 8 < 8 := by omega
  have hsub2 : i - 16 < 32 := by omega
  rcases Nat.lt_or_ge i 24 with h2 | h2
  · have hlt : i - 16 < 8 := by omega
    simp [hi, hlt, hsub1, hsub2, hnone0, hnone1, Nat.not_lt_of_le h0, hge1]
  · have hnone2 : b2.getLsbD (i - 16) = false := BitVec.getLsbD_of_ge b2 _ (by omega)
    have hge2 : ¬ i - 16 < 8 := by omega
    have hsub3 : i - 24 < 32 := by omega
    simp [hi, hsub1, hsub2, hsub3, hnone0, hnone1, hnone2, Nat.not_lt_of_le h0, hge1, hge2]

/-- A word that is added after a shift could have been added before it. -/
theorem shift_xor (hw : w <<< 8 >>> 8 = w) : shift table x ^^^ w = shift table (x ^^^ w <<< 8) := by
  have hlow : (x ^^^ w <<< 8).extractLsb' 0 8 = x.extractLsb' 0 8 := by
    apply BitVec.eq_of_getLsbD_eq
    intro i hi
    simp [hi]
  rw [shift, shift, hlow, BitVec.ushiftRight_xor_distrib, hw, BitVec.xor_assoc]

/-- Up to four bytes act on the state like their word. -/
theorem fold_eq_iterate (h : bytes.length ≤ 4) :
    fold table s bytes = (shift table)^[bytes.length] (s ^^^ word bytes) := by
  induction bytes generalizing s with
  | nil => exact (BitVec.xor_zero).symm
  | cons byte bytes ih =>
      rw [List.length_cons] at h
      have hshift := word_shift (show bytes.length ≤ 3 by omega)
      calc fold table s (byte :: bytes)
          = fold table (shift table (s ^^^ byte.setWidth 32)) bytes := rfl
        _ = (shift table)^[bytes.length] (shift table (s ^^^ byte.setWidth 32) ^^^ word bytes) :=
            ih (by omega)
        _ = (shift table)^[bytes.length + 1] (s ^^^ word (byte :: bytes)) := by
            rw [shift_xor hshift, BitVec.xor_assoc, Function.iterate_succ_apply, word]

/-- An error within four consecutive bytes changes the final state. -/
theorem fold_window (h : Reversible table) {before after : List (BitVec 8)}
    (hlength : bytes.length = bytes'.length) (hwindow : bytes.length ≤ 4)
    (heq : fold table s (before ++ bytes ++ after) = fold table s (before ++ bytes' ++ after)) :
    bytes = bytes' := by
  rw [fold_append, fold_append, fold_append, fold_append] at heq
  have hstate := fold_injective h heq
  rw [fold_eq_iterate hwindow, fold_eq_iterate (show bytes'.length ≤ 4 by omega),
    ← hlength] at hstate
  have hword := (shift_injective h).iterate _ hstate
  exact word_injective hlength hwindow ((BitVec.xor_right_inj _).1 hword)

end Soc.Library.TableCrc
