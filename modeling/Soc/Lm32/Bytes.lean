import Soc.Lm32.InstructionSet

/-!
# Transfers and the bytes of a memory

A transfer on the data bus is about an aligned word, of which `sel` picks the lanes, and the byte at
the lowest address is in the highest lane. What a store leaves in a memory of bytes, and what a load
finds there, are the bytes at its address, if that is aligned.
-/

namespace Soc.Lm32

open Library.Region (store)

/-- The byte of a word in the lane of an address. -/
def lane (data a : Word) : Byte := data.extractLsb' (8 * (3 - (a.extractLsb' 0 2).toNat)) 8

namespace Access

variable (t : Access)

/-- The transfer is about the byte at an address. -/
def selects (a : Word) : Bool :=
  t.adr.extractLsb' 2 30 == a.extractLsb' 2 30 && t.sel.getLsbD (3 - (a.extractLsb' 0 2).toNat)

/-- A memory after the transfer. -/
def apply (mem : Word → Byte) (a : Word) : Byte :=
  if t.we && t.selects a then lane t.dat a else mem a

end Access

/-- The word at an address, with the two low bits dropped. -/
def wordAt (mem : Word → Byte) (adr : Word) : Word := loadWord mem (adr.extractLsb' 2 30 ++ 0#2)

namespace Size

/-- The number of bytes. -/
def width (size : Size) : Nat :=
  match size with
  | .byte => 1
  | .hword => 2
  | .word => 4

/-- The address is a multiple of the size. -/
def Aligned (size : Size) (adr : Word) : Prop :=
  match size with
  | .byte => True
  | .hword => adr.getLsbD 0 = false
  | .word => adr.extractLsb' 0 2 = 0

/-- The bytes of a value, the highest first. -/
def bytes (size : Size) (value : Word) : List Byte :=
  match size with
  | .byte => [value.extractLsb' 0 8]
  | .hword => [value.extractLsb' 8 8, value.extractLsb' 0 8]
  | .word => wordBytes value

/-- The value of the bytes at an address. -/
def value (size : Size) (signed : Bool) (mem : Word → Byte) (adr : Word) : Word :=
  let extend {w : Nat} (v : BitVec w) : Word := if signed then v.signExtend 32 else v.setWidth 32
  match size with
  | .byte => extend (mem adr)
  | .hword => extend (mem adr ++ mem (adr + 1))
  | .word => loadWord mem adr

end Size

section Addresses

variable (h g : BitVec 30) (l k : BitVec 2)

/-- An address is that of a word and the place of a byte in it. -/
theorem split_address (a : Word) : ∃ (h : BitVec 30) (l : BitVec 2), a = h ++ l :=
  ⟨a.extractLsb' 2 30, a.extractLsb' 0 2, (@BitVec.extractLsb'_append_extractLsb' 30 2 a).symm⟩

/-- The word of an address. -/
@[simp] theorem extract_high : (h ++ l).extractLsb' 2 30 = h := BitVec.extractLsb'_append_eq_left

/-- The place of a byte. -/
@[simp] theorem extract_low : (h ++ l).extractLsb' 0 2 = l := BitVec.extractLsb'_append_eq_right

/-- Two addresses are the same if both parts are. -/
theorem address_inj : h ++ l = g ++ k ↔ h = g ∧ l = k := by
  constructor
  · intro heq
    have hhigh := congrArg (BitVec.extractLsb' 2 30) heq
    have hlow := congrArg (BitVec.extractLsb' 0 2) heq
    rw [extract_high, extract_high] at hhigh
    rw [extract_low, extract_low] at hlow
    exact ⟨hhigh, hlow⟩
  · rintro ⟨rfl, rfl⟩
    rfl

/-- The value of an address. -/
theorem address_toNat : (h ++ l).toNat = 4 * h.toNat + l.toNat := by
  rw [BitVec.toNat_append, ← Nat.shiftLeft_add_eq_or_of_lt l.isLt, Nat.shiftLeft_eq, Nat.mul_comm]

/-- The next byte of a word. -/
theorem address_succ (hl : l.toNat < 3) : h ++ l + 1 = h ++ (l + 1) := by
  apply BitVec.eq_of_toNat_eq
  have hh := h.isLt
  rw [BitVec.toNat_add, address_toNat, address_toNat, BitVec.toNat_add]
  change (4 * h.toNat + l.toNat + 1) % 4294967296 = 4 * h.toNat + (l.toNat + 1) % 4
  omega

end Addresses

section Words

variable {mem : Word → Byte} {h g : BitVec 30}

/-- The addresses of the bytes of a word. -/
theorem address_bytes (h : BitVec 30) : h ++ 0#2 + 1 = h ++ 1#2 ∧ h ++ 1#2 + 1 = h ++ 2#2 ∧
    h ++ 2#2 + 1 = h ++ 3#2 :=
  ⟨address_succ h 0 (by decide), address_succ h 1 (by decide), address_succ h 2 (by decide)⟩

/-- The bytes of a word in memory. -/
theorem store_word (mem : Word → Byte) (h g : BitVec 30) (k : BitVec 2) (value : Word) :
    store mem (h ++ 0#2) (wordBytes value) (g ++ k) =
      if h = g then lane value (g ++ k) else mem (g ++ k) := by
  obtain ⟨h01, h12, h23⟩ := address_bytes h
  have hne : ∀ l : BitVec 2, h ≠ g → g ++ k ≠ h ++ l := fun l hhg heq =>
    hhg ((address_inj g h k l).1 heq).1.symm
  simp only [wordBytes, store, h01, h12, h23, Function.update_apply]
  by_cases hhg : h = g
  · subst hhg
    simp only [address_inj, true_and, lane, extract_low, if_true]
    rcases two_bits k with rfl | rfl | rfl | rfl <;> rfl
  · simp only [hne _ hhg, if_false, hhg]

/-- The bytes of a halfword that is in both halves of a word. -/
theorem extract_spread (value : Word) {upper : Nat} (hu : upper = 0 ∨ upper = 16) {s : Nat}
    (hs : s + 8 ≤ 16) :
    (Size.hword.spread value).extractLsb' (upper + s) 8 = value.extractLsb' s 8 := by
  have hlow : (value.extractLsb' 0 16).extractLsb' s 8 = value.extractLsb' s 8 := by
    rw [BitVec.extractLsb'_extractLsb'_of_le hs]
  change (value.extractLsb' 0 16 ++ value.extractLsb' 0 16).extractLsb' (upper + s) 8 = _
  rcases hu with rfl | rfl
  · rw [Nat.zero_add, BitVec.extractLsb'_append_eq_of_add_le hs, hlow]
  · rw [BitVec.extractLsb'_append_eq_of_le (Nat.le_add_right 16 s), Nat.add_sub_cancel_left,
      hlow]

/-- The lanes of a halfword that is stored. -/
theorem lane_hword (value : Word) (h : BitVec 30) (k : BitVec 2) :
    lane (Size.hword.spread value) (h ++ k) =
      value.extractLsb' (if k.getLsbD 0 then 0 else 8) 8 := by
  rw [lane, extract_low]
  rcases two_bits k with rfl | rfl | rfl | rfl
  · exact extract_spread value (.inr rfl) (s := 8) (by decide)
  · exact extract_spread value (.inr rfl) (s := 0) (by decide)
  · exact extract_spread value (.inl rfl) (s := 8) (by decide)
  · exact extract_spread value (.inl rfl) (s := 0) (by decide)

/-- The bytes of a halfword in memory. -/
theorem store_hword (mem : Word → Byte) (h g : BitVec 30) (k : BitVec 2) (upper : Bool)
    (value : Word) :
    store mem (h ++ (if upper then 2#2 else 0#2)) (Size.hword.bytes value) (g ++ k) =
      if h = g ∧ k.getLsbD 1 = upper then lane (Size.hword.spread value) (g ++ k)
      else mem (g ++ k) := by
  obtain ⟨h01, h12, h23⟩ := address_bytes h
  have hne : ∀ l : BitVec 2, h ≠ g → g ++ k ≠ h ++ l := fun l hhg heq =>
    hhg ((address_inj g h k l).1 heq).1.symm
  rw [lane_hword]
  cases upper with
  | false =>
      simp only [Size.bytes, store, h01, Function.update_apply, Bool.false_eq_true, if_false]
      by_cases hhg : h = g
      · subst hhg
        simp only [address_inj, true_and]
        rcases two_bits k with rfl | rfl | rfl | rfl <;> rfl
      · simp only [hne _ hhg, if_false, hhg, false_and]
  | true =>
      simp only [Size.bytes, store, h23, Function.update_apply, if_true]
      by_cases hhg : h = g
      · subst hhg
        simp only [address_inj, true_and]
        rcases two_bits k with rfl | rfl | rfl | rfl <;> rfl
      · simp only [hne _ hhg, if_false, hhg, false_and]

/-- The lanes of a byte that is stored. -/
theorem lane_byte (value a : Word) :
    lane (Size.byte.spread value) a = value.extractLsb' 0 8 := by
  obtain ⟨h, k, rfl⟩ := split_address a
  rw [lane, extract_low]
  change BitVec.extractLsb' _ 8 (value.extractLsb' 0 8 ++ value.extractLsb' 0 8 ++
    value.extractLsb' 0 8 ++ value.extractLsb' 0 8) = _
  generalize value.extractLsb' 0 8 = b
  rcases two_bits k with rfl | rfl | rfl | rfl
  · change BitVec.extractLsb' 24 8 (b ++ b ++ b ++ b) = b
    rw [BitVec.extractLsb'_append_eq_of_le (by decide),
      BitVec.extractLsb'_append_eq_of_le (by decide)]
    exact BitVec.extractLsb'_append_eq_left
  · change BitVec.extractLsb' 16 8 (b ++ b ++ b ++ b) = b
    rw [BitVec.extractLsb'_append_eq_of_le (by decide),
      BitVec.extractLsb'_append_eq_of_le (by decide)]
    exact BitVec.extractLsb'_append_eq_right
  · change BitVec.extractLsb' 8 8 (b ++ b ++ b ++ b) = b
    rw [BitVec.extractLsb'_append_eq_of_le (by decide)]
    exact BitVec.extractLsb'_append_eq_right
  · exact BitVec.extractLsb'_append_eq_right

/-- The lower bits of an aligned address. -/
theorem aligned_hword {h : BitVec 30} {l : BitVec 2} (ha : Size.hword.Aligned (h ++ l)) :
    l = if l.getLsbD 1 then 2#2 else 0#2 := by
  have hbit : l.getLsbD 0 = false := by
    rw [← ha, BitVec.getLsbD_append, if_pos (by decide)]
  rcases two_bits l with rfl | rfl | rfl | rfl
  · rfl
  · exact absurd hbit (by decide)
  · rfl
  · exact absurd hbit (by decide)

/-- The lanes that an access of a size picks. -/
theorem lanes_byte : ∀ l k : BitVec 2, (0b1000#4 >>> l).getLsbD (3 - k.toNat) = decide (k = l) := by
  decide

/-- The lanes of a halfword. -/
theorem lanes_hword : ∀ (upper : Bool) (k : BitVec 2),
    (if upper then 0b0011#4 else 0b1100#4).getLsbD (3 - k.toNat) =
      decide (k.getLsbD 1 = upper) := by
  decide

/-- The lanes of a word. -/
theorem lanes_word : ∀ k : BitVec 2, (0b1111#4).getLsbD (3 - k.toNat) = true := by
  decide

/-- The bit of an address that picks a halfword. -/
theorem extract_upper (h : BitVec 30) (l : BitVec 2) : (h ++ l).getLsbD 1 = l.getLsbD 1 := by
  rw [BitVec.getLsbD_append, if_pos (by decide)]

/-- A store leaves the bytes of its value at its address. -/
theorem apply_store {size : Size} {adr : Word} (haligned : size.Aligned adr) (mem : Word → Byte)
    (value : Word) :
    Access.apply ⟨adr, size.lanes adr, true, size.spread value⟩ mem =
      store mem adr (size.bytes value) := by
  obtain ⟨h, l, rfl⟩ := split_address adr
  funext a
  obtain ⟨g, k, rfl⟩ := split_address a
  rw [Access.apply, Access.selects, extract_high, extract_high, extract_low, Bool.true_and]
  cases size with
  | byte =>
      have hsel : (Size.byte.lanes (h ++ l)).getLsbD (3 - k.toNat) = decide (k = l) := by
        change (0b1000#4 >>> (h ++ l).extractLsb' 0 2).getLsbD (3 - k.toNat) = _
        rw [extract_low]
        exact lanes_byte l k
      rw [hsel, lane_byte]
      simp only [Size.bytes, store, Function.update_apply, address_inj]
      by_cases hhg : h = g
      · subst hhg
        simp
      · simp [hhg, Ne.symm hhg]
  | hword =>
      have hl := aligned_hword haligned
      generalize hupper : l.getLsbD 1 = upper at hl
      have hsel : (Size.hword.lanes (h ++ l)).getLsbD (3 - k.toNat) =
          decide (k.getLsbD 1 = upper) := by
        change (if (h ++ l).getLsbD 1 then 0b0011#4 else 0b1100#4).getLsbD (3 - k.toNat) = _
        rw [extract_upper, hupper]
        exact lanes_hword upper k
      rw [hsel, hl, store_hword]
      by_cases hhg : h = g
      · subst hhg
        simp
      · simp [hhg]
  | word =>
      have hl : l = 0#2 := by
        have hl := haligned
        rw [Size.Aligned, extract_low] at hl
        exact hl
      have hsel : (Size.word.lanes (h ++ l)).getLsbD (3 - k.toNat) = true := lanes_word k
      rw [hsel, hl]
      change (if (h == g && true) = true then lane value (g ++ k) else mem (g ++ k)) =
        store mem (h ++ 0#2) (wordBytes value) (g ++ k)
      rw [store_word]
      by_cases hhg : h = g
      · subst hhg
        simp
      · simp [hhg]

/-- A byte of a word in memory. -/
theorem extract_wordAt (mem : Word → Byte) (h : BitVec 30) (l k : BitVec 2) :
    (wordAt mem (h ++ l)).extractLsb' (8 * (3 - k.toNat)) 8 = mem (h ++ k) := by
  obtain ⟨h01, h12, h23⟩ := address_bytes h
  rw [wordAt, extract_high, loadWord, h01, h12, h23]
  rcases two_bits k with rfl | rfl | rfl | rfl
  · change BitVec.extractLsb' 24 8 (mem _ ++ mem _ ++ mem _ ++ mem _) = _
    rw [BitVec.extractLsb'_append_eq_of_le (by decide),
      BitVec.extractLsb'_append_eq_of_le (by decide)]
    exact BitVec.extractLsb'_append_eq_left
  · change BitVec.extractLsb' 16 8 (mem _ ++ mem _ ++ mem _ ++ mem _) = _
    rw [BitVec.extractLsb'_append_eq_of_le (by decide),
      BitVec.extractLsb'_append_eq_of_le (by decide)]
    exact BitVec.extractLsb'_append_eq_right
  · change BitVec.extractLsb' 8 8 (mem _ ++ mem _ ++ mem _ ++ mem _) = _
    rw [BitVec.extractLsb'_append_eq_of_le (by decide)]
    exact BitVec.extractLsb'_append_eq_right
  · exact BitVec.extractLsb'_append_eq_right

/-- The lower half of a word. -/
theorem extract_half (upper : BitVec 16) (b c : Byte) :
    (upper ++ b ++ c).extractLsb' 0 16 = b ++ c := by
  apply BitVec.eq_of_getLsbD_eq
  intro i hi
  rw [BitVec.getLsbD_extractLsb', decide_eq_true hi, Bool.true_and, Nat.zero_add,
    BitVec.getLsbD_append, BitVec.getLsbD_append, BitVec.getLsbD_append]
  by_cases hlow : i < 8
  · rw [if_pos hlow, if_pos hlow]
  · rw [if_neg hlow, if_neg hlow, if_pos (by omega)]

/-- A load finds the value of the bytes at its address. -/
theorem part_wordAt {size : Size} {adr : Word} (haligned : size.Aligned adr) (signed : Bool)
    (mem : Word → Byte) : size.part signed adr (wordAt mem adr) = size.value signed mem adr := by
  obtain ⟨h, l, rfl⟩ := split_address adr
  cases size with
  | byte =>
      have hbyte := extract_wordAt mem h l l
      simp only [Size.part, Size.value, extract_low, hbyte]
  | hword =>
      have hl := aligned_hword haligned
      obtain ⟨h01, h12, h23⟩ := address_bytes h
      simp only [Size.part, Size.value, extract_upper]
      generalize l.getLsbD 1 = upper at hl
      subst hl
      rw [wordAt, extract_high, loadWord, h01, h12, h23]
      cases upper with
      | true =>
          have hhalf := extract_half (mem (h ++ 0#2) ++ mem (h ++ 1#2)) (mem (h ++ 2#2))
            (mem (h ++ 3#2))
          simp only [if_true, hhalf, h23]
      | false =>
          have hhalf : BitVec.extractLsb' 16 16 (mem (h ++ 0#2) ++ mem (h ++ 1#2) ++
              mem (h ++ 2#2) ++ mem (h ++ 3#2)) = mem (h ++ 0#2) ++ mem (h ++ 1#2) := by
            rw [BitVec.extractLsb'_append_eq_of_le (by decide),
              BitVec.extractLsb'_append_eq_of_le (by decide)]
            exact BitVec.extractLsb'_eq_self
          simp only [Bool.false_eq_true, if_false, hhalf, h01]
  | word =>
      have hl : l = 0#2 := by
        have hl := haligned
        rw [Size.Aligned, extract_low] at hl
        exact hl
      rw [hl]
      simp only [Size.part, Size.value, wordAt, extract_high]

end Words

end Soc.Lm32
