import Mathlib.Data.List.GetD
import Soc.Libbase.Crc32
import Soc.Libnet.Send

/-!
# Bytes in a buffer

A frame is built by storing lists of bytes at fixed offsets. A list that was stored is found where
it was put until another store overlaps it, and what is computed from a range of bytes depends on
that range only. Most of these lemmas are about `Slot.put`, the rest about the checksums.
-/

namespace Soc.Libnet

open Libbase (crc32 crcBlocks crcBlocks_eq crcTail)
open Library (Traced)

/-- A half word has two bytes. -/
@[simp] theorem length_bytes16 (value : BitVec 16) : (bytes16 value).length = 2 := rfl

/-- A word has four bytes. -/
@[simp] theorem length_bytes32 (value : Word) : (bytes32 value).length = 4 := rfl

/-- The length of an Ethernet header. -/
theorem length_ethernet {destmac srcmac : List Byte} (hdest : destmac.length = 6)
    (hsrc : srcmac.length = 6) (ethertype : BitVec 16) :
    (List.replicate 7 (0x55 : Byte) ++ [0xd5] ++ destmac ++ srcmac ++
      bytes16 ethertype).length = 22 := by
  simp only [List.length_append, hdest, hsrc]
  rfl

namespace Slot

/-- A list of bytes stands at an offset. -/
def Holds (raw : Slot) (offset : Int) (bytes : List Byte) : Prop :=
  ∀ k (h : k < bytes.length), raw (offset + k) = bytes[k]

/-- Two buffers hold the same bytes from one offset to another. -/
def Agrees (raw raw' : Slot) (first last : Int) : Prop :=
  ∀ i, first ≤ i → i < last → raw i = raw' i

variable {raw raw' : Slot} {offset offset' first last : Int} {bytes bytes' : List Byte}

/-- A byte outside the range that is stored. -/
theorem put_outside {i : Int} (h : i < offset ∨ offset + bytes.length ≤ i) :
    raw.put offset bytes i = raw i := by
  unfold put
  rw [if_neg (by omega)]

/-- A byte inside the range that is stored. -/
theorem put_inside {k : Nat} (h : k < bytes.length) :
    raw.put offset bytes (offset + k) = bytes[k] := by
  have hindex : (offset + k - offset).toNat = k := by omega
  unfold put
  rw [if_pos (by omega), hindex, List.getD_eq_getElem _ _ h]

/-- A list stands where it was stored. -/
theorem holds_put : (raw.put offset bytes).Holds offset bytes :=
  fun _ h => put_inside h

/-- A store elsewhere leaves a list where it is. -/
theorem Holds.put (h : raw.Holds offset bytes)
    (hapart : offset + bytes.length ≤ offset' ∨ offset' + bytes'.length ≤ offset) :
    (raw.put offset' bytes').Holds offset bytes := by
  intro k hk
  rw [put_outside (by omega)]
  exact h k hk

/-- One list behind another. -/
theorem Holds.append {xs ys : List Byte} (h : raw.Holds offset (xs ++ ys)) :
    raw.Holds offset xs ∧ raw.Holds (offset + xs.length) ys := by
  constructor
  · intro k hk
    rw [h k (by rw [List.length_append]; omega), List.getElem_append_left hk]
  · intro k hk
    have hboth := h (xs.length + k) (by rw [List.length_append]; omega)
    rw [List.getElem_append_right (Nat.le_add_right _ _)] at hboth
    rw [Int.add_assoc, ← Int.natCast_add, hboth]
    congr 1
    omega

/-- A list stands in every buffer with the same bytes. -/
theorem Holds.congr (h : raw.Holds offset bytes) (hagree : raw.Agrees raw' first last)
    (hfirst : first ≤ offset) (hlast : offset + bytes.length ≤ last) :
    raw'.Holds offset bytes := by
  intro k hk
  rw [← hagree _ (by omega) (by omega)]
  exact h k hk

/-- A single byte. -/
theorem Holds.head {b : Byte} (h : raw.Holds offset (b :: bytes)) : raw offset = b := by
  have hhead := h 0 (Nat.succ_pos _)
  rwa [Int.natCast_zero, Int.add_zero] at hhead

/-- The half word of two bytes. -/
theorem Holds.half {v : BitVec 16} (h : raw.Holds offset (bytes16 v)) : raw.half offset = v := by
  have h1 : raw offset = v.extractLsb' 8 8 := h.head
  have h0 : raw (offset + 1) = v.extractLsb' 0 8 := h 1 Nat.one_lt_two
  rw [Slot.half, h1, h0, BitVec.extractLsb'_append_extractLsb'_eq_extractLsb' (by rfl)]
  exact BitVec.extractLsb'_eq_self

/-- The word of four bytes. -/
theorem Holds.word {v : Word} (h : raw.Holds offset (bytes32 v)) : raw.word offset = v := by
  have h3 : raw offset = v.extractLsb' 24 8 := h.head
  have h2 : raw (offset + 1) = v.extractLsb' 16 8 := h 1 (show 1 < 4 by decide)
  have h1 : raw (offset + 2) = v.extractLsb' 8 8 := h 2 (show 2 < 4 by decide)
  have h0 : raw (offset + 3) = v.extractLsb' 0 8 := h 3 (show 3 < 4 by decide)
  rw [Slot.word, h3, h2, h1, h0, word_of_bytes]

/-- Agreement is symmetric. -/
theorem Agrees.symm (h : raw.Agrees raw' first last) : raw'.Agrees raw first last :=
  fun i hfirst hlast => (h i hfirst hlast).symm

/-- Agreement on a part of a range. -/
theorem Agrees.mono (h : raw.Agrees raw' first last) {first' last' : Int} (hfirst : first ≤ first')
    (hlast : last' ≤ last) : raw.Agrees raw' first' last' :=
  fun i hi hi' => h i (by omega) (by omega)

/-- Agreement on two adjacent ranges. -/
theorem Agrees.join {middle : Int} (h : raw.Agrees raw' first middle)
    (h' : raw.Agrees raw' middle last) : raw.Agrees raw' first last := by
  intro i hfirst hlast
  by_cases hi : i < middle
  · exact h i hfirst hi
  · exact h' i (by omega) hlast

/-- Storing the same bytes keeps what agrees. -/
theorem Agrees.put (h : raw.Agrees raw' first last) :
    (raw.put offset bytes).Agrees (raw'.put offset bytes) first last := by
  intro i hfirst hlast
  unfold Slot.put
  split
  · rfl
  · exact h i hfirst hlast

/-- Storing the same bytes makes buffers agree there. -/
theorem agrees_put {n : Nat} (hlength : bytes.length = n) :
    (raw.put offset bytes).Agrees (raw'.put offset bytes) offset (offset + n) := by
  intro i hfirst hlast
  unfold Slot.put
  rw [if_pos ⟨hfirst, by omega⟩, if_pos ⟨hfirst, by omega⟩]

/-- The bytes of buffers that agree. -/
theorem bytes_eq_iff {n : Nat} : raw.bytes n = raw'.bytes n ↔ raw.Agrees raw' 0 n := by
  unfold Slot.bytes
  rw [List.map_inj_left]
  constructor
  · intro h i hfirst hlast
    have hi := h i.toNat (List.mem_range.2 (by omega))
    rwa [Int.toNat_of_nonneg hfirst] at hi
  · intro h i hi
    have hlast := List.mem_range.1 hi
    exact h i (by omega) (by omega)

/-- The bytes from an offset on. -/
def slice (raw : Slot) (offset : Int) : Nat → List Byte
  | 0 => []
  | n + 1 => raw offset :: slice raw (offset + 1) n

/-- The length of a slice. -/
@[simp] theorem length_slice (n : Nat) : (raw.slice offset n).length = n := by
  induction n generalizing offset with
  | zero => rfl
  | succ n ih => rw [slice, List.length_cons, ih]

/-- Two slices one behind the other. -/
theorem slice_add (raw : Slot) (offset : Int) (m n : Nat) :
    raw.slice offset (m + n) = raw.slice offset m ++ raw.slice (offset + m) n := by
  induction m generalizing offset with
  | zero => rw [Nat.zero_add, slice, List.nil_append, Int.natCast_zero, Int.add_zero]
  | succ m ih =>
      have hoffset : offset + 1 + m = offset + (m + 1 : Nat) := by omega
      rw [Nat.add_right_comm, slice, ih, slice, List.cons_append, hoffset]

/-- A slice of buffers that agree. -/
theorem Agrees.slice {n : Nat} (h : raw.Agrees raw' offset (offset + n)) :
    raw.slice offset n = raw'.slice offset n := by
  induction n generalizing offset with
  | zero => rfl
  | succ n ih =>
      rw [Slot.slice, Slot.slice, h offset (Int.le_refl _) (by omega),
        ih (h.mono (by omega) (by omega))]

/-- Buffers with the same slice agree there. -/
theorem agrees_of_slice {n : Nat} (h : raw.slice offset n = raw'.slice offset n) :
    raw.Agrees raw' offset (offset + n) := by
  induction n generalizing offset with
  | zero =>
      intro i hfirst hlast
      omega
  | succ n ih =>
      obtain ⟨hhead, hrest⟩ := List.cons.inj h
      intro i hfirst hlast
      by_cases hi : i = offset
      · rw [hi]
        exact hhead
      · exact ih hrest i (by omega) (by omega)

/-- A list that stands at an offset. -/
theorem Holds.slice {bytes : List Byte} (h : raw.Holds offset bytes) :
    raw.slice offset bytes.length = bytes := by
  induction bytes generalizing offset with
  | nil => rfl
  | cons byte bytes ih =>
      have hall : raw.Holds offset ([byte] ++ bytes) := h
      have hrest : raw.slice (offset + 1) bytes.length = bytes := ih hall.append.2
      rw [List.length_cons, Slot.slice, h.head, hrest]

end Slot

section Checksums

variable {mem mem' : Slot} {first last : Int}

/-- `DO1` depends on the byte it reads. -/
theorem crcTail_congr {len : Nat} {s : Word × Int} (h : mem.Agrees mem' s.2 (s.2 + len)) :
    (crcTail mem len s).value = (crcTail mem' len s).value := by
  induction len generalizing s with
  | zero => rfl
  | succ len ih =>
      have hbyte : (Libbase.do1 mem s).value = (Libbase.do1 mem' s).value := by
        rw [Libbase.do1, Libbase.do1, Traced.value_bind, Traced.value_bind]
        show (_, _) = (_, _)
        rw [show (Libbase.readByte mem s.2).value = (Libbase.readByte mem' s.2).value from
          h s.2 (Int.le_refl _) (by omega)]
      rw [crcTail, crcTail, Traced.value_bind, Traced.value_bind, hbyte]
      refine ih (h.mono ?_ ?_)
      · show s.2 ≤ s.2 + 1
        omega
      · show s.2 + 1 + len ≤ s.2 + (len + 1 : Nat)
        omega

/-- `crc32` depends on the bytes of its buffer. -/
theorem crc32_congr {buffer : Int} {len : Word} (h : mem.Agrees mem' buffer (buffer + len.toNat)) :
    (crc32 mem buffer len).value = (crc32 mem' buffer len).value := by
  rw [crc32, crc32]
  simp only [Traced.value_bind, Traced.value_touch, Traced.value_pure, crcBlocks_eq]
  rw [crcTail_congr h]

/-- The first loop of `ip_checksum` depends on the bytes it adds. -/
theorem addHalves_congr {n : Nat} {ptr : Int} {r : Word} (h : mem.Agrees mem' ptr (ptr + 2 * n)) :
    addHalves mem ptr n r = addHalves mem' ptr n r := by
  induction n generalizing ptr r with
  | zero => rfl
  | succ n ih =>
      rw [addHalves, addHalves, h ptr (Int.le_refl _) (by omega), h (ptr + 1) (by omega) (by omega)]
      exact ih (h.mono (by omega) (by omega))

/-- `ip_checksum` depends on the bytes of its buffer. -/
theorem ipChecksum_congr {buffer : Int} {length : Nat} {r : Word} {complete : Bool}
    (h : mem.Agrees mem' buffer (buffer + length)) :
    ipChecksum r mem buffer length complete = ipChecksum r mem' buffer length complete := by
  have hsum : addHalves mem buffer (length / 2) r = addHalves mem' buffer (length / 2) r :=
    addHalves_congr (h.mono (Int.le_refl _) (by omega))
  rw [ipChecksum, ipChecksum, hsum]

end Checksums

end Soc.Libnet
