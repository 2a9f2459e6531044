import Soc.Libnet.Microudp

/-!
# Which bytes a received frame makes the driver read

The MAC reports frame lengths from 0 to 2047, and the slot may hold anything. `process_frame`
reads the four bytes before `rxlen` and runs `crc32` over `rxlen - 12` bytes without a look
at the length, so it stays inside the slot exactly for lengths from 12 on and for frames
whose preamble is wrong. `process_ip` compares its three lengths with the sizes of the
headers only, so the payload it hands on lies inside the frame and the datagram exactly when
the UDP length does.
-/

namespace Soc.Libnet

open Libbase (Access crc32 crc32_trace readByte)
open Library (Traced)
open Library.Traced (Within within_pure within_touch)

/-- The size of a slot of the MAC. -/
def SLOT_SIZE : Int := 2048

/-- Reads inside the slot, and runs of `crc32` over at most `rxlen` bytes. -/
def Inside (rxlen : Int) : Access → Prop
  | .byte offset => 0 ≤ offset ∧ offset < SLOT_SIZE
  | .crc len => (len.toNat : Int) ≤ rxlen

/-- The preamble and the start-of-frame byte. -/
def PreambleValid (raw : Slot) : Prop :=
  (∀ k : Nat, k < 7 → raw k = 0x55) ∧ raw 7 = 0xd5

section Reads

variable {raw : Slot} {offset rxlen : Int}

/-- Reading a byte of the slot. -/
theorem within_readByte (h : 0 ≤ offset ∧ offset < SLOT_SIZE) :
    (readByte raw offset).Within (Inside rxlen) :=
  within_touch _ h

/-- Reading a half word of the slot. -/
theorem within_readHalf (h : 0 ≤ offset ∧ offset + 1 < SLOT_SIZE) :
    (readHalf raw offset).Within (Inside rxlen) := by
  refine (within_readByte (by omega)).bind ?_
  exact (within_readByte (by omega)).bind (within_pure _)

/-- Reading a word of the slot. -/
theorem within_readWord (h : 0 ≤ offset ∧ offset + 3 < SLOT_SIZE) :
    (readWord raw offset).Within (Inside rxlen) := by
  refine (within_readByte (by omega)).bind ?_
  refine (within_readByte (by omega)).bind ?_
  refine (within_readByte (by omega)).bind ?_
  exact (within_readByte (by omega)).bind (within_pure _)

/-- Reading `n` bytes of the slot. -/
theorem within_readBytes {n : Nat} (h : 0 ≤ offset ∧ offset + n ≤ SLOT_SIZE) :
    (readBytes raw offset n).Within (Inside rxlen) := by
  induction n generalizing offset with
  | zero => exact within_pure _
  | succ n ih =>
      refine (within_readByte (by omega)).bind ?_
      exact (ih (by omega)).bind (within_pure _)

/-- The test of the preamble stays inside the slot. -/
theorem within_preambleFrom {n : Nat} (h : 0 ≤ offset ∧ offset + n < SLOT_SIZE) :
    (preambleFrom raw offset n).Within (Inside rxlen) := by
  induction n generalizing offset with
  | zero => exact (within_readByte (by omega)).bind (within_pure _)
  | succ n ih =>
      refine (within_readByte (by omega)).bind ?_
      split
      · exact within_pure _
      · exact ih (by omega)

/-- The test of the preamble accepts `n` bytes 0x55 and a byte 0xd5. -/
theorem preambleFrom_value {n : Nat} :
    (preambleFrom raw offset n).value = true ↔
      (∀ k : Nat, k < n → raw (offset + k) = 0x55) ∧ raw (offset + n) = 0xd5 := by
  induction n generalizing offset with
  | zero =>
      rw [preambleFrom, Traced.value_bind, readByte, Traced.value_touch, Traced.value_pure,
        decide_eq_true_iff, Int.natCast_zero, Int.add_zero]
      exact (and_iff_right fun k hk => absurd hk (Nat.not_lt_zero k)).symm
  | succ n ih =>
      rw [preambleFrom, Traced.value_bind, readByte, Traced.value_touch]
      by_cases heq : raw offset = 0x55
      case neg =>
        rw [if_pos heq]
        refine iff_of_false Bool.false_ne_true fun hall => heq ?_
        have hzero := hall.1 0 (Nat.succ_pos n)
        rwa [Int.natCast_zero, Int.add_zero] at hzero
      case pos =>
        rw [if_neg (not_not_intro heq)]
        have hshift : ∀ k : Nat, offset + 1 + k = offset + (k + 1 : Nat) := fun k => by omega
        rw [ih, hshift n]
        constructor
        · rintro ⟨hall, hlast⟩
          refine ⟨fun k hk => ?_, hlast⟩
          cases k with
          | zero => simpa using heq
          | succ k =>
              rw [← hshift k]
              exact hall k (by omega)
        · rintro ⟨hall, hlast⟩
          refine ⟨fun k hk => ?_, hlast⟩
          rw [hshift k]
          exact hall (k + 1) (by omega)

/-- `process_frame` tests the whole preamble. -/
theorem preamble_value : (preambleFrom raw 0 7).value = true ↔ PreambleValid raw := by
  rw [preambleFrom_value]
  simp only [Int.zero_add]
  rfl

/-- `process_arp` stays inside the slot. -/
theorem within_processArp (g : Globals) (len : Int) :
    (processArp g raw len).Within (Inside rxlen) := by
  unfold processArp
  have hslot : SLOT_SIZE = 2048 := rfl
  split
  · exact within_pure _
  refine (within_readHalf (by omega)).bind ?_
  split
  · exact within_pure _
  refine (within_readHalf (by omega)).bind ?_
  split
  · exact within_pure _
  refine (within_readByte (by omega)).bind ?_
  split
  · exact within_pure _
  refine (within_readByte (by omega)).bind ?_
  split
  · exact within_pure _
  refine (within_readHalf (by omega)).bind ?_
  split
  · refine (within_readWord (by omega)).bind ?_
    split
    · exact (within_readBytes (by omega)).bind (within_pure _)
    · exact within_pure _
  refine (within_readHalf (by omega)).bind ?_
  split
  · refine (within_readWord (by omega)).bind ?_
    split
    · refine (within_readBytes (by omega)).bind ?_
      refine (within_readWord (by omega)).bind ?_
      exact (within_readBytes (by omega)).bind (within_pure _)
    · exact within_pure _
  · exact within_pure _

/-- `process_ip` stays inside the slot. -/
theorem within_processIp (g : Globals) (len : Int) :
    (processIp g raw len).Within (Inside rxlen) := by
  unfold processIp
  have hslot : SLOT_SIZE = 2048 := rfl
  split
  · exact within_pure _
  refine (within_readByte (by omega)).bind ?_
  split
  · exact within_pure _
  refine (within_readHalf (by omega)).bind ?_
  split
  · exact within_pure _
  refine (within_readByte (by omega)).bind ?_
  split
  · exact within_pure _
  refine (within_readWord (by omega)).bind ?_
  split
  · exact within_pure _
  refine (within_readHalf (by omega)).bind ?_
  split
  · exact within_pure _
  split
  · refine (within_readWord (by omega)).bind ?_
    refine (within_readHalf (by omega)).bind ?_
    refine (within_readHalf (by omega)).bind ?_
    exact (within_readHalf (by omega)).bind (within_pure _)
  · exact within_pure _

/-- The length `process_frame` hands to `crc32`, for a frame that has one. -/
theorem crcLength_of_le (h : 12 ≤ rxlen) (hmax : rxlen < SLOT_SIZE) :
    ((BitVec.ofInt 32 (rxlen - 12)).toNat : Int) = rxlen - 12 := by
  have hslot : SLOT_SIZE = 2048 := rfl
  rw [BitVec.toNat_ofInt]
  omega

/-- The length `process_frame` hands to `crc32` wraps around below twelve bytes. -/
theorem crcLength_of_lt (h : 0 ≤ rxlen) (hrunt : rxlen < 12) :
    ((BitVec.ofInt 32 (rxlen - 12)).toNat : Int) = 4294967296 + rxlen - 12 := by
  rw [BitVec.toNat_ofInt]
  omega

/-- From twelve bytes on `crc32` stays inside the slot. -/
theorem within_crc32 (h : 12 ≤ rxlen) (hmax : rxlen < SLOT_SIZE) :
    (crc32 raw 8 (.ofInt 32 (rxlen - 12))).Within (Inside rxlen) := by
  have hlength := crcLength_of_le h hmax
  intro e he
  rw [crc32_trace, List.mem_cons, List.mem_map] at he
  obtain rfl | ⟨i, hi, rfl⟩ := he
  · show ((BitVec.ofInt 32 (rxlen - 12)).toNat : Int) ≤ rxlen
    omega
  · have hi := List.mem_range.1 hi
    show 0 ≤ 8 + (i : Int) ∧ 8 + (i : Int) < SLOT_SIZE
    omega

/-- Below twelve bytes `crc32` does not. -/
theorem not_within_crc32 (h : 0 ≤ rxlen) (hrunt : rxlen < 12) :
    ¬ (crc32 raw 8 (.ofInt 32 (rxlen - 12))).Within (Inside rxlen) := by
  intro hwithin
  have hlength := crcLength_of_lt h hrunt
  have hcrc : ((BitVec.ofInt 32 (rxlen - 12)).toNat : Int) ≤ rxlen := by
    refine hwithin (.crc (.ofInt 32 (rxlen - 12))) ?_
    rw [crc32_trace]
    exact List.mem_cons_self
  omega

/-- What `process_frame` reads of a frame whose preamble is wrong. -/
theorem within_processFrame_of_not_preamble (g : Globals) (h : ¬ PreambleValid raw) :
    (processFrame g raw rxlen).Within (Inside rxlen) := by
  have hslot : SLOT_SIZE = 2048 := rfl
  refine (within_preambleFrom (by omega)).bind ?_
  rw [← preamble_value, Bool.not_eq_true] at h
  rw [h]
  exact within_pure _

/-- What `process_frame` reads of a frame of at least twelve bytes. -/
theorem within_processFrame_of_le (g : Globals) (h : 12 ≤ rxlen) (hmax : rxlen < SLOT_SIZE) :
    (processFrame g raw rxlen).Within (Inside rxlen) := by
  have hslot : SLOT_SIZE = 2048 := rfl
  refine (within_preambleFrom (by omega)).bind ?_
  split
  · exact within_pure _
  -- the four bytes of the checksum, and the checksum of the rest
  refine (within_readByte (by omega)).bind ?_
  refine (within_readByte (by omega)).bind ?_
  refine (within_readByte (by omega)).bind ?_
  refine (within_readByte (by omega)).bind ?_
  refine (within_crc32 h hmax).bind ?_
  split
  · exact within_pure _
  -- the rest of the frame
  refine (within_readHalf (by omega)).bind ?_
  split
  · exact within_processArp g _
  refine (within_readHalf (by omega)).bind ?_
  split
  · exact within_processIp g _
  · exact within_pure _

/-- A shorter frame with a good preamble makes `process_frame` leave the slot. -/
theorem not_within_processFrame (g : Globals) (h : 0 ≤ rxlen) (hrunt : rxlen < 12)
    (hpreamble : PreambleValid raw) : ¬ (processFrame g raw rxlen).Within (Inside rxlen) := by
  intro hwithin
  have hrest := hwithin.of_bind.2
  rw [preamble_value.2 hpreamble] at hrest
  -- the preamble and the four bytes of the checksum come before `crc32`
  have hcrc := hrest.of_bind.2.of_bind.2.of_bind.2.of_bind.2.of_bind.1
  exact not_within_crc32 h hrunt hcrc

/-- For every length the MAC can report and every content of the slot, `process_frame` reads only
inside the slot and starts `crc32` over at most `rxlen` bytes if and only if the frame has at least
twelve bytes or its preamble is wrong. -/
theorem reads_inside_iff (g : Globals) (raw : Slot) {rxlen : Int} (h : 0 ≤ rxlen)
    (hmax : rxlen < SLOT_SIZE) :
    (processFrame g raw rxlen).Within (Inside rxlen) ↔ 12 ≤ rxlen ∨ ¬ PreambleValid raw := by
  constructor
  · intro hwithin
    by_cases hle : 12 ≤ rxlen
    · exact .inl hle
    · exact .inr fun hpreamble => not_within_processFrame g h (by omega) hpreamble hwithin
  · rintro (hle | hnot)
    · exact within_processFrame_of_le g hle hmax
    · exact within_processFrame_of_not_preamble g hnot

/-- A slot that still holds the preamble of an earlier frame. -/
def leftover : Slot := fun offset => if offset < 7 then 0x55 else 0xd5

/-- The globals of a node at 192.168.0.42. -/
def node : Globals where
  myIp := 0xc0a8002a
  cachedIp := 0
  rxCallback := true

/-- The shortest frame that is not a runt. -/
theorem reads_inside_iff_shortest : (processFrame node leftover 12).Within (Inside 12) :=
  (reads_inside_iff node leftover (by decide) (by decide)).2 (.inl (by decide))

/-- An empty frame in a slot with a preamble makes `process_frame` read outside the slot and start
`crc32` over `2 ^ 32 - 12` bytes. -/
theorem empty_frame_escapes : ¬ (processFrame node leftover 0).Within (Inside 0) :=
  not_within_processFrame node (by decide) (by decide) ⟨by decide, by decide⟩

end Reads

section Payload

variable {g : Globals} {raw : Slot} {rxlen data : Int} {srcIp : Word} {srcPort dstPort : BitVec 16}
  {length : Nat}

/-- A guard that returns something else was passed. -/
theorem of_guard {ε α : Type} {c : Prop} [Decidable c] {x : Traced ε α} {a b : α}
    (h : (if c then pure a else x).value = b) (hne : a ≠ b) : ¬ c ∧ x.value = b := by
  by_cases hc : c
  · rw [if_pos hc] at h
    exact absurd h hne
  · rw [if_neg hc] at h
    exact ⟨hc, h⟩

/-- `process_arp` does not call `rx_callback`. -/
theorem processArp_ne_deliver :
    (processArp g raw rxlen).value ≠ .deliver srcIp srcPort dstPort data length := by
  intro h
  obtain ⟨-, h⟩ := of_guard h nofun
  obtain ⟨-, h⟩ := of_guard h nofun
  obtain ⟨-, h⟩ := of_guard h nofun
  obtain ⟨-, h⟩ := of_guard h nofun
  obtain ⟨-, h⟩ := of_guard h nofun
  rw [Traced.value_bind] at h
  split at h
  · rw [Traced.value_bind] at h
    split at h <;> cases h
  rw [Traced.value_bind] at h
  split at h
  · rw [Traced.value_bind] at h
    split at h <;> cases h
  · cases h

/-- What `process_ip` calls `rx_callback` with. -/
theorem processIp_deliver
    (h : (processIp g raw rxlen).value = .deliver srcIp srcPort dstPort data length) :
    8 ≤ raw.udpLength.toNat ∧ data = 50 ∧ length = raw.udpLength.toNat - 8 := by
  obtain ⟨-, h⟩ := of_guard h nofun
  obtain ⟨-, h⟩ := of_guard h nofun
  obtain ⟨-, h⟩ := of_guard h nofun
  obtain ⟨-, h⟩ := of_guard h nofun
  obtain ⟨-, h⟩ := of_guard h nofun
  obtain ⟨hudp, h⟩ := of_guard h nofun
  -- all guards passed; the callback is set or not
  split at h
  · cases h
    exact ⟨Nat.le_of_not_lt hudp, rfl, rfl⟩
  · cases h

/-- A payload reaches `rx_callback` through `process_ip`. -/
theorem processFrame_deliver
    (h : (processFrame g raw rxlen).value = .deliver srcIp srcPort dstPort data length) :
    (processIp g raw (rxlen - 4)).value = .deliver srcIp srcPort dstPort data length := by
  obtain ⟨-, h⟩ := of_guard h nofun
  obtain ⟨-, h⟩ := of_guard h nofun
  rw [Traced.value_bind] at h
  split at h
  · exact absurd h processArp_ne_deliver
  rw [Traced.value_bind] at h
  split at h
  · exact h
  · cases h

/-- A payload lies inside the frame, without its checksum, and inside the IP datagram. -/
def PayloadInside (raw : Slot) (rxlen data : Int) (length : Nat) : Prop :=
  ∀ k : Nat, k < length →
    (0 ≤ data + k ∧ data + k < rxlen - 4) ∧
      (22 ≤ data + k ∧ data + k < 22 + raw.totalLength.toNat)

/-- The payload `process_ip` hands to `rx_callback` lies inside the frame and inside the IP datagram
if and only if it is empty or the length in the UDP header fits both. -/
theorem payload_inside_iff
    (h : (processFrame g raw rxlen).value = .deliver srcIp srcPort dstPort data length) :
    PayloadInside raw rxlen data length ↔
      raw.udpLength.toNat = 8 ∨
        ((raw.udpLength.toNat : Int) ≤ rxlen - 46 ∧
          raw.udpLength.toNat + 20 ≤ raw.totalLength.toNat) := by
  obtain ⟨hudp, rfl, rfl⟩ := processIp_deliver (processFrame_deliver h)
  constructor
  · intro hinside
    by_cases hempty : raw.udpLength.toNat = 8
    · exact .inl hempty
    · -- the last byte of the payload
      have hlast := hinside (raw.udpLength.toNat - 9) (by omega)
      exact .inr (by omega)
  · intro hfits k hk
    omega

/-- A slot that holds a frame. -/
def slotOf (frame : List Byte) : Slot := fun offset => frame.getD offset.toNat 0

/-- A frame from 192.168.0.14 to `node`, whose IP datagram holds 46 bytes, with the two bytes of the
UDP length and the four of the checksum. -/
def datagram (udpLength fcs : List Byte) : List Byte :=
  [0x55, 0x55, 0x55, 0x55, 0x55, 0x55, 0x55, 0xd5, 0x02, 0x00, 0x00, 0x00, 0x00, 0x2a, 0x02, 0x00,
   0x00, 0x00, 0x00, 0x01, 0x08, 0x00, 0x45, 0x00, 0x00, 0x2e, 0x00, 0x00, 0x40, 0x00, 0x40, 0x11,
   0x00, 0x00, 0xc0, 0xa8, 0x00, 0x0e, 0xc0, 0xa8, 0x00, 0x2a, 0x04, 0x2d, 0x08, 0x15] ++
  udpLength ++
  [0x00, 0x00, 0x01, 0x02, 0x03, 0x04, 0x05, 0x06, 0x07, 0x08, 0x09, 0x0a, 0x0b, 0x0c, 0x0d, 0x0e,
   0x0f, 0x10, 0x11, 0x12] ++ fcs

/-- A datagram with 18 bytes of payload, and a UDP length that says so. -/
def honest : Slot := slotOf (datagram [0x00, 0x1a] [0x65, 0x34, 0x9b, 0x26])

/-- The same datagram with a UDP length of 256. -/
def oversized : Slot := slotOf (datagram [0x01, 0x00] [0x42, 0x4a, 0x61, 0xbb])

/-- The payload of the honest datagram. -/
theorem payload_inside_iff_honest :
    (processFrame node honest 72).value = .deliver 0xc0a8000e 1069 2069 50 18 ∧
      PayloadInside honest 72 50 18 := by
  have hdeliver :
      (processFrame node honest 72).value = .deliver 0xc0a8000e 1069 2069 50 18 := by
    decide +kernel
  exact ⟨hdeliver, (payload_inside_iff hdeliver).2 (.inr (by decide))⟩

/-- The oversized datagram is accepted, with a payload of 248 bytes of which 18 were received. -/
theorem oversized_payload :
    (processFrame node oversized 72).value = .deliver 0xc0a8000e 1069 2069 50 248 ∧
      ¬ PayloadInside oversized 72 50 248 := by
  refine ⟨by decide +kernel, fun hinside => ?_⟩
  have hlast := hinside 247 (by decide)
  exact absurd hlast.1.2 (by decide)

end Payload

end Soc.Libnet
