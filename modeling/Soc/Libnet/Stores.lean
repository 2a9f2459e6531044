import Soc.Libnet.RoundTrip

/-!
# Where a datagram is stored

`microudp_send` and `send_packet` again, with the offsets in `txbuffer` that they store to. The
length of a frame counts the 8 bytes of the preamble twice, so the largest datagrams of Ethernet do
not fit: from a payload of 1465 bytes on the frame is too long for Ethernet, and from 1471 on the
frame check sequence is stored behind the buffer (`fits_iff`).
-/

namespace Soc.Libnet

open Libbase (crc32)
open Library (Traced)

/-- `sizeof(ethernet_buffer)`. -/
def SIZEOF_ETHERNET_BUFFER : Int := 1532

/-- The MTU of Ethernet. -/
def ETHERNET_MTU : Nat := 1500

/-- Store bytes from an offset on. -/
def storeBytes (raw : Slot) (offset : Int) (bytes : List Byte) : Traced Int Slot where
  value := raw.put offset bytes
  trace := (List.range bytes.length).map fun k : Nat => offset + k

/-- `send_packet` with its stores. -/
def sendPacketStores (o : Outgoing) : Traced Int Outgoing := do
  let crc := (crc32 o.raw 8 (.ofNat 32 (o.txlen - 8))).value
  let raw ← storeBytes o.raw o.txlen
    [crc.extractLsb' 0 8, crc.extractLsb' 8 8, crc.extractLsb' 16 8, crc.extractLsb' 24 8]
  pure ⟨raw, o.txlen + 4⟩

namespace Send

variable (s : Send) (raw : Slot)

/-- The byte that pads an odd payload. -/
def storePad : Traced Int Slot :=
  if s.length % 2 = 1 then storeBytes raw (50 + s.length) [0] else pure raw

/-- `microudp_send` with its stores, up to `send_packet`. -/
def runStores : Traced Int (Option Outgoing) :=
  if s.cachedMac.all (· = 0) then pure none
  else do
    let txlen := s.length + SIZEOF_ETHERNET_HEADER + SIZEOF_UDP_FRAME + 8
    let raw ← storeBytes raw 0
      (List.replicate 7 0x55 ++ [0xd5] ++ s.cachedMac ++ s.myMac ++ bytes16 ETHERTYPE_IP)
    let raw ← storeBytes raw 22 (ipHeader s.length s.myIp s.cachedIp)
    let raw ← storeBytes raw 32 (bytes16 (ipChecksum 0 raw 22 20 true))
    let raw ← storeBytes raw 42 s.udpHeader
    let h := pseudoHeader s.length s.myIp s.cachedIp
    let r := ipChecksum 0 (fun i => h.getD i.toNat 0) 0 12 false
    let raw ← s.storePad raw
    let r := ipChecksum (r.setWidth 32) raw 42 (SIZEOF_UDP_HEADER + (s.length + s.length % 2)) true
    let raw ← storeBytes raw 48 (bytes16 r)
    pure (some ⟨raw, if txlen < 72 then 72 else txlen⟩)

/-- `microudp_send` with all its stores. -/
def transmit : Traced Int (Option Outgoing) := do
  match ← s.runStores raw with
  | none => pure none
  | some o => return some (← sendPacketStores o)

/-- The stores are those of `microudp_send`. -/
theorem value_runStores : (s.runStores raw).value = s.run raw := by
  have hall : s.cachedMac.all (· = 0) ↔ ∀ byte ∈ s.cachedMac, byte = 0 := by simp
  by_cases hzero : ∀ byte ∈ s.cachedMac, byte = 0
  · rw [runStores, if_pos (hall.2 hzero), run, microudpSend, if_pos hzero]
    rfl
  · rw [runStores, if_neg (mt hall.1 hzero), run, microudpSend, if_neg hzero]
    simp only [storePad, Traced.value_bind, Traced.value_ite, Traced.value_pure]
    rfl

end Send

/-- A store inside the buffer. -/
def InBuffer (i : Int) : Prop := 0 ≤ i ∧ i < SIZEOF_ETHERNET_BUFFER

/-- Stores of at least one byte. -/
theorem within_storeBytes_iff {raw : Slot} {offset : Int} {bytes : List Byte} (h : bytes ≠ []) :
    (storeBytes raw offset bytes).Within InBuffer ↔
      0 ≤ offset ∧ offset + bytes.length ≤ SIZEOF_ETHERNET_BUFFER := by
  have hlength := List.length_pos_iff.2 h
  constructor
  · intro hall
    have hfirst := hall (offset + (0 : Nat)) (List.mem_map_of_mem (List.mem_range.2 hlength))
    have hlast := hall (offset + (bytes.length - 1 : Nat))
      (List.mem_map_of_mem (List.mem_range.2 (by omega)))
    exact ⟨by have := hfirst.1; omega, by have := hlast.2; omega⟩
  · rintro ⟨hfirst, hlast⟩ i hi
    obtain ⟨k, hk, rfl⟩ := List.mem_map.1 hi
    have hlt := List.mem_range.1 hk
    exact ⟨by omega, by omega⟩

/-- Stores up to the payload. -/
theorem within_header {raw : Slot} {offset : Int} {bytes : List Byte} (h : 0 < bytes.length)
    (hfirst : 0 ≤ offset) (hlast : offset + bytes.length ≤ 50) :
    (storeBytes raw offset bytes).Within InBuffer := by
  have hsize : SIZEOF_ETHERNET_BUFFER = 1532 := rfl
  exact (within_storeBytes_iff (List.length_pos_iff.1 h)).2 ⟨hfirst, by omega⟩

/-- The stores of `send_packet`. -/
theorem within_sendPacketStores_iff (o : Outgoing) :
    (sendPacketStores o).Within InBuffer ↔ (o.txlen : Int) + 4 ≤ SIZEOF_ETHERNET_BUFFER := by
  rw [sendPacketStores, Traced.within_bind_iff, within_storeBytes_iff (List.cons_ne_nil _ _)]
  constructor
  · exact fun h => h.1.2
  · exact fun h => ⟨⟨Int.natCast_nonneg _, h⟩, Traced.within_pure _⟩

namespace Send

variable {s : Send} {raw : Slot}

/-- Where an odd payload is padded. -/
theorem within_storePad_iff :
    (s.storePad raw).Within InBuffer ↔
      (s.length % 2 = 1 → 50 + (s.length : Int) + 1 ≤ SIZEOF_ETHERNET_BUFFER) := by
  unfold storePad
  split
  case isTrue hodd =>
      rw [within_storeBytes_iff (List.cons_ne_nil _ _)]
      exact ⟨fun h _ => h.2, fun h => ⟨by omega, h hodd⟩⟩
  case isFalse heven =>
      exact iff_of_true (Traced.within_pure raw) fun hodd => absurd hodd heven

/-- The stores of `microudp_send` itself: all but the pad byte go to the headers. -/
theorem within_runStores_iff (hknown : s.Known) (hmacs : s.MacsValid) :
    (s.runStores raw).Within InBuffer ↔
      (s.length % 2 = 1 → 50 + (s.length : Int) + 1 ≤ SIZEOF_ETHERNET_BUFFER) := by
  obtain ⟨byte, hmem, hne⟩ := hknown
  have hethernet := length_ethernet hmacs.2 hmacs.1 ETHERTYPE_IP
  have hip : (ipHeader s.length s.myIp s.cachedIp).length = 20 := rfl
  have hudp : s.udpHeader.length = 8 := rfl
  have hsome : ¬ s.cachedMac.all (· = 0) :=
    fun hzero => hne (of_decide_eq_true (List.all_eq_true.1 hzero byte hmem))
  rw [runStores, if_neg hsome]
  simp only [Traced.within_bind_iff, Traced.within_pure_iff, within_storePad_iff, and_true]
  constructor
  · rintro ⟨-, -, -, -, hpad, -⟩
    exact hpad
  · intro hpad
    have hchecksum : ∀ {raw : Slot} {offset : Int} {r : BitVec 16}, 0 ≤ offset → offset ≤ 48 →
        (storeBytes raw offset (bytes16 r)).Within InBuffer := by
      intro raw offset r hfirst hlast
      exact within_header (Nat.two_pos) hfirst (by rw [length_bytes16]; omega)
    exact ⟨within_header (by omega) (by decide) (by omega),
      within_header (by omega) (by decide) (by omega), hchecksum (by decide) (by decide),
      within_header (by omega) (by decide) (by omega), hpad, hchecksum (by decide) (by decide)⟩

/-- The stores fit up to a payload of 1470 bytes. -/
theorem within_transmit_iff (hknown : s.Known) (hmacs : s.MacsValid) :
    (s.transmit raw).Within InBuffer ↔ s.length ≤ 1470 := by
  have hsize : SIZEOF_ETHERNET_BUFFER = 1532 := rfl
  have htxlen : (s.outgoing raw).txlen = s.txlen := rfl
  rw [transmit, Traced.within_bind_iff, within_runStores_iff hknown hmacs, value_runStores,
    s.run_of_known raw hknown]
  dsimp only
  rw [Traced.within_bind_iff, within_sendPacketStores_iff, htxlen]
  constructor
  · rintro ⟨-, hfcs, -⟩
    have hlonger := s.length_add_le_txlen
    omega
  · intro hlength
    refine ⟨fun _ => by omega, ?_, Traced.within_pure _⟩
    unfold txlen
    split_ifs <;> omega

variable (s raw)

/-- All stores go to the buffer, and the frame is no longer than Ethernet allows. -/
structure Fits : Prop where
  inside : (s.transmit raw).Within InBuffer
  payload : ∀ o, s.run raw = some o → o.txlen - SIZEOF_ETHERNET_HEADER ≤ ETHERNET_MTU

end Send

/-- Of the datagrams that Ethernet allows, those fit that are not sent or have a payload of at most
1464 bytes. -/
theorem fits_iff (s : Send) (raw : Slot) (hmacs : s.MacsValid) (hlength : s.length ≤ 1472) :
    s.Fits raw ↔ (s.Known → s.length ≤ 1464) := by
  have hheader : SIZEOF_ETHERNET_HEADER = 22 := rfl
  have hmtu : ETHERNET_MTU = 1500 := rfl
  have htxlen : (s.outgoing raw).txlen = s.txlen := rfl
  constructor
  · intro hfits hknown
    have hpayload := hfits.payload _ (s.run_of_known raw hknown)
    rw [htxlen] at hpayload
    have hlonger := s.length_add_le_txlen
    omega
  · intro hshort
    by_cases hknown : s.Known
    · have hle := hshort hknown
      refine ⟨(Send.within_transmit_iff hknown hmacs).2 (by omega), fun o ho => ?_⟩
      rw [s.run_of_known raw hknown] at ho
      cases ho
      rw [htxlen]
      unfold Send.txlen
      split_ifs <;> omega
    · have hrun := s.run_of_unknown raw hknown
      constructor
      · rw [Send.transmit, Traced.within_bind_iff, Send.value_runStores, hrun]
        refine ⟨?_, Traced.within_pure _⟩
        have hzero : s.cachedMac.all (· = 0) := List.all_eq_true.2 fun byte hmem =>
          decide_eq_true (Decidable.not_not.1 fun hne => hknown ⟨byte, hmem, hne⟩)
        rw [Send.runStores, if_pos hzero]
        exact Traced.within_pure _
      · intro o ho
        rw [hrun] at ho
        cases ho

/-- The datagram of `short` with a payload of another length. -/
def long (length : Nat) : Send := { short with length }

/-- The longest payload that fits. -/
theorem fits_iff_longest : (long 1464).Fits (fun _ => 0) :=
  (fits_iff (long 1464) _ ⟨rfl, rfl⟩ (by decide)).2 fun _ => Nat.le_refl 1464

/-- With the longest payload of Ethernet, the frame check sequence is stored behind the buffer, and
the frame has 1508 bytes between header and frame check sequence. -/
theorem longest_escapes : 1532 ∈ ((long 1472).transmit fun _ => 0).trace ∧
    ((long 1472).run fun _ => 0).map (fun o => o.txlen - SIZEOF_ETHERNET_HEADER) = some 1508 := by
  have hknown : (long 1472).Known := ⟨2, by decide, by decide⟩
  have hrun := (long 1472).run_of_known (fun _ => 0) hknown
  constructor
  · rw [Send.transmit, Traced.trace_bind, Send.value_runStores, hrun]
    refine List.mem_append_right _ ?_
    show (1532 : Int) ∈ (List.range 4).map (fun k : Nat => (1530 : Int) + k) ++ [] ++ []
    decide
  · rw [hrun]
    rfl

end Soc.Libnet
