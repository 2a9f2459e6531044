import Soc.Libnet.RoundTrip

/-!
# What a frame takes along

`txbuffer` is never cleared, and frames are longer than what is stored for them: `microudp_send`
adds 8 bytes to the length of the headers and the payload, and the ARP frames have 18 bytes of
padding that nobody fills. Those bytes are sent with what an earlier frame left there. Two buffers
with the same payload lead to the same frame if and only if they agree on the leftover
(`frame_eq_iff`).
-/

namespace Soc.Libnet

open Libbase (crc32)
open Library (Traced)

/-- What a transmission sends: a datagram, an ARP request or an ARP reply. -/
inductive Transmission where
  | datagram (s : Send)
  | request (myMac : List Byte) (myIp ip : Word)
  | reply (myMac : List Byte) (myIp : Word) (senderMac : List Byte) (senderIp : Word)

namespace Transmission

/-- The MAC addresses have six bytes. -/
def MacsValid : Transmission → Prop
  | datagram s => s.MacsValid
  | request myMac _ _ => myMac.length = 6
  | reply myMac _ senderMac _ => myMac.length = 6 ∧ senderMac.length = 6

/-- What is handed to `send_packet`. -/
def run (raw : Slot) : Transmission → Option Outgoing
  | datagram s => s.run raw
  | request myMac myIp ip => some (arpRequest raw myMac myIp ip)
  | reply myMac myIp senderMac senderIp => some (arpReply raw myMac myIp senderMac senderIp)

/-- The bytes `raw[0..txlen-1]` that are handed to the MAC. -/
def frame (t : Transmission) (raw : Slot) : Option (List Byte) :=
  (t.run raw).map fun o => (sendPacket o).frame

/-- Where the payload of the caller ends. It begins at 50. -/
def payloadEnd : Transmission → Int
  | datagram s => 50 + s.length
  | request _ _ _ | reply _ _ _ _ => 50

/-- Where the bytes end that are stored for the frame. -/
def storedEnd : Transmission → Int
  | datagram s => 50 + s.length + (s.length % 2 : Nat)
  | request _ _ _ | reply _ _ _ _ => 50

/-- Where the frame check sequence begins. -/
def bodyEnd : Transmission → Nat
  | datagram s => s.txlen
  | request _ _ _ | reply _ _ _ _ => 68

/-- A frame is sent at all. -/
def Sent : Transmission → Prop
  | datagram s => s.Known
  | request _ _ _ | reply _ _ _ _ => True

end Transmission

/-- Two frames are the same after `send_packet` if and only if they were before. -/
theorem sendPacket_frame_iff {o o' : Outgoing} (htxlen : o.txlen = o'.txlen) :
    (sendPacket o).frame = (sendPacket o').frame ↔ o.raw.Agrees o'.raw 0 o.txlen := by
  have hframe : (sendPacket o').frame = (sendPacket o').raw.bytes (o.txlen + 4) := by
    rw [htxlen]
    rfl
  rw [hframe]
  refine Slot.bytes_eq_iff.trans ⟨fun hagree i hfirst hlast => ?_, fun hagree => ?_⟩
  · rw [← sendPacket_agrees o i hfirst hlast, ← sendPacket_agrees o' i hfirst (htxlen ▸ hlast)]
    have hlonger : ((sendPacket o).txlen : Int) = o.txlen + 4 := rfl
    exact hagree i hfirst (by omega)
  · have hcrc : (crc32 o.raw 8 (.ofNat 32 (o.txlen - 8))).value =
        (crc32 o'.raw 8 (.ofNat 32 (o.txlen - 8))).value := by
      by_cases hlong : 8 ≤ o.txlen
      · refine crc32_congr (hagree.mono (by decide) ?_)
        rw [BitVec.toNat_ofNat]
        have hle := Nat.mod_le (o.txlen - 8) (2 ^ 32)
        omega
      · rw [Nat.sub_eq_zero_of_le (by omega)]
        exact crc32_congr fun i hfirst hlast => absurd hlast (Int.not_lt_of_ge hfirst)
    rw [sendPacket, sendPacket, ← htxlen, hcrc]
    exact hagree.put.join (Slot.agrees_put rfl)

/-- The bytes of a frame that were stored for it, and the others. -/
structure Stored (raw raw' : Slot) (o o' : Outgoing) (last : Int) : Prop where
  stored : o.raw.Agrees o'.raw 0 last
  left : ∀ i, last ≤ i → o.raw i = raw i ∧ o'.raw i = raw' i

/-- Two frames are the same if and only if the leftover is. -/
theorem Stored.frame_iff {raw raw' : Slot} {o o' : Outgoing} {last : Int}
    (h : Stored raw raw' o o' last) (hlast : 0 ≤ last) (htxlen : o.txlen = o'.txlen) :
    (sendPacket o).frame = (sendPacket o').frame ↔ raw.Agrees raw' last o.txlen := by
  rw [sendPacket_frame_iff htxlen]
  constructor
  · intro hagree i hfirst hi
    rw [← (h.left i hfirst).1, ← (h.left i hfirst).2]
    exact hagree i (by omega) hi
  · intro hagree i hfirst hi
    by_cases hstored : i < last
    · exact h.stored i hfirst hstored
    · rw [(h.left i (by omega)).1, (h.left i (by omega)).2]
      exact hagree i (by omega) hi

namespace Send

/-- The byte that pads an odd payload. -/
theorem padded_agrees (s : Send) {raw raw' : Slot}
    (h : ((s.routed raw).put 42 s.udpHeader).Agrees ((s.routed raw').put 42 s.udpHeader) 0
      (50 + s.length)) :
    (s.padded raw).Agrees (s.padded raw') 0 (50 + s.length + (s.length % 2 : Nat)) := by
  unfold padded
  dsimp only
  split
  case isTrue hodd =>
      rw [hodd]
      exact h.put.join (Slot.agrees_put rfl)
  case isFalse heven => exact h.mono (Int.le_refl 0) (by omega)

/-- What is stored for a datagram. -/
theorem stored (s : Send) (hmacs : s.MacsValid) {raw raw' : Slot}
    (hpayload : raw.Agrees raw' 50 (50 + s.length)) :
    Stored raw raw' (s.outgoing raw) (s.outgoing raw') (50 + s.length + (s.length % 2 : Nat)) := by
  have hethernet := length_ethernet hmacs.2 hmacs.1 ETHERTYPE_IP
  constructor
  · have haddressed : (s.addressed raw).Agrees (s.addressed raw') 0 22 := Slot.agrees_put hethernet
    have hheader : ((s.addressed raw).put 22 (ipHeader s.length s.myIp s.cachedIp)).Agrees
        ((s.addressed raw').put 22 (ipHeader s.length s.myIp s.cachedIp)) 0 42 :=
      haddressed.put.join (Slot.agrees_put rfl)
    have hchecksum := @ipChecksum_congr _ _ 22 20 0 true (hheader.mono (by decide) (by decide))
    have hrouted : ∀ first last,
        ((s.addressed raw).put 22 (ipHeader s.length s.myIp s.cachedIp)).Agrees
          ((s.addressed raw').put 22 (ipHeader s.length s.myIp s.cachedIp)) first last →
        (s.routed raw).Agrees (s.routed raw') first last := by
      intro first last hagree
      unfold routed
      dsimp only
      rw [hchecksum]
      exact hagree.put
    have hudp : ((s.routed raw).put 42 s.udpHeader).Agrees ((s.routed raw').put 42 s.udpHeader) 0
        (50 + s.length) :=
      ((hrouted 0 42 hheader).put.join (Slot.agrees_put rfl)).join
        (hrouted 50 _ hpayload.put.put).put
    have hpadded := padded_agrees s hudp
    have hudpChecksum : s.checksum raw = s.checksum raw' := by
      unfold checksum
      refine ipChecksum_congr (hpadded.mono (by decide) ?_)
      show (42 : Int) + ((8 + (s.length + s.length % 2) : Nat) : Int) ≤ _
      omega
    rw [outgoing, outgoing, hudpChecksum]
    exact hpadded.put
  · intro i hi
    exact ⟨outgoing_left hmacs (by omega) (.inr hi), outgoing_left hmacs (by omega) (.inr hi)⟩

end Send

/-- What is stored for an ARP frame. -/
theorem arpFrame_stored {destmac myMac targetMac : List Byte} {opcode : BitVec 16}
    {myIp targetIp : Word} (hdest : destmac.length = 6) (hmy : myMac.length = 6)
    (htarget : targetMac.length = 6) (raw raw' : Slot) :
    Stored raw raw' (arpFrame raw destmac myMac opcode myIp targetMac targetIp)
      (arpFrame raw' destmac myMac opcode myIp targetMac targetIp) 50 := by
  have hethernet := length_ethernet hdest hmy ETHERTYPE_ARP
  have harp : (bytes16 ARP_HWTYPE_ETHERNET ++ bytes16 ARP_PROTO_IP ++ [6, 4] ++ bytes16 opcode ++
      myMac ++ bytes32 myIp ++ targetMac ++ bytes32 targetIp).length = 28 := by
    simp only [List.length_append, hmy, htarget]
    rfl
  constructor
  · have hheader : (fillEthHeader raw destmac myMac ETHERTYPE_ARP).Agrees
        (fillEthHeader raw' destmac myMac ETHERTYPE_ARP) 0 22 := Slot.agrees_put hethernet
    exact hheader.put.join (Slot.agrees_put harp)
  · intro i hi
    have houtside : ∀ raw : Slot,
        (arpFrame raw destmac myMac opcode myIp targetMac targetIp).raw i = raw i := fun raw =>
      (Slot.put_outside (.inr (by omega))).trans (Slot.put_outside (.inr (by omega)))
    exact ⟨houtside raw, houtside raw'⟩

section Frame

variable {raw raw' : Slot}

/-- The frame of a datagram. -/
theorem datagram_frame_iff {s : Send} (hknown : s.Known) (hmacs : s.MacsValid)
    (hpayload : raw.Agrees raw' 50 (50 + s.length)) :
    (Transmission.datagram s).frame raw = (Transmission.datagram s).frame raw' ↔
      raw.Agrees raw' (50 + s.length + (s.length % 2 : Nat)) s.txlen := by
  rw [Transmission.frame, Transmission.frame, Transmission.run, Transmission.run,
    s.run_of_known raw hknown, s.run_of_known raw' hknown]
  exact Option.some_inj.trans ((s.stored hmacs hpayload).frame_iff (by omega) rfl)

/-- The frame of an ARP request. -/
theorem request_frame_iff {myMac : List Byte} (hmac : myMac.length = 6) (myIp ip : Word) :
    (Transmission.request myMac myIp ip).frame raw =
        (Transmission.request myMac myIp ip).frame raw' ↔
      raw.Agrees raw' 50 68 :=
  Option.some_inj.trans ((arpFrame_stored rfl hmac rfl raw raw').frame_iff (by decide) rfl)

/-- The frame of an ARP reply. -/
theorem reply_frame_iff {myMac senderMac : List Byte} (hmy : myMac.length = 6)
    (hsender : senderMac.length = 6) (myIp senderIp : Word) :
    (Transmission.reply myMac myIp senderMac senderIp).frame raw =
        (Transmission.reply myMac myIp senderMac senderIp).frame raw' ↔
      raw.Agrees raw' 50 68 :=
  Option.some_inj.trans
    ((arpFrame_stored hsender hmy hsender raw raw').frame_iff (by decide) rfl)

end Frame

/-- A transmission sends the same frame from two buffers with the same payload if and only if the
buffers agree on what the frame takes along. -/
theorem frame_eq_iff (t : Transmission) (hmacs : t.MacsValid) (raw raw' : Slot)
    (hpayload : raw.Agrees raw' 50 t.payloadEnd) :
    t.frame raw = t.frame raw' ↔ (t.Sent → raw.Agrees raw' t.storedEnd t.bodyEnd) := by
  cases t with
  | datagram s =>
      by_cases hknown : s.Known
      · exact (datagram_frame_iff hknown hmacs hpayload).trans
          ⟨fun h _ => h, fun h => h hknown⟩
      · rw [Transmission.frame, Transmission.frame, Transmission.run, Transmission.run,
          s.run_of_unknown raw hknown, s.run_of_unknown raw' hknown]
        exact iff_of_true rfl (fun h => absurd h hknown)
  | request myMac myIp ip =>
      exact (request_frame_iff hmacs myIp ip).trans ⟨fun h _ => h, fun h => h trivial⟩
  | reply myMac myIp senderMac senderIp =>
      exact (reply_frame_iff hmacs.1 hmacs.2 myIp senderIp).trans
        ⟨fun h _ => h, fun h => h trivial⟩

/-- A buffer with the payload of `short`, and one byte everywhere else. -/
def filled (rest : Byte) : Slot := fun i => if 50 ≤ i ∧ i < 53 then 0x61 else rest

/-- The frame is the same when only what lies behind it differs. -/
theorem frame_eq_iff_short : (Transmission.datagram short).frame (filled 0) =
    (Transmission.datagram short).frame ((filled 0).put 72 [1]) := by
  have hbefore : (filled 0).Agrees ((filled 0).put 72 [1]) 50 72 :=
    fun i _ hlast => (Slot.put_outside (.inl hlast)).symm
  exact (frame_eq_iff (.datagram short) ⟨rfl, rfl⟩ _ _ (hbefore.mono (by decide) (by decide))).2
    fun _ => hbefore.mono (by decide) (by decide)

/-- A datagram, an ARP request and an ARP reply are sent with what was in the buffer before. -/
theorem leftover_sent :
    ((filled 1).Agrees (filled 2) 50 (Transmission.datagram short).payloadEnd ∧
      (Transmission.datagram short).frame (filled 1) ≠
        (Transmission.datagram short).frame (filled 2)) ∧
    (Transmission.request short.myMac 0 1).frame (filled 1) ≠
      (Transmission.request short.myMac 0 1).frame (filled 2) ∧
    (Transmission.reply short.myMac 0 short.cachedMac 1).frame (filled 1) ≠
      (Transmission.reply short.myMac 0 short.cachedMac 1).frame (filled 2) := by
  have hdiffer : filled 1 60 ≠ filled 2 60 := by decide
  have hpayload : (filled 1).Agrees (filled 2) 50 53 := by
    intro i hfirst hlast
    rw [filled, if_pos ⟨hfirst, hlast⟩, filled, if_pos ⟨hfirst, hlast⟩]
  refine ⟨⟨hpayload, fun hframe => ?_⟩, fun hframe => ?_, fun hframe => ?_⟩
  · have hagree := (datagram_frame_iff ⟨2, by decide, by decide⟩ ⟨rfl, rfl⟩ hpayload).1 hframe
    exact hdiffer (hagree 60 (by decide) (by decide))
  · exact hdiffer ((request_frame_iff rfl 0 1).1 hframe 60 (by decide) (by decide))
  · exact hdiffer ((reply_frame_iff rfl rfl 0 1).1 hframe 60 (by decide) (by decide))

end Soc.Libnet
