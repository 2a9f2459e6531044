import Mathlib.Tactic.SplitIfs
import Soc.Libnet.Frames
import Soc.Libnet.Layout

/-!
# Datagrams arrive as they were sent

The frame that `microudp_send` builds, store by store, and what `process_frame` makes of it in the
receive slot of the host it is for. The frame is longer than the headers and the payload, and the
checksum covers all of it, so every length and parity up to 1470 is delivered (`send_receive`).
-/

namespace Soc.Libnet

open Libbase (Access crc32 readByte)
open Library (Traced)

/-- What a call of `microudp_send` uses. -/
structure Send where
  myMac : List Byte
  cachedMac : List Byte
  myIp : Word
  cachedIp : Word
  srcPort : BitVec 16
  dstPort : BitVec 16
  length : Nat

namespace Send

variable (s : Send) (raw : Slot)

/-- `cached_mac` is not zero. -/
def Known : Prop := ∃ byte ∈ s.cachedMac, byte ≠ 0

/-- The MAC addresses have six bytes. -/
def MacsValid : Prop := s.myMac.length = 6 ∧ s.cachedMac.length = 6

/-- The call, with a payload in the buffer. -/
def run : Option Outgoing :=
  microudpSend s.myMac s.cachedMac s.myIp s.cachedIp s.srcPort s.dstPort s.length raw

/-- The buffer with the Ethernet header. -/
def addressed : Slot := fillEthHeader raw s.cachedMac s.myMac ETHERTYPE_IP

/-- The buffer with the IP header, and with its checksum. -/
def routed : Slot :=
  let raw := (s.addressed raw).put 22 (ipHeader s.length s.myIp s.cachedIp)
  raw.put 32 (bytes16 (ipChecksum 0 raw 22 20 true))

/-- The bytes of the UDP header, with its checksum at 0. -/
def udpHeader : List Byte :=
  bytes16 s.srcPort ++ bytes16 s.dstPort ++ bytes16 (.ofNat 16 (s.length + SIZEOF_UDP_HEADER)) ++
    bytes16 0

/-- The buffer with the UDP header, and an odd payload padded. -/
def padded : Slot :=
  let raw := (s.routed raw).put 42 s.udpHeader
  if s.length % 2 = 1 then raw.put (50 + s.length) [0] else raw

/-- The UDP checksum. -/
def checksum : BitVec 16 :=
  let h := pseudoHeader s.length s.myIp s.cachedIp
  let r := ipChecksum 0 (fun i => h.getD i.toNat 0) 0 12 false
  ipChecksum (r.setWidth 32) (s.padded raw) 42 (SIZEOF_UDP_HEADER + (s.length + s.length % 2)) true

/-- `txlen`. -/
def txlen : Nat := if s.length + 58 < 72 then 72 else s.length + 58

/-- What is handed to `send_packet`. -/
def outgoing : Outgoing := ⟨(s.padded raw).put 48 (bytes16 (s.checksum raw)), s.txlen⟩

/-- With a MAC address in the cache, a frame is built in these steps. -/
theorem run_of_known (h : s.Known) : s.run raw = some (s.outgoing raw) := by
  obtain ⟨byte, hmem, hne⟩ := h
  rw [run, microudpSend, if_neg fun hzero => hne (hzero byte hmem)]
  rfl

/-- Without one, nothing is sent. -/
theorem run_of_unknown (h : ¬ s.Known) : s.run raw = none := by
  have hzero : ∀ byte ∈ s.cachedMac, byte = 0 :=
    fun byte hmem => Decidable.not_not.1 fun hne => h ⟨byte, hmem, hne⟩
  rw [run, microudpSend, if_pos hzero]

/-- The headers, the payload and its padding fit the frame. -/
theorem length_add_le_txlen : s.length + 58 ≤ s.txlen := by
  unfold txlen
  split_ifs <;> omega

variable {s raw} {offset : Int} {bytes : List Byte}

/-- The headers up to the UDP header stay. -/
theorem holds_outgoing (h : (s.routed raw).Holds offset bytes)
    (hlast : offset + bytes.length ≤ 42) : (s.outgoing raw).raw.Holds offset bytes := by
  have hudp : ((s.routed raw).put 42 s.udpHeader).Holds offset bytes := h.put (.inl hlast)
  have hpadded : (s.padded raw).Holds offset bytes := by
    unfold padded
    dsimp only
    split_ifs
    · exact hudp.put (.inl (by omega))
    · exact hudp
  exact hpadded.put (.inl (by omega))

/-- The Ethernet header. -/
theorem holds_ethernet (hmacs : s.MacsValid) :
    (s.outgoing raw).raw.Holds 0 (List.replicate 7 0x55 ++ [0xd5] ++ s.cachedMac ++ s.myMac ++
      bytes16 ETHERTYPE_IP) := by
  have hlength := length_ethernet hmacs.2 hmacs.1 ETHERTYPE_IP
  refine holds_outgoing ?_ (by omega)
  have haddressed : (s.addressed raw).Holds 0 _ := Slot.holds_put
  exact (haddressed.put (.inl (by omega))).put (.inl (by omega))

/-- The IP header, but for its checksum. -/
theorem holds_ip :
    (s.outgoing raw).raw.Holds 22 ([IP_IPV4, 0] ++
      bytes16 (.ofNat 16 (s.length + SIZEOF_UDP_FRAME)) ++ bytes16 0 ++ bytes16 IP_DONT_FRAGMENT ++
      [IP_TTL, IP_PROTO_UDP]) ∧
    (s.outgoing raw).raw.Holds 34 (bytes32 s.myIp) ∧
    (s.outgoing raw).raw.Holds 38 (bytes32 s.cachedIp) := by
  have hall : ((s.addressed raw).put 22 (ipHeader s.length s.myIp s.cachedIp)).Holds 22 _ :=
    Slot.holds_put
  obtain ⟨hsrc, hdst⟩ := hall.append
  obtain ⟨hchecksum, hsrc⟩ := hsrc.append
  obtain ⟨hfront, -⟩ := hchecksum.append
  refine ⟨holds_outgoing (hfront.put (.inl ?_)) ?_, holds_outgoing (hsrc.put (.inr ?_)) ?_,
    holds_outgoing (hdst.put (.inr ?_)) ?_⟩
  all_goals simp

/-- The UDP header before its checksum. -/
theorem holds_padded : (s.padded raw).Holds 42 s.udpHeader := by
  have hall : ((s.routed raw).put 42 s.udpHeader).Holds 42 _ := Slot.holds_put
  unfold padded
  dsimp only
  split_ifs
  · refine hall.put (.inl ?_)
    simp only [udpHeader, List.length_append, length_bytes16]
    omega
  · exact hall

/-- The UDP header, but for its checksum. -/
theorem holds_udp :
    (s.outgoing raw).raw.Holds 42 (bytes16 s.srcPort ++ bytes16 s.dstPort ++
      bytes16 (.ofNat 16 (s.length + SIZEOF_UDP_HEADER))) := by
  obtain ⟨hfront, -⟩ := (@holds_padded s raw).append
  refine hfront.put (.inl ?_)
  simp

/-- Behind the headers, only an odd payload is padded. -/
theorem outgoing_left (hmacs : s.MacsValid) {i : Int} (hfirst : 50 ≤ i)
    (hpad : i < 50 + s.length ∨ 50 + s.length + (s.length % 2 : Nat) ≤ i) :
    (s.outgoing raw).raw i = raw i := by
  have hudp : s.udpHeader.length = 8 := rfl
  have hip : (ipHeader s.length s.myIp s.cachedIp).length = 20 := rfl
  have hethernet := length_ethernet hmacs.2 hmacs.1 ETHERTYPE_IP
  have haddressed : s.addressed raw i = raw i := Slot.put_outside (.inr (by omega))
  have hrouted : s.routed raw i = raw i :=
    (Slot.put_outside (.inr (by rw [length_bytes16]; omega))).trans
      ((Slot.put_outside (.inr (by omega))).trans haddressed)
  have hheaders : (s.routed raw).put 42 s.udpHeader i = raw i :=
    (Slot.put_outside (.inr (by omega))).trans hrouted
  have hpadded : s.padded raw i = raw i := by
    unfold padded
    split_ifs with hodd
    · refine (Slot.put_outside ?_).trans hheaders
      rw [List.length_singleton]
      omega
    · exact hheaders
  exact (Slot.put_outside (.inr (by rw [length_bytes16]; omega))).trans hpadded

end Send

/-- The frame check sequence that `send_packet` appends. -/
theorem sendPacket_fcs (o : Outgoing) :
    (sendPacket o).raw (o.txlen + 3) ++ (sendPacket o).raw (o.txlen + 2) ++
      (sendPacket o).raw (o.txlen + 1) ++ (sendPacket o).raw o.txlen =
      (crc32 o.raw 8 (.ofNat 32 (o.txlen - 8))).value := by
  let crc := (crc32 o.raw 8 (.ofNat 32 (o.txlen - 8))).value
  have hholds : (sendPacket o).raw.Holds o.txlen
      [crc.extractLsb' 0 8, crc.extractLsb' 8 8, crc.extractLsb' 16 8, crc.extractLsb' 24 8] :=
    Slot.holds_put
  have h0 : (sendPacket o).raw o.txlen = crc.extractLsb' 0 8 := hholds.head
  have h1 : (sendPacket o).raw (o.txlen + 1) = crc.extractLsb' 8 8 := hholds 1 (by simp)
  have h2 : (sendPacket o).raw (o.txlen + 2) = crc.extractLsb' 16 8 := hholds 2 (by simp)
  have h3 : (sendPacket o).raw (o.txlen + 3) = crc.extractLsb' 24 8 := hholds 3 (by simp)
  rw [h0, h1, h2, h3]
  exact word_of_bytes crc

/-- `send_packet` leaves the frame before it. -/
theorem sendPacket_agrees (o : Outgoing) : (sendPacket o).raw.Agrees o.raw 0 o.txlen :=
  fun _ _ hlast => Slot.put_outside (.inl hlast)

/-- A datagram with headers that fit is delivered. -/
theorem processIp_delivers {g : Globals} {raw : Slot} {rxlen : Int} (hlow : 50 ≤ rxlen)
    (hhigh : rxlen < 2048) (hversion : raw 22 = IP_IPV4)
    (htotal : SIZEOF_UDP_FRAME ≤ raw.totalLength.toNat) (hproto : raw 31 = IP_PROTO_UDP)
    (hdst : raw.word 38 = g.myIp) (hudp : SIZEOF_UDP_HEADER ≤ raw.udpLength.toNat)
    (hcallback : g.rxCallback = true) :
    (processIp g raw rxlen).value = .deliver (raw.word 34) (raw.half 42) (raw.half 44) 50
      (raw.udpLength.toNat - SIZEOF_UDP_HEADER) := by
  have hlength :
      ¬ BitVec.ofInt 32 rxlen < .ofNat 32 (SIZEOF_ETHERNET_HEADER + SIZEOF_UDP_FRAME) := by
    have hrxlen : (BitVec.ofInt 32 rxlen).toNat = rxlen.toNat := by
      rw [BitVec.toNat_ofInt]
      omega
    have hsizes : (BitVec.ofNat 32 (SIZEOF_ETHERNET_HEADER + SIZEOF_UDP_FRAME)).toNat = 50 := rfl
    rw [BitVec.lt_def, hrxlen, hsizes]
    omega
  refine Traced.value_passed hlength ?_
  refine Traced.value_passed (not_not_intro hversion) ?_
  refine Traced.value_passed (Nat.not_lt_of_le htotal) ?_
  refine Traced.value_passed (not_not_intro hproto) ?_
  refine Traced.value_passed (not_not_intro hdst) ?_
  refine Traced.value_passed (Nat.not_lt_of_le hudp) ?_
  rw [if_pos hcallback]
  rfl

/-- A frame with a datagram that fits and a good checksum is delivered. -/
theorem processFrame_delivers {g : Globals} {raw : Slot} {rxlen : Int}
    (hpreamble : PreambleValid raw) (hlow : 54 ≤ rxlen) (hhigh : rxlen < 2048)
    (hfcs : raw (rxlen - 1) ++ raw (rxlen - 2) ++ raw (rxlen - 3) ++ raw (rxlen - 4) =
      (crc32 raw 8 (.ofInt 32 (rxlen - 12))).value)
    (hethertype : raw.half 20 = ETHERTYPE_IP) (hversion : raw 22 = IP_IPV4)
    (htotal : SIZEOF_UDP_FRAME ≤ raw.totalLength.toNat) (hproto : raw 31 = IP_PROTO_UDP)
    (hdst : raw.word 38 = g.myIp) (hudp : SIZEOF_UDP_HEADER ≤ raw.udpLength.toNat)
    (hcallback : g.rxCallback = true) :
    (processFrame g raw rxlen).value = .deliver (raw.word 34) (raw.half 42) (raw.half 44) 50
      (raw.udpLength.toNat - SIZEOF_UDP_HEADER) := by
  have harp : raw.half 20 ≠ ETHERTYPE_ARP := by
    rw [hethertype]
    decide
  have hvalid : ¬ (!(preambleFrom raw 0 7).value) = true := by
    rw [preamble_value.2 hpreamble]
    nofun
  refine Traced.value_passed hvalid ?_
  refine Traced.value_passed (not_not_intro hfcs) ?_
  refine Traced.value_passed harp ?_
  show (if raw.half 20 = ETHERTYPE_IP then _ else _ : Traced Access Action).value = _
  rw [if_pos hethertype]
  exact processIp_delivers (by omega) (by omega) hversion htotal hproto hdst hudp hcallback

section Receive

variable {s : Send} {raw slot : Slot}

/-- A slot that holds the frame has the headers where they were put. -/
theorem holds_received (hagree : (s.outgoing raw).raw.Agrees slot 0 s.txlen) {offset : Int}
    {bytes : List Byte} (h : (s.outgoing raw).raw.Holds offset bytes) (hfirst : 0 ≤ offset)
    (hlast : offset + bytes.length ≤ 58) : slot.Holds offset bytes := by
  have htxlen := s.length_add_le_txlen
  exact h.congr hagree hfirst (by omega)

/-- The preamble and the type of the frame. -/
theorem ethernet_received (hmacs : s.MacsValid)
    (hagree : (s.outgoing raw).raw.Agrees slot 0 s.txlen) :
    PreambleValid slot ∧ slot.half 20 = ETHERTYPE_IP := by
  have hlength :
      (List.replicate 7 (0x55 : Byte) ++ [0xd5] ++ s.cachedMac ++ s.myMac).length = 20 := by
    simp only [List.length_append, hmacs.1, hmacs.2]
    rfl
  have hheader := holds_received hagree (Send.holds_ethernet hmacs) (Int.le_refl 0) (by
    rw [List.length_append, hlength]
    decide)
  obtain ⟨hmac, hethertype⟩ := hheader.append
  rw [hlength] at hethertype
  obtain ⟨hpreamble, -⟩ := hmac.append.1.append
  obtain ⟨hsync, hstart⟩ := hpreamble.append
  refine ⟨⟨fun k hk => ?_, hstart.head⟩, hethertype.half⟩
  have hbyte := hsync k (by simpa using hk)
  rwa [List.getElem_replicate, Int.zero_add] at hbyte

/-- The IP header of the frame. -/
theorem ip_received (hlength : s.length ≤ 1470)
    (hagree : (s.outgoing raw).raw.Agrees slot 0 s.txlen) :
    slot 22 = IP_IPV4 ∧ slot 31 = IP_PROTO_UDP ∧ slot.totalLength.toNat = s.length + 28 ∧
      slot.word 34 = s.myIp ∧ slot.word 38 = s.cachedIp := by
  obtain ⟨hip, hsrc, hdst⟩ := @Send.holds_ip s raw
  have hip := holds_received hagree hip (by decide) (by simp)
  have hsrc := holds_received hagree hsrc (by decide) (by simp)
  have hdst := holds_received hagree hdst (by decide) (by simp)
  have htotal : slot.totalLength = .ofNat 16 (s.length + SIZEOF_UDP_FRAME) :=
    hip.append.1.append.1.append.1.append.2.half
  refine ⟨hip.head, hip 9 (by simp), ?_, hsrc.word, hdst.word⟩
  rw [htotal, BitVec.toNat_ofNat]
  exact Nat.mod_eq_of_lt (show s.length + 28 < 65536 by omega)

/-- The UDP header of the frame. -/
theorem udp_received (hlength : s.length ≤ 1470)
    (hagree : (s.outgoing raw).raw.Agrees slot 0 s.txlen) :
    slot.half 42 = s.srcPort ∧ slot.half 44 = s.dstPort ∧
      slot.udpLength.toNat = s.length + 8 := by
  have hudp := holds_received hagree (@Send.holds_udp s raw) (by decide) (by simp)
  have hports := hudp.append.1.append
  have hudpLength : slot.udpLength = .ofNat 16 (s.length + SIZEOF_UDP_HEADER) := hudp.append.2.half
  refine ⟨hports.1.half, hports.2.half, ?_⟩
  rw [hudpLength, BitVec.toNat_ofNat]
  exact Nat.mod_eq_of_lt (show s.length + 8 < 65536 by omega)

/-- The frame check sequence of a frame in a slot. -/
theorem fcs_received {o : Outgoing} (hlow : 8 ≤ o.txlen) (hhigh : o.txlen + 4 < 2147483648)
    (hagree : (sendPacket o).raw.Agrees slot 0 (sendPacket o).txlen) {rxlen : Int}
    (hrxlen : rxlen = (sendPacket o).txlen) :
    slot (rxlen - 1) ++ slot (rxlen - 2) ++ slot (rxlen - 3) ++ slot (rxlen - 4) =
      (crc32 slot 8 (.ofInt 32 (rxlen - 12))).value := by
  have htxlen : ((sendPacket o).txlen : Int) = o.txlen + 4 := rfl
  have hbody : o.raw.Agrees slot 0 o.txlen := by
    intro i hfirst hlast
    rw [← sendPacket_agrees o i hfirst hlast]
    exact hagree i hfirst (by omega)
  have hlen : BitVec.ofInt 32 (rxlen - 12) = .ofNat 32 (o.txlen - 8) := by
    rw [← BitVec.ofInt_natCast]
    congr 1
    omega
  have hcrc : (crc32 slot 8 (.ofInt 32 (rxlen - 12))).value =
      (crc32 o.raw 8 (.ofNat 32 (o.txlen - 8))).value := by
    rw [hlen]
    refine (crc32_congr (hbody.mono (by decide) ?_)).symm
    rw [BitVec.toNat_ofNat]
    omega
  have h1 : rxlen - 1 = o.txlen + 3 := by omega
  have h2 : rxlen - 2 = o.txlen + 2 := by omega
  have h3 : rxlen - 3 = o.txlen + 1 := by omega
  have h4 : rxlen - 4 = o.txlen := by omega
  rw [hcrc, ← sendPacket_fcs, h1, h2, h3, h4, hagree _ (by omega) (by omega),
    hagree _ (by omega) (by omega), hagree _ (by omega) (by omega),
    hagree _ (by omega) (by omega)]

end Receive

/-- What `microudp_send` sends, `process_frame` delivers: the addresses, the ports, the length and
the payload. -/
theorem send_receive (s : Send) (raw : Slot) (hknown : s.Known) (hmacs : s.MacsValid)
    (hlength : s.length ≤ 1470) :
    ∃ o, s.run raw = some o ∧ ∀ g slot,
      (sendPacket o).raw.Agrees slot 0 (sendPacket o).txlen → g.myIp = s.cachedIp →
      g.rxCallback = true →
      (processFrame g slot (sendPacket o).txlen).value =
          .deliver s.myIp s.srcPort s.dstPort 50 s.length ∧
        ∀ k : Nat, k < s.length → slot (50 + k) = raw (50 + k) := by
  refine ⟨_, s.run_of_known raw hknown, fun g slot hagree hmyIp hcallback => ?_⟩
  have hlow := s.length_add_le_txlen
  have hhigh : s.txlen ≤ 1528 := by
    unfold Send.txlen
    split_ifs <;> omega
  have hbody : (s.outgoing raw).raw.Agrees slot 0 s.txlen := by
    intro i hfirst hlast
    rw [← sendPacket_agrees (s.outgoing raw) i hfirst hlast]
    have hlonger : ((sendPacket (s.outgoing raw)).txlen : Int) = s.txlen + 4 := rfl
    exact hagree i hfirst (by omega)
  obtain ⟨hpreamble, hethertype⟩ := ethernet_received hmacs hbody
  obtain ⟨hversion, hproto, htotal, hsrc, hdst⟩ := ip_received hlength hbody
  obtain ⟨hsrcPort, hdstPort, hudp⟩ := udp_received hlength hbody
  constructor
  · have hlonger : ((sendPacket (s.outgoing raw)).txlen : Int) = s.txlen + 4 := rfl
    have hfcs := fcs_received (o := s.outgoing raw) (show 8 ≤ s.txlen by omega)
      (show s.txlen + 4 < 2147483648 by omega) hagree rfl
    have hdeliver := processFrame_delivers (g := g) hpreamble (by omega) (by omega) hfcs hethertype
      hversion (by rw [htotal]; exact Nat.le_add_left 28 _) hproto (hdst.trans hmyIp.symm)
      (by rw [hudp]; exact Nat.le_add_left 8 _) hcallback
    rw [hdeliver, hsrc, hsrcPort, hdstPort, hudp]
    rfl
  · intro k hk
    rw [← hbody _ (by omega) (by omega)]
    exact Send.outgoing_left hmacs (by omega) (.inl (by omega))

/-- A datagram with an odd payload of three bytes, from 192.168.0.42 to 192.168.0.14. -/
def short : Send where
  myMac := [0x00, 0x13, 0x06, 0xe8, 0x53, 0xdf]
  cachedMac := [0x02, 0x00, 0x00, 0x00, 0x00, 0x01]
  myIp := 0xc0a8002a
  cachedIp := 0xc0a8000e
  srcPort := 2069
  dstPort := 1069
  length := 3

/-- The short datagram is delivered from the buffer of the sender. -/
theorem send_receive_short : ∃ o, short.run (fun _ => 0x61) = some o ∧
    (processFrame ⟨0xc0a8000e, 0, true⟩ (sendPacket o).raw (sendPacket o).txlen).value =
      .deliver 0xc0a8002a 2069 1069 50 3 := by
  obtain ⟨o, hrun, hreceive⟩ :=
    send_receive short (fun _ => 0x61) ⟨2, by decide, by decide⟩ ⟨rfl, rfl⟩ (by decide)
  exact ⟨o, hrun, (hreceive ⟨0xc0a8000e, 0, true⟩ _ (fun _ _ _ => rfl) rfl rfl).1⟩

end Soc.Libnet
