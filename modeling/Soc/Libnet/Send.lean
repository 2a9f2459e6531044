import Soc.Libnet.Microudp

/-!
# The send functions of microudp

`fill_eth_header`, `ip_checksum`, the two ARP frames, `microudp_send` and `send_packet` of
`libnet/microudp.c`. They build a frame in `txbuffer`, which is read here like a receive slot:
by offset from its start, with the fields where the packed structures of the source put them. What
a function hands to `send_packet` is an `Outgoing` frame.
-/

namespace Soc.Libnet

open Libbase (crc32)

/-- `IP_DONT_FRAGMENT`. -/
def IP_DONT_FRAGMENT : BitVec 16 := 0x4000

/-- `IP_TTL`. -/
def IP_TTL : Byte := 64

/-- `broadcast`. -/
def broadcast : List Byte := List.replicate 6 0xff

/-- The bytes of a half word. -/
def bytes16 (value : BitVec 16) : List Byte :=
  [value.extractLsb' 8 8, value.extractLsb' 0 8]

/-- The bytes of a word. -/
def bytes32 (value : Word) : List Byte :=
  [value.extractLsb' 24 8, value.extractLsb' 16 8, value.extractLsb' 8 8, value.extractLsb' 0 8]

namespace Slot

/-- The word at an offset. -/
def word (raw : Slot) (offset : Int) : Word :=
  raw offset ++ raw (offset + 1) ++ raw (offset + 2) ++ raw (offset + 3)

/-- Store bytes from an offset on. -/
def put (raw : Slot) (offset : Int) (bytes : List Byte) : Slot := fun i =>
  if offset ≤ i ∧ i < offset + bytes.length then bytes.getD (i - offset).toNat 0 else raw i

/-- The bytes `raw[0..n-1]`. -/
def bytes (raw : Slot) (n : Nat) : List Byte := (List.range n).map fun i : Nat => raw i

end Slot

/-- `fill_eth_header`. -/
def fillEthHeader (raw : Slot) (destmac srcmac : List Byte) (ethertype : BitVec 16) : Slot :=
  raw.put 0 (List.replicate 7 0x55 ++ [0xd5] ++ destmac ++ srcmac ++ bytes16 ethertype)

/-- A frame in `txbuffer`, with `txlen`. -/
structure Outgoing where
  raw : Slot
  txlen : Nat

/-- The bytes of a frame. -/
def Outgoing.frame (o : Outgoing) : List Byte := o.raw.bytes o.txlen

/-- `send_packet` appends the frame check sequence. -/
def sendPacket (o : Outgoing) : Outgoing where
  raw :=
    let crc := (crc32 o.raw 8 (.ofNat 32 (o.txlen - 8))).value
    o.raw.put o.txlen
      [crc.extractLsb' 0 8, crc.extractLsb' 8 8, crc.extractLsb' 16 8, crc.extractLsb' 24 8]
  txlen := o.txlen + 4

/-- The ARP frames of `process_arp` and `microudp_arp_resolve`, which differ in the opcode and the
target. The padding keeps what the buffer held. -/
def arpFrame (raw : Slot) (destmac myMac : List Byte) (opcode : BitVec 16) (myIp : Word)
    (targetMac : List Byte) (targetIp : Word) : Outgoing where
  raw := (fillEthHeader raw destmac myMac ETHERTYPE_ARP).put 22
    (bytes16 ARP_HWTYPE_ETHERNET ++ bytes16 ARP_PROTO_IP ++ [6, 4] ++ bytes16 opcode ++ myMac ++
      bytes32 myIp ++ targetMac ++ bytes32 targetIp)
  txlen := 68

/-- The ARP request of `microudp_arp_resolve`. -/
def arpRequest (raw : Slot) (myMac : List Byte) (myIp ip : Word) : Outgoing :=
  arpFrame raw broadcast myMac ARP_OPCODE_REQUEST myIp (List.replicate 6 0) ip

/-- The ARP reply of `process_arp`, to the sender of a request. -/
def arpReply (raw : Slot) (myMac : List Byte) (myIp : Word) (senderMac : List Byte)
    (senderIp : Word) : Outgoing :=
  arpFrame raw senderMac myMac ARP_OPCODE_REPLY myIp senderMac senderIp

/-- The first loop of `ip_checksum`: add `n` half words. -/
def addHalves (mem : Int → Byte) (ptr : Int) : Nat → Word → Word
  | 0, r => r
  | n + 1, r =>
      addHalves mem (ptr + 2) n
        (r + ((mem ptr).setWidth 32 <<< 8 ||| (mem (ptr + 1)).setWidth 32))

/-- A sum with its overflows added. -/
theorem toNat_overflows (r : Word) :
    ((r &&& 0xffff#32) + r >>> 16).toNat = r.toNat % 65536 + r.toNat / 65536 := by
  have hlow : r.toNat &&& 65535 = r.toNat % 65536 := Nat.and_two_pow_sub_one_eq_mod r.toNat 16
  have hr : r.toNat < 4294967296 := r.isLt
  have hmask : (0xffff#32).toNat = 65535 := rfl
  rw [BitVec.toNat_add, BitVec.toNat_and, BitVec.toNat_ushiftRight, Nat.shiftRight_eq_div_pow,
    hmask, hlow]
  show (r.toNat % 65536 + r.toNat / 65536) % 4294967296 = _
  rw [Nat.mod_eq_of_lt (by omega)]

/-- Whether a sum has overflows. -/
theorem overflows_eq_zero_iff (r : Word) : r >>> 16 = 0 ↔ r.toNat < 65536 := by
  rw [← BitVec.toNat_inj, BitVec.toNat_ushiftRight, Nat.shiftRight_eq_div_pow]
  show r.toNat / 65536 = 0 ↔ _
  omega

/-- Adding the overflows makes a sum smaller. -/
theorem overflow_lt {r : Word} (h : r >>> 16 ≠ 0) :
    ((r &&& 0xffff#32) + r >>> 16).toNat < r.toNat := by
  rw [Ne, overflows_eq_zero_iff] at h
  rw [toNat_overflows]
  omega

/-- The second loop of `ip_checksum`: add the overflows. -/
def addOverflows (r : Word) : Word :=
  if r >>> 16 = 0 then r else addOverflows ((r &&& 0xffff#32) + r >>> 16)
  termination_by r.toNat
  decreasing_by exact overflow_lt ‹_›

/-- `ip_checksum`. It returns an `unsigned short`. -/
def ipChecksum (r : Word) (mem : Int → Byte) (buffer : Int) (length : Nat) (complete : Bool) :
    BitVec 16 :=
  let r := addOverflows (addHalves mem buffer (length / 2) r)
  if complete then
    let r := ~~~r &&& 0xffff
    (if r = 0 then 0xffff else r).setWidth 16
  else r.setWidth 16

/-- The IP header of `microudp_send`, with its checksum at 0. -/
def ipHeader (length : Nat) (srcIp dstIp : Word) : List Byte :=
  [IP_IPV4, 0] ++ bytes16 (.ofNat 16 (length + SIZEOF_UDP_FRAME)) ++ bytes16 0 ++
    bytes16 IP_DONT_FRAGMENT ++ [IP_TTL, IP_PROTO_UDP] ++ bytes16 0 ++ bytes32 srcIp ++
    bytes32 dstIp

/-- `struct pseudo_header`. -/
def pseudoHeader (length : Nat) (srcIp dstIp : Word) : List Byte :=
  bytes32 srcIp ++ bytes32 dstIp ++ [0, IP_PROTO_UDP] ++
    bytes16 (.ofNat 16 (length + SIZEOF_UDP_HEADER))

/-- `microudp_send`: the payload is in the buffer already. It returns 0 without a word when
`cached_mac` is all zero. -/
def microudpSend (myMac cachedMac : List Byte) (myIp cachedIp : Word) (srcPort dstPort : BitVec 16)
    (length : Nat) (raw : Slot) : Option Outgoing :=
  if ∀ byte ∈ cachedMac, byte = 0 then none
  else
    let txlen := length + SIZEOF_ETHERNET_HEADER + SIZEOF_UDP_FRAME + 8
    let raw := fillEthHeader raw cachedMac myMac ETHERTYPE_IP
    let raw := raw.put 22 (ipHeader length myIp cachedIp)
    let raw := raw.put 32 (bytes16 (ipChecksum 0 raw 22 20 true))
    let raw := raw.put 42 (bytes16 srcPort ++ bytes16 dstPort ++
      bytes16 (.ofNat 16 (length + SIZEOF_UDP_HEADER)) ++ bytes16 0)
    let h := pseudoHeader length myIp cachedIp
    let r := ipChecksum 0 (fun i => h.getD i.toNat 0) 0 12 false
    -- an odd payload is padded
    let raw := if length % 2 = 1 then raw.put (50 + length) [0] else raw
    let r := ipChecksum (r.setWidth 32) raw 42 (SIZEOF_UDP_HEADER + (length + length % 2)) true
    some ⟨raw.put 48 (bytes16 r), if txlen < 72 then 72 else txlen⟩

end Soc.Libnet
