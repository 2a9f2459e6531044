import Soc.Libbase.Crc32

/-!
# The receive functions of microudp

`process_frame`, `process_arp` and `process_ip` of `libnet/microudp.c` on the frame in a slot
of the MAC. Offsets count from the start of the slot, whose 2048 bytes are followed and
preceded by other memory; the fields stand where the packed structures of the source put
them, and the CPU is big-endian. What a call leads to is returned as an `Action`; what it
read, and how often `crc32` ran for how long, is its trace.
-/

namespace Soc.Libnet

open Libbase (Access crc32 readByte)
open Library (Traced)

/-- `ETHERTYPE_ARP`. -/
def ETHERTYPE_ARP : BitVec 16 := 0x0806

/-- `ETHERTYPE_IP`. -/
def ETHERTYPE_IP : BitVec 16 := 0x0800

/-- `ARP_HWTYPE_ETHERNET`. -/
def ARP_HWTYPE_ETHERNET : BitVec 16 := 0x0001

/-- `ARP_PROTO_IP`. -/
def ARP_PROTO_IP : BitVec 16 := 0x0800

/-- `ARP_OPCODE_REQUEST`. -/
def ARP_OPCODE_REQUEST : BitVec 16 := 0x0001

/-- `ARP_OPCODE_REPLY`. -/
def ARP_OPCODE_REPLY : BitVec 16 := 0x0002

/-- `IP_IPV4`. -/
def IP_IPV4 : Byte := 0x45

/-- `IP_PROTO_UDP`. -/
def IP_PROTO_UDP : Byte := 0x11

/-- `sizeof(struct ethernet_header)`. -/
def SIZEOF_ETHERNET_HEADER : Nat := 22

/-- `sizeof(struct udp_frame)`: the IP and the UDP header. -/
def SIZEOF_UDP_FRAME : Nat := 28

/-- `sizeof(struct udp_header)`. -/
def SIZEOF_UDP_HEADER : Nat := 8

/-- The memory around a slot, by offset from its start. -/
abbrev Slot := Int → Byte

namespace Slot

/-- The two bytes at an offset. -/
def half (raw : Slot) (offset : Int) : BitVec 16 :=
  raw offset ++ raw (offset + 1)

/-- `ip.total_length`. -/
def totalLength (raw : Slot) : BitVec 16 := raw.half 24

/-- `udp.length`. -/
def udpLength (raw : Slot) : BitVec 16 := raw.half 46

end Slot

/-- Load a half word. -/
def readHalf (raw : Slot) (offset : Int) : Traced Access (BitVec 16) := do
  let b0 ← readByte raw offset
  let b1 ← readByte raw (offset + 1)
  pure (b0 ++ b1)

/-- Load a word. -/
def readWord (raw : Slot) (offset : Int) : Traced Access Word := do
  let b0 ← readByte raw offset
  let b1 ← readByte raw (offset + 1)
  let b2 ← readByte raw (offset + 2)
  let b3 ← readByte raw (offset + 3)
  pure (b0 ++ b1 ++ b2 ++ b3)

/-- The loops that copy `n` bytes. -/
def readBytes (raw : Slot) (offset : Int) : Nat → Traced Access (List Byte)
  | 0 => pure []
  | n + 1 => do
      let byte ← readByte raw offset
      let rest ← readBytes raw (offset + 1) n
      pure (byte :: rest)

/-- The globals the receive functions read: `my_ip`, `cached_ip`, and whether `rx_callback` is
set. -/
structure Globals where
  myIp : Word
  cachedIp : Word
  rxCallback : Bool

/-- What a frame leads to: nothing, an entry for `cached_mac`, an ARP reply to a sender, or a call
of `rx_callback` with the payload at an offset of the slot. -/
inductive Action where
  | drop
  | cacheMac (mac : List Byte)
  | arpReply (mac : List Byte) (ip : Word)
  | deliver (srcIp : Word) (srcPort dstPort : BitVec 16) (data : Int) (length : Nat)
  deriving DecidableEq

/-- `process_arp`. -/
def processArp (g : Globals) (raw : Slot) (rxlen : Int) : Traced Access Action :=
  if rxlen < 68 then pure .drop
  else do
    let hwtype ← readHalf raw 22
    if hwtype ≠ ARP_HWTYPE_ETHERNET then return .drop
    let proto ← readHalf raw 24
    if proto ≠ ARP_PROTO_IP then return .drop
    let hwsize ← readByte raw 26
    if hwsize ≠ 6 then return .drop
    let protosize ← readByte raw 27
    if protosize ≠ 4 then return .drop
    let opcode ← readHalf raw 28
    if opcode = ARP_OPCODE_REPLY then
      let senderIp ← readWord raw 36
      if senderIp = g.cachedIp then
        return .cacheMac (← readBytes raw 30 6)
      return .drop
    let opcode ← readHalf raw 28
    if opcode = ARP_OPCODE_REQUEST then
      let targetIp ← readWord raw 46
      if targetIp = g.myIp then
        let _ ← readBytes raw 30 6
        let senderIp ← readWord raw 36
        return .arpReply (← readBytes raw 30 6) senderIp
    return .drop

/-- `process_ip`. The comparisons with `sizeof` are unsigned. -/
def processIp (g : Globals) (raw : Slot) (rxlen : Int) : Traced Access Action :=
  if BitVec.ofInt 32 rxlen < .ofNat 32 (SIZEOF_ETHERNET_HEADER + SIZEOF_UDP_FRAME) then pure .drop
  else do
    let version ← readByte raw 22
    if version ≠ IP_IPV4 then return .drop
    let totalLength ← readHalf raw 24
    if totalLength.toNat < SIZEOF_UDP_FRAME then return .drop
    let proto ← readByte raw 31
    if proto ≠ IP_PROTO_UDP then return .drop
    let dstIp ← readWord raw 38
    if dstIp ≠ g.myIp then return .drop
    let udpLength ← readHalf raw 46
    if udpLength.toNat < SIZEOF_UDP_HEADER then return .drop
    if g.rxCallback then
      let srcIp ← readWord raw 34
      let srcPort ← readHalf raw 42
      let dstPort ← readHalf raw 44
      let udpLength ← readHalf raw 46
      return .deliver srcIp srcPort dstPort 50 (udpLength.toNat - SIZEOF_UDP_HEADER)
    return .drop

/-- The test of the preamble: `n` bytes 0x55 from offset `i` on, and 0xd5 after them. -/
def preambleFrom (raw : Slot) (i : Int) : Nat → Traced Access Bool
  | 0 => do return (← readByte raw i) = 0xd5
  | n + 1 => do
      let byte ← readByte raw i
      if byte ≠ 0x55 then return false
      preambleFrom raw (i + 1) n

/-- `process_frame`. `rxlen` is an `int`, and the length for `crc32` is unsigned. -/
def processFrame (g : Globals) (raw : Slot) (rxlen : Int) : Traced Access Action := do
  let preamble ← preambleFrom raw 0 7
  if !preamble then return .drop
  let b3 ← readByte raw (rxlen - 1)
  let b2 ← readByte raw (rxlen - 2)
  let b1 ← readByte raw (rxlen - 3)
  let b0 ← readByte raw (rxlen - 4)
  let computedCrc ← crc32 raw 8 (.ofInt 32 (rxlen - 12))
  if b3 ++ b2 ++ b1 ++ b0 ≠ computedCrc then return .drop
  let ethertype ← readHalf raw 20
  if ethertype = ETHERTYPE_ARP then processArp g raw (rxlen - 4)
  else
    let ethertype ← readHalf raw 20
    if ethertype = ETHERTYPE_IP then processIp g raw (rxlen - 4)
    else return .drop

end Soc.Libnet
