import Soc.Libnet.Send

/-!
# The DHCP client

The functions of `ethernet_test/dhcp.c` that build, parse and answer messages. A message is sent as
the 308 bytes of `struct dhcp_msg`, and received as memory around a payload, from which the client
loads the fields. `microudp_get_mac` and `microudp_set_ip` are not part of the repository: the
first is read as `my_mac`, and the second as an assignment to `my_ip`.
-/

namespace Soc.Dhcp

open Libbase (Access readByte)
open Library (Traced)
open Libnet (Slot bytes16 bytes32 readWord)

/-- `dhcp_state`, with the values the client uses. -/
inductive DhcpState where
  | off
  | requesting
  | selecting
  | bound
  deriving DecidableEq

/-- `DHCP_DISCOVER`. -/
def DHCP_DISCOVER : Byte := 1

/-- `DHCP_OFFER`. -/
def DHCP_OFFER : Byte := 2

/-- `DHCP_REQUEST`. -/
def DHCP_REQUEST : Byte := 3

/-- `DHCP_ACK`. -/
def DHCP_ACK : Byte := 5

/-- `DHCP_OPTION_SUBNET_MASK`. -/
def DHCP_OPTION_SUBNET_MASK : Byte := 1

/-- `DHCP_OPTION_ROUTER`. -/
def DHCP_OPTION_ROUTER : Byte := 3

/-- `DHCP_OPTION_DNS_SERVER`. -/
def DHCP_OPTION_DNS_SERVER : Byte := 6

/-- `DHCP_OPTION_BROADCAST`. -/
def DHCP_OPTION_BROADCAST : Byte := 28

/-- `DHCP_OPTION_REQUESTED_IP`. -/
def DHCP_OPTION_REQUESTED_IP : Byte := 50

/-- `DHCP_OPTION_MESSAGE_TYPE`. -/
def DHCP_OPTION_MESSAGE_TYPE : Byte := 53

/-- `DHCP_OPTION_MESSAGE_TYPE_LEN`. -/
def DHCP_OPTION_MESSAGE_TYPE_LEN : Byte := 1

/-- `DHCP_OPTION_SERVER_ID`. -/
def DHCP_OPTION_SERVER_ID : Byte := 54

/-- `DHCP_OPTION_PARAMETER_REQUEST_LIST`. -/
def DHCP_OPTION_PARAMETER_REQUEST_LIST : Byte := 55

/-- `DHCP_OPTION_END`. -/
def DHCP_OPTION_END : Byte := 255

/-- `magic_cookie`. -/
def MAGIC_COOKIE : Word := 0x63825363

/-- `sizeof(struct dhcp_msg)`. -/
def SIZEOF_DHCP_MSG : Nat := 308

/-- The static variables. -/
structure Statics where
  state : DhcpState
  xid : Word
  mySubnetMask : Word
  myRouter : Word
  myDns : Word
  myDhcpServer : Word
  deriving DecidableEq

/-- The variables before `dhcp_boot`. -/
def Statics.off : Statics := ⟨.off, 0, 0, 0, 0, 0⟩

/-- `dhcp_option`. The options written so far are a list, whose length is `options_len`. -/
def dhcpOption (options : List Byte) (optionType optionLen : Byte) : List Byte :=
  options ++ [optionType, optionLen]

/-- `dhcp_option_byte`. -/
def dhcpOptionByte (options : List Byte) (value : Byte) : List Byte := options ++ [value]

/-- `dhcp_option_long`. -/
def dhcpOptionLong (options : List Byte) (value : Word) : List Byte := options ++ bytes32 value

/-- `dhcp_option_trailer`. -/
def dhcpOptionTrailer (options : List Byte) : List Byte :=
  let options := options ++ [DHCP_OPTION_END]
  options ++ List.replicate (68 - options.length) 0

/-- The fields that `dhcp_build_msg` fills, up to the options. -/
def dhcpHeader (d : Statics) (mac : List Byte) : List Byte :=
  [1, 1, 6, 0] ++ bytes32 d.xid ++ bytes16 0 ++
    -- broadcast results back to us
    bytes16 0x8000 ++
    bytes32 0 ++ bytes32 0 ++ bytes32 d.myDhcpServer ++ bytes32 0 ++
    (mac ++ List.replicate 10 0) ++ List.replicate 64 0 ++ List.replicate 128 0 ++
    bytes32 MAGIC_COOKIE

/-- The first option of `dhcp_build_msg`. -/
def dhcpBuildMsg (messageType : Byte) : List Byte :=
  dhcpOptionByte (dhcpOption [] DHCP_OPTION_MESSAGE_TYPE DHCP_OPTION_MESSAGE_TYPE_LEN) messageType

/-- The options both messages ask for. -/
def dhcpParameterRequest (options : List Byte) : List Byte :=
  let options := dhcpOption options DHCP_OPTION_PARAMETER_REQUEST_LIST 4
  let options := dhcpOptionByte options DHCP_OPTION_SUBNET_MASK
  let options := dhcpOptionByte options DHCP_OPTION_ROUTER
  let options := dhcpOptionByte options DHCP_OPTION_BROADCAST
  dhcpOptionByte options DHCP_OPTION_DNS_SERVER

/-- The message of `dhcp_discover`. -/
def discoverMsg (d : Statics) (mac : List Byte) : List Byte :=
  dhcpHeader d mac ++ dhcpOptionTrailer (dhcpParameterRequest (dhcpBuildMsg DHCP_DISCOVER))

/-- The message of `dhcp_request`. -/
def requestMsg (d : Statics) (mac : List Byte) (offeredIp : Word) : List Byte :=
  let options := dhcpBuildMsg DHCP_REQUEST
  let options := dhcpOption options DHCP_OPTION_REQUESTED_IP 4
  let options := dhcpOptionLong options offeredIp
  let options := dhcpOption options DHCP_OPTION_SERVER_ID 4
  let options := dhcpOptionLong options d.myDhcpServer
  dhcpHeader d mac ++ dhcpOptionTrailer (dhcpParameterRequest options)

/-- The assignments of `dhcp_parse_options` for one option with a value. -/
def Statics.learn (d : Statics) (optionType : Byte) (value : Word) : Statics :=
  if optionType = 54 then { d with myDhcpServer := value }
  else if optionType = 1 then { d with mySubnetMask := value }
  else if optionType = 3 then { d with myRouter := value }
  else if optionType = 6 then { d with myDns := value }
  else d

/-- The loop of `dhcp_parse_options`. Only the four options it knows have their value read. -/
def parseFrom (mem : Slot) (options : Int) (parsed : Nat) (d : Statics) : Traced Access Statics :=
  if parsed < 68 then do
    let optionType ← readByte mem options
    if optionType = 0xff then return d
    let d ←
      if optionType = 54 ∨ optionType = 1 ∨ optionType = 3 ∨ optionType = 6 then do
        pure (d.learn optionType (← readWord mem (options + 2)))
      else pure d
    let optionLen ← readByte mem (options + 1)
    if _hlen : optionLen = 0 ∨ 68 < optionLen.toNat then return d
    parseFrom mem (options + optionLen.toNat + 2) (parsed + optionLen.toNat) d
  else pure d
  termination_by 68 - parsed
  decreasing_by
    have hpositive : optionLen.toNat ≠ 0 := fun hzero => _hlen (.inl (BitVec.eq_of_toNat_eq hzero))
    omega

/-- `dhcp_parse_options` of the message at an address. -/
def dhcpParseOptions (mem : Slot) (dhcp : Int) (d : Statics) : Traced Access Statics :=
  parseFrom mem (dhcp + 240) 0 d

/-- What `dhcp_callback` leads to: nothing, a call of `dhcp_request`, or one of
`microudp_set_ip`. -/
inductive Reaction where
  | ignore
  | request (offeredIp : Word)
  | setIp (ip : Word)
  deriving DecidableEq

/-- `dhcp_handle_offer`, up to its call of `dhcp_request`. -/
def dhcpHandleOffer (mem : Slot) (dhcp : Int) (d : Statics) :
    Traced Access (Statics × Reaction) := do
  let offeredIp ← readWord mem (dhcp + 16)
  let siaddr ← readWord mem (dhcp + 20)
  let d ← dhcpParseOptions mem dhcp { d with myDhcpServer := siaddr }
  pure (d, .request offeredIp)

/-- `dhcp_handle_ack`. -/
def dhcpHandleAck (mem : Slot) (dhcp : Int) (d : Statics) : Traced Access (Statics × Reaction) := do
  let siaddr ← readWord mem (dhcp + 20)
  let d ← dhcpParseOptions mem dhcp { d with myDhcpServer := siaddr }
  let yiaddr ← readWord mem (dhcp + 16)
  pure ({ d with state := .bound }, .setIp yiaddr)

/-- `dhcp_callback`. -/
def dhcpCallback (mem : Slot) (data : Int) (length : Nat) (d : Statics) :
    Traced Access (Statics × Reaction) :=
  if length < SIZEOF_DHCP_MSG then pure (d, .ignore)
  else do
    let magicCookie ← readWord mem (data + 236)
    if magicCookie ≠ MAGIC_COOKIE then return (d, .ignore)
    let op ← readByte mem data
    if op ≠ 2 then return (d, .ignore)
    let htype ← readByte mem (data + 1)
    if htype ≠ 1 then return (d, .ignore)
    let hlen ← readByte mem (data + 2)
    if hlen ≠ 6 then return (d, .ignore)
    let xid ← readWord mem (data + 4)
    if xid ≠ d.xid then return (d, .ignore)
    let option0 ← readByte mem (data + 240)
    if option0 ≠ DHCP_OPTION_MESSAGE_TYPE then return (d, .ignore)
    let option1 ← readByte mem (data + 241)
    if option1 ≠ 1 then return (d, .ignore)
    let messageType ← readByte mem (data + 242)
    if messageType = DHCP_OFFER ∧ d.state = .selecting then
      return (← dhcpHandleOffer mem data d)
    let messageType ← readByte mem (data + 242)
    if messageType = DHCP_ACK ∧ d.state = .requesting then
      return (← dhcpHandleAck mem data d)
    return (d, .ignore)

/-- What `dhcp_callback` does: nothing, a REQUEST for an OFFER, or DHCP_BOUND for an ACK. -/
inductive Reacts (d : Statics) : Statics × Reaction → Prop where
  | ignore : Reacts d (d, .ignore)
  | request (d' : Statics) (offeredIp : Word) (h : d.state = .selecting) :
      Reacts d (d', .request offeredIp)
  | setIp (d' : Statics) (ip : Word) (h : d'.state = .bound) : Reacts d (d', .setIp ip)

/-- `dhcp_callback` does one of the three. -/
theorem dhcpCallback_reacts (mem : Slot) (data : Int) (length : Nat) (d : Statics) :
    Reacts d (dhcpCallback mem data length d).value := by
  refine Traced.guard_value .ignore ?_
  -- the cookie, the header and the option
  refine Traced.guard_value .ignore (Traced.guard_value .ignore ?_)
  refine Traced.guard_value .ignore (Traced.guard_value .ignore ?_)
  refine Traced.guard_value .ignore (Traced.guard_value .ignore (Traced.guard_value .ignore ?_))
  rw [Traced.value_bind]
  split
  case isTrue hoffer => exact .request _ _ hoffer.2
  rw [Traced.value_bind]
  split
  case isTrue => exact .setIp _ _ rfl
  case isFalse => exact .ignore

/-- The trailer fills the options. -/
theorem length_dhcpOptionTrailer {options : List Byte} (h : options.length < 68) :
    (dhcpOptionTrailer options).length = 68 := by
  have hlength : (options ++ [DHCP_OPTION_END]).length = options.length + 1 := List.length_append
  rw [dhcpOptionTrailer, List.length_append, List.length_replicate, hlength]
  omega

/-- The fields before the options. -/
theorem length_dhcpHeader (d : Statics) {mac : List Byte} (h : mac.length = 6) :
    (dhcpHeader d mac).length = 240 := by
  unfold dhcpHeader
  simp only [List.length_append, List.length_replicate, h]
  rfl

/-- `dhcp_discover` fills `struct dhcp_msg`. -/
theorem length_discoverMsg (d : Statics) {mac : List Byte} (h : mac.length = 6) :
    (discoverMsg d mac).length = SIZEOF_DHCP_MSG := by
  rw [discoverMsg, List.length_append, length_dhcpHeader d h, length_dhcpOptionTrailer (by decide)]
  rfl

end Soc.Dhcp
