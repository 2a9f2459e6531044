import Soc.Dhcp.Client
import Soc.Library.Execution
import Soc.Libnet.Service

/-!
# Booting over DHCP

`dhcp_boot` and `dhcp_callback` as the clients of the microudp driver, with the transmit buffer. The
client whose turn it is runs up to its next call into the driver in one step; a statement of the
driver is a step too, and frames arrive at any time in a slot that is LOADED. A call of
`microudp_send` ends with `send_packet`, and so do the ARP frames of the driver.
-/

namespace Soc.Dhcp

open Library (Machine)
open Libnet (Action Activation Driver Outgoing SlotId Slot)

/-- The address 255.255.255.255. -/
def BROADCAST : Word := 0xffffffff

/-- The two functions that send a message. -/
inductive Sender where
  | discover
  | request
  deriving DecidableEq

/-- Where an activation of `dhcp.c` is, in `dhcp_boot` or in `dhcp_callback`. -/
inductive ClientPc where
  /-- `dhcp_boot` begins. -/
  | boot
  /-- `dhcp_callback` begins, with a payload in a slot. -/
  | callback (slot : SlotId) (data : Int) (length : Nat)
  /-- `microudp_arp_resolve (0xFFFFFFFF);` -/
  | resolve (sender : Sender)
  /-- `microudp_send (68, 67, sizeof(struct dhcp_msg));` -/
  | send (sender : Sender)
  /-- `while (dhcp_state != DHCP_BOUND)` -/
  | loop
  /-- `dhcp_callback` returns. -/
  | finish
  deriving DecidableEq

/-- The client with the driver: the MAC address, the transmit buffer, the static variables of
`dhcp.c`, what `rand` returns, and the activations of `dhcp.c`, those of `dhcp_callback` above
`dhcp_boot`. -/
structure Client where
  driver : Driver
  myMac : List Byte
  txbuffer : Slot
  statics : Statics
  rand : Word
  pcs : List ClientPc

namespace Client

variable (s : Client)

/-- It is the turn of `dhcp.c`. -/
def Runs : Prop := s.driver.InMain ∨ s.driver.InCallback

instance : Decidable s.Runs := inferInstanceAs (Decidable (_ ∨ _))

/-- The static variables when `dhcp_boot` has called `dhcp_discover`. -/
def booted : Statics := { s.statics with xid := s.rand, state := .selecting }

/-- What `dhcp_callback` does with a payload. -/
def reacts (slot : SlotId) (data : Int) (length : Nat) : Statics × Reaction :=
  (dhcpCallback (s.driver.slots slot).raw data length s.statics).value

/-- The message that a client builds in this step. -/
def built : Option (Sender × List Byte) :=
  if s.Runs then
    match s.pcs with
    | .boot :: _ => some (.discover, discoverMsg s.booted s.myMac)
    | .callback slot data length :: _ =>
        match s.reacts slot data length with
        | (statics, .request offeredIp) =>
            some (.request, requestMsg { statics with state := .requesting } s.myMac offeredIp)
        | _ => none
    | _ => none
  else none

/-- The frame that is passed to `process_frame` in this step. -/
def passed : Option (Slot × Int) :=
  match s.driver.stack with
  | .service (.process _) :: _ => some ((s.driver.slots s.driver.rxbuffer).raw, s.driver.rxlen)
  | _ => none

/-- What that frame leads to. -/
def action : Action :=
  match s.passed with
  | some (raw, rxlen) => (Libnet.processFrame s.driver.globals raw rxlen).value
  | none => .drop

/-- The frame that is handed to `send_packet` in this step. -/
def outgoing : Option Outgoing :=
  if s.Runs then
    match s.pcs with
    | .send _ :: _ => Libnet.microudpSend s.myMac s.driver.cachedMac s.driver.myIp s.driver.cachedIp
        68 67 SIZEOF_DHCP_MSG s.txbuffer
    | _ => none
  else
    match s.driver.stack with
    | .resolve ip (.request _) :: _ =>
        some (Libnet.arpRequest s.txbuffer s.myMac s.driver.myIp ip)
    | _ =>
        match s.action with
        | .arpReply mac ip => some (Libnet.arpReply s.txbuffer s.myMac s.driver.myIp mac ip)
        | _ => none

/-- The transmit buffer after a step. -/
def nextTxbuffer : Slot :=
  match s.outgoing, s.built with
  | some o, _ => (Libnet.sendPacket o).raw
  | none, some (_, message) => s.txbuffer.put 50 message
  | none, none => s.txbuffer

/-- A step of `dhcp.c`. -/
def runClient : Client :=
  match s.pcs with
  | .boot :: rest =>
      { s with
        statics := s.booted
        driver := s.driver.call (.setCallback true)
        pcs := .resolve .discover :: rest }
  | .callback slot data length :: rest =>
      match s.reacts slot data length with
      | (statics, .ignore) => { s with statics := statics, pcs := .finish :: rest }
      | (statics, .request _) =>
          { s with
            statics := { statics with state := .requesting }
            pcs := .resolve .request :: rest }
      | (statics, .setIp ip) =>
          { s with
            statics := statics
            driver := { s.driver with myIp := ip }
            pcs := .finish :: rest }
  | .resolve sender :: rest =>
      { s with driver := s.driver.call (.arpResolve BROADCAST), pcs := .send sender :: rest }
  | .send .discover :: rest => { s with driver := s.driver.call .send, pcs := .loop :: rest }
  | .send .request :: rest => { s with driver := s.driver.call .send, pcs := .finish :: rest }
  | .loop :: _ =>
      if s.statics.state = .bound then s else { s with driver := s.driver.call .service }
  | .finish :: rest => { s with driver := s.driver.next .callbackReturn, pcs := rest }
  | [] => s

/-- A statement of the driver, which may call `dhcp_callback`. -/
def runDriver : Client :=
  { s with
    driver := s.driver.step
    pcs :=
      match s.action with
      | .deliver _ _ _ data length => .callback s.driver.rxbuffer data length :: s.pcs
      | _ => s.pcs }

/-- A step of the CPU. -/
def step : Client :=
  { if s.Runs then s.runClient else s.runDriver with txbuffer := s.nextTxbuffer }

end Client

/-- What happens next: the CPU goes on, or a frame becomes PENDING in a slot. -/
inductive Input where
  | run
  | arrive (slot : SlotId) (count : BitVec 11) (raw : Slot)

namespace Client

/-- The client after an input. -/
def next (s : Client) : Input → Client
  | .run => s.step
  | .arrive slot count raw => { s with driver := s.driver.next (.arrive slot count raw) }

/-- A frame arrives in a LOADED slot. -/
def Allowed (s : Client) : Input → Prop
  | .run => True
  | .arrive slot count raw => s.driver.Allowed (.arrive slot count raw)

/-- `dhcp_boot` is called, with an IP address of 0. -/
def Initial (s : Client) : Prop :=
  s.driver.stack = [] ∧ s.driver.myIp = 0 ∧ s.driver.cachedMac.length = 6 ∧ s.myMac.length = 6 ∧
    s.statics = .off ∧ s.pcs = [.boot]

end Client

/-- The client with its driver and the network. -/
def dhcp : Machine Client Input where
  Initial := Client.Initial
  Allowed := Client.Allowed
  next := Client.next

end Soc.Dhcp
