import Mathlib.Logic.Function.Basic
import Soc.Library.Machine
import Soc.Libnet.Microudp

/-!
# The receive loop of microudp and its clients

`microudp_service` and `microudp_arp_resolve` of `libnet/microudp.c` as a machine with a call
stack, together with the two receive slots of the MAC and the latch of its interrupt. The
clients are arbitrary: the main program, at the bottom of the stack, and the registered
`rx_callback`, when `process_ip` has called it, choose their next call into the driver at
every step. Frames arrive at any time in a slot that is LOADED.

The machine starts after `microudp_start`. What is sent (`send_packet` and the transmit
buffer) touches neither the slots nor the interrupt of the receiver, so a call that only
sends is one step.
-/

namespace Soc.Libnet

open Library (Machine)

/-- `MINIMAC_STATE_EMPTY`, `MINIMAC_STATE_LOADED` and `MINIMAC_STATE_PENDING`. -/
inductive SlotState where
  | empty
  | loaded
  | pending
  deriving DecidableEq

/-- The two receive slots of the MAC. -/
inductive SlotId where
  | slot0
  | slot1
  deriving DecidableEq

/-- A receive slot: its STATE and COUNT registers and its buffer. `passed` counts the calls of
`process_frame` on the frame that arrived last; no code reads it. -/
structure RxSlot where
  state : SlotState
  count : BitVec 11
  raw : Slot
  passed : Nat

/-- The statements of `microudp_service`; those for the two slots differ in the slot only. -/
inductive ServicePc where
  /-- `if(irq_pending() & IRQ_ETHRX)` -/
  | irq
  /-- `if(CSR_MINIMAC_STATE == MINIMAC_STATE_PENDING)` -/
  | test (slot : SlotId)
  /-- `rxlen = CSR_MINIMAC_COUNT; rxbuffer = …;` -/
  | load (slot : SlotId)
  /-- `process_frame();` -/
  | process (slot : SlotId)
  /-- `CSR_MINIMAC_STATE = MINIMAC_STATE_LOADED;` -/
  | release (slot : SlotId)
  /-- `irq_ack(IRQ_ETHRX);` -/
  | ack
  deriving DecidableEq

/-- The statement after the block of a slot. -/
def ServicePc.after : SlotId → ServicePc
  | .slot0 => .test .slot1
  | .slot1 => .ack

/-- The statements of `microudp_arp_resolve`. -/
inductive ResolvePc where
  /-- The test of the cache. -/
  | start
  /-- The ARP request of a try. -/
  | request (tries : Nat)
  /-- `microudp_service();` -/
  | wait (tries timeout : Nat)
  /-- The test of `cached_mac` after it. -/
  | check (tries timeout : Nat)
  deriving DecidableEq

/-- The activations on the call stack. An activation of `process_frame` remembers the slot it works
on, and the rest of `microudp_service` below it is what runs next. -/
inductive Activation where
  | service (pc : ServicePc)
  | process (slot : SlotId)
  | callback
  | resolve (ip : Word) (pc : ResolvePc)
  deriving DecidableEq

/-- The driver's globals, the stack, the slots and the pending bit of IRQ_ETHRX. -/
structure Driver where
  myIp : Word
  cachedIp : Word
  cachedMac : List Byte
  rxCallback : Bool
  rxlen : Int
  rxbuffer : SlotId
  stack : List Activation
  slots : SlotId → RxSlot
  ip : Bool

namespace Driver

/-- The slot's STATE register reads PENDING. -/
def Pending (d : Driver) (i : SlotId) : Prop := (d.slots i).state = .pending

instance (d : Driver) (i : SlotId) : Decidable (d.Pending i) :=
  inferInstanceAs (Decidable (_ = _))

/-- The interrupt line of the receiver. -/
def irqRx (d : Driver) : Bool := decide (d.Pending .slot0) || decide (d.Pending .slot1)

/-- The globals `process_frame` reads. -/
def globals (d : Driver) : Globals where
  myIp := d.myIp
  cachedIp := d.cachedIp
  rxCallback := d.rxCallback

/-- `cached_mac` has a byte that is not zero. -/
def MacKnown (d : Driver) : Prop := ∃ byte ∈ d.cachedMac, byte ≠ 0

instance (d : Driver) : Decidable d.MacKnown :=
  inferInstanceAs (Decidable (∃ byte ∈ d.cachedMac, byte ≠ 0))

/-- The ARP cache answers `microudp_arp_resolve`. -/
def Cached (d : Driver) (ip : Word) : Prop := d.cachedIp = ip ∧ d.MacKnown

instance (d : Driver) (ip : Word) : Decidable (d.Cached ip) :=
  inferInstanceAs (Decidable (_ ∧ _))

/-- Change a slot. -/
def setSlot (d : Driver) (i : SlotId) (slot : RxSlot) : Driver :=
  { d with slots := Function.update d.slots i slot }

/-- `process_frame` is called: it works on `rxbuffer` and `rxlen`, and calls `rx_callback` last. -/
def enterProcessFrame (d : Driver) : Driver :=
  let slot := d.slots d.rxbuffer
  let entered : Driver :=
    { d.setSlot d.rxbuffer { slot with passed := slot.passed + 1 } with
      stack := .process d.rxbuffer :: d.stack }
  match (processFrame d.globals slot.raw d.rxlen).value with
  | .drop => entered
  | .cacheMac mac => { entered with cachedMac := mac }
  | .arpReply _ _ => entered
  | .deliver _ _ _ _ _ => { entered with stack := .callback :: entered.stack }

/-- A statement of `microudp_service`, with the activations below it. -/
def stepService (d : Driver) (rest : List Activation) : ServicePc → Driver
  | .irq =>
      if d.ip then { d with stack := .service (.test .slot0) :: rest } else { d with stack := rest }
  | .test i =>
      if d.Pending i then { d with stack := .service (.load i) :: rest }
      else { d with stack := .service (.after i) :: rest }
  | .load i =>
      { d with
        rxlen := (d.slots i).count.toNat
        rxbuffer := i
        stack := .service (.process i) :: rest }
  | .process i => enterProcessFrame { d with stack := .service (.release i) :: rest }
  | .release i =>
      { d.setSlot i { d.slots i with state := .loaded } with
        stack := .service (.after i) :: rest }
  -- the latch follows the line again in the cycle after the acknowledgement
  | .ack => { d with ip := d.irqRx, stack := rest }

/-- A statement of `microudp_arp_resolve`. -/
def stepResolve (d : Driver) (ip : Word) (rest : List Activation) : ResolvePc → Driver
  | .start =>
      if d.Cached ip then { d with stack := rest }
      else
        { d with
          cachedIp := ip
          cachedMac := List.replicate 6 0
          stack := .resolve ip (.request 0) :: rest }
  | .request tries => { d with stack := .resolve ip (.wait tries 0) :: rest }
  | .wait tries timeout =>
      { d with stack := .service .irq :: .resolve ip (.check tries timeout) :: rest }
  | .check tries timeout =>
      if d.MacKnown then { d with stack := rest }
      else if timeout + 1 < 2000000 then
        { d with stack := .resolve ip (.wait tries (timeout + 1)) :: rest }
      else if tries + 1 < 5 then { d with stack := .resolve ip (.request (tries + 1)) :: rest }
      else { d with stack := rest }

/-- The next statement of the activation on top. `process_frame` has nothing left to do but return,
and a client does as it likes. -/
def step (d : Driver) : Driver :=
  match d.stack with
  | .service pc :: rest => d.stepService rest pc
  | .process _ :: rest => { d with stack := rest }
  | .resolve ip pc :: rest => d.stepResolve ip rest pc
  | _ => d

end Driver

/-- The calls a client makes into the driver. -/
inductive Call where
  | service
  | arpResolve (ip : Word)
  | send
  | setCallback (set : Bool)

/-- What happens next: a statement of the driver, a call by the client on top of the stack, the
return of `rx_callback`, or a frame that becomes PENDING in a slot. -/
inductive Event where
  | statement
  | call (c : Call)
  | callbackReturn
  | arrive (slot : SlotId) (count : BitVec 11) (raw : Slot)

namespace Driver

/-- A client calls the driver. -/
def call (d : Driver) : Call → Driver
  | .service => { d with stack := .service .irq :: d.stack }
  | .arpResolve ip => { d with stack := .resolve ip .start :: d.stack }
  | .send => d
  | .setCallback set => { d with rxCallback := set }

/-- The main program is running. -/
def InMain (d : Driver) : Prop := d.stack = []

/-- `rx_callback` is running. -/
def InCallback (d : Driver) : Prop := d.stack.head? = some .callback

instance (d : Driver) : Decidable d.InMain := inferInstanceAs (Decidable (_ = _))

instance (d : Driver) : Decidable d.InCallback := inferInstanceAs (Decidable (_ = _))

/-- The main program calls anything; `rx_callback` calls anything but `microudp_service`. -/
def Allowed (d : Driver) : Event → Prop
  | .statement => ¬ d.InMain ∧ ¬ d.InCallback
  | .call .service => d.InMain
  | .call _ => d.InMain ∨ d.InCallback
  | .callbackReturn => d.InCallback
  | .arrive i _ _ => (d.slots i).state = .loaded

instance (d : Driver) : ∀ event : Event, Decidable (d.Allowed event)
  | .statement => inferInstanceAs (Decidable (_ ∧ _))
  | .call .service => inferInstanceAs (Decidable d.InMain)
  | .call (.arpResolve _) => inferInstanceAs (Decidable (_ ∨ _))
  | .call .send => inferInstanceAs (Decidable (_ ∨ _))
  | .call (.setCallback _) => inferInstanceAs (Decidable (_ ∨ _))
  | .callbackReturn => inferInstanceAs (Decidable d.InCallback)
  | .arrive _ _ _ => inferInstanceAs (Decidable (_ = _))

/-- The driver after an event. -/
def next (d : Driver) : Event → Driver
  | .statement => d.step
  | .call c => d.call c
  | .callbackReturn => { d with stack := d.stack.tail }
  | .arrive i count raw => { d.setSlot i ⟨.pending, count, raw, 0⟩ with ip := true }

/-- What `microudp_start` leaves: an empty cache, no callback and two LOADED slots. -/
def Initial (d : Driver) : Prop :=
  d.stack = [] ∧ d.cachedIp = 0 ∧ d.cachedMac = List.replicate 6 0 ∧ d.rxCallback = false ∧
    ∀ i, (d.slots i).state = .loaded ∧ (d.slots i).passed = 0

end Driver

/-- The driver with its clients and the receiver. -/
def driver : Machine Driver Event where
  Initial := Driver.Initial
  Allowed := Driver.Allowed
  next := Driver.next

instance (d : Driver) (event : Event) : Decidable (driver.Allowed d event) :=
  inferInstanceAs (Decidable (d.Allowed event))

end Soc.Libnet
