import Mathlib.Logic.Function.Basic
import Soc.Csr
import Soc.Library.Machine
import Soc.Library.ToggleSync

/-!
# The receive path of the Ethernet MAC

The two receive slots in `minimac2_ctlif`, `minimac2_sync` with its `minimac2_psync`, and
`minimac2_rx`, with the buffers `minimac2_rx` writes. The registers of a slot are grouped by the
clock that drives them. At every instant one of the two clocks has an edge, or both have; a
register that crosses the clocks is then sampled with its old value.

The machine starts at power-up, where the registers that matter are 0. The software may write
LOADED to a slot at any time; the system reset comes before its first write.
-/

namespace Soc.Minimac2

open Library (Machine Sampler)

/-- What the PHY sends per cycle. -/
abbrev Nibble := BitVec 4

/-- The slot can receive a new packet. -/
def LOADED : BitVec 2 := 0b01

/-- The slot has received a packet. -/
def PENDING : BitVec 2 := 0b10

/-- The two receive slots. -/
inductive SlotId where
  | slot0
  | slot1
  deriving DecidableEq

/-- The registers of a slot that sys_clk drives: its state, the level that carries `rx_ready` to the
receiver, the registers that sample `rx_done`, and the synchronised count. -/
structure SysSlot where
  slotState : BitVec 2
  slotsLoadedR : Bool
  readyLevel : Bool
  doneSync : Sampler
  rxCountR : BitVec 11
  rxCount : BitVec 11

/-- The registers of a slot that phy_rx_clk drives, with its buffer. -/
structure PhySlot where
  readySync : Sampler
  available : Bool
  used : Bool
  rxCount : BitVec 11
  doneLevel : Bool
  buffer : BitVec 11 → Byte

/-- The states of `minimac2_rx`. -/
inductive RxState where
  | idle
  | loadLo
  | loadHi
  | terminate
  deriving DecidableEq

/-- The outputs of the state machine of `minimac2_rx`. -/
structure RxCtl where
  usedSlotUpdate : Bool
  rxDoneCtl : Bool
  rxCountResetCtl : Bool
  rxCountIncCtl : Bool
  rxbWeCtl : Bool
  loadLo : Bool
  loadHi : Bool
  nextState : RxState

/-- The state machine of `minimac2_rx`. -/
def rxCtl (state : RxState) (phyDv : Bool) : RxCtl :=
  match state with
  | .idle =>
      if phyDv then ⟨false, false, true, false, false, true, false, .loadHi⟩
      else ⟨true, false, false, false, false, false, false, .idle⟩
  | .loadLo =>
      if phyDv then ⟨false, false, false, true, true, true, false, .loadHi⟩
      else ⟨false, true, false, true, true, false, false, .terminate⟩
  | .loadHi =>
      if phyDv then ⟨false, false, false, false, false, false, true, .loadLo⟩
      else ⟨false, true, false, false, false, false, false, .terminate⟩
  | .terminate => ⟨true, false, false, false, false, false, false, .idle⟩

namespace SysSlot

/-- The slot's bit of `slots_loaded`. -/
def slotsLoaded (s : SysSlot) : Bool := s.slotState.getLsbD 0

/-- The slot's bit of `rx_ready`. -/
def rxReady (s : SysSlot) : Bool := s.slotsLoaded && !s.slotsLoadedR

/-- The slot's bit of the synchronised `rx_done`. -/
def rxDone (s : SysSlot) : Bool := s.doneSync.out

/-- An edge of sys_clk, with the level and the count the receiver shows. -/
def next (s : SysSlot) (doneLevel : Bool) (phyRxCount : BitVec 11) (sysRst load : Bool) :
    SysSlot where
  slotState :=
    if sysRst then 0 else if s.rxDone then PENDING else if load then LOADED else s.slotState
  slotsLoadedR := s.slotsLoaded
  readyLevel := s.readyLevel ^^ s.rxReady
  doneSync := s.doneSync.next doneLevel
  rxCountR := phyRxCount
  rxCount := s.rxCountR

end SysSlot

namespace PhySlot

/-- The slot's bit of `rx_done`. -/
def rxDone (p : PhySlot) (ctl : RxCtl) : Bool := ctl.rxDoneCtl && p.used

/-- An edge of phy_rx_clk, with the level the control interface shows; `free` is what `used_slot`
becomes between frames, and `dat` the byte `{hi, lo}`. -/
def next (p : PhySlot) (readyLevel : Bool) (ctl : RxCtl) (free : Bool) (dat : Byte) : PhySlot where
  readySync := p.readySync.next readyLevel
  available := (p.available || p.readySync.out) && !p.rxDone ctl
  used := if ctl.usedSlotUpdate then free else p.used
  rxCount :=
    if ctl.rxCountResetCtl && p.used then 0
    else if ctl.rxCountIncCtl && p.used then p.rxCount + 1
    else p.rxCount
  doneLevel := p.doneLevel ^^ p.rxDone ctl
  buffer := if ctl.rxbWeCtl && p.used then Function.update p.buffer p.rxCount dat else p.buffer

end PhySlot

/-- The registers of `minimac2_rx`. -/
structure Rx where
  slot : SlotId → PhySlot
  lo : Nibble
  hi : Nibble
  state : RxState

/-- The input of the control interface at an edge of sys_clk. -/
structure SysEdge where
  sysRst : Bool
  load : Option (SlotId)

/-- The input of the receiver at an edge of phy_rx_clk. -/
structure PhyEdge where
  phyDv : Bool
  phyRxData : Nibble

/-- The clocks that have an edge. -/
structure Edge where
  sys : Option SysEdge
  phy : Option PhyEdge

namespace Rx

/-- What `used_slot` becomes between frames: the first slot that is available. -/
def free (rx : Rx) : SlotId → Bool
  | .slot0 => (rx.slot .slot0).available
  | .slot1 => (rx.slot .slot1).available && !(rx.slot .slot0).available

/-- An edge of phy_rx_clk. -/
def next (rx : Rx) (readyLevel : SlotId → Bool) (e : PhyEdge) : Rx :=
  let ctl := rxCtl rx.state e.phyDv
  { slot := fun i => (rx.slot i).next (readyLevel i) ctl (rx.free i) (rx.hi ++ rx.lo)
    lo := if ctl.loadLo then e.phyRxData else rx.lo
    hi := if ctl.loadHi then e.phyRxData else rx.hi
    state := ctl.nextState }

end Rx

/-- What the wire has carried: at least two idle cycles, one idle cycle after a frame, or the
nibbles of the frame so far. -/
inductive Wire where
  | quiet
  | gap
  | frame (nibbles : List Nibble)

/-- The wire after a cycle. -/
def Wire.next (w : Wire) (e : PhyEdge) : Wire :=
  match w with
  | .quiet | .gap => if e.phyDv then .frame [e.phyRxData] else .quiet
  | .frame nibbles => if e.phyDv then .frame (nibbles ++ [e.phyRxData]) else .gap

/-- Frames are shorter than 2048 bytes and separated by at least two idle cycles. -/
def Wire.MayCarry : Wire → Prop
  | .quiet => True
  | .gap => False
  | .frame nibbles => nibbles.length + 1 < 2 * 2048

instance : ∀ w : Wire, Decidable w.MayCarry
  | .quiet => isTrue trivial
  | .gap => isFalse id
  | .frame _ => inferInstanceAs (Decidable (_ < _))

/-- The complete bytes of a frame, low nibble first. -/
def bytes : List Nibble → List Byte
  | lo :: hi :: rest => (hi ++ lo) :: bytes rest
  | _ => []

/-- A frame that a slot has received: its nibbles, the edges of sys_clk since it ended, and how
often the slot has become PENDING for it. -/
structure Reception where
  nibbles : List Nibble
  age : Nat
  pended : Nat

/-- Another edge of sys_clk, at which the slot may become PENDING. -/
def Reception.later (r : Reception) (becomesPending : Bool) : Reception :=
  { r with age := r.age + 1, pended := r.pended + becomesPending.toNat }

/-- Becoming PENDING counts for the frame received last. -/
def later (becomesPending : Bool) : List Reception → List Reception
  | [] => []
  | r :: rest => r.later becomesPending :: rest.map (·.later false)

/-- The MAC. The last four fields observe it: the wire, the slot that was available in the last idle
cycle, the frames each slot has received, the last one first, and whether the software has
written to a slot. -/
structure Mac where
  sys : SlotId → SysSlot
  rx : Rx
  wire : Wire
  chosen : Option (SlotId)
  received : SlotId → List Reception
  written : Bool

namespace Mac

variable (s : Mac) (e : Edge)

/-- The slot that is available, the first one if both are. -/
def firstAvailable : Option (SlotId) :=
  if (s.rx.slot .slot0).available then some .slot0
  else if (s.rx.slot .slot1).available then some .slot1
  else none

/-- The slots of the control interface after an edge. -/
def nextSys (i : SlotId) : SysSlot :=
  match e.sys with
  | none => s.sys i
  | some x =>
      (s.sys i).next (s.rx.slot i).doneLevel (s.rx.slot i).rxCount x.sysRst
        (decide (x.load = some i))

/-- The receiver after an edge. -/
def nextRx : Rx :=
  match e.phy with
  | none => s.rx
  | some x => s.rx.next (fun i => (s.sys i).readyLevel) x

/-- A slot becomes PENDING. -/
def becomesPending (i : SlotId) : Bool :=
  (s.sys i).slotState ≠ PENDING ∧ (s.nextSys e i).slotState = PENDING

/-- The frames a slot has received, after the edge of sys_clk. -/
def agedReceived (i : SlotId) : List Reception :=
  match e.sys with
  | none => s.received i
  | some _ => later (s.becomesPending e i) (s.received i)

/-- The frames a slot has received; one ends in the slot chosen for it. -/
def nextReceived (i : SlotId) : List Reception :=
  match s.wire, e.phy with
  | .frame nibbles, some x =>
      if !x.phyDv && s.chosen = some i then ⟨nibbles, 0, 0⟩ :: s.agedReceived e i
      else s.agedReceived e i
  | _, _ => s.agedReceived e i

/-- The MAC after an edge. -/
def next : Mac where
  sys := s.nextSys e
  rx := s.nextRx e
  wire := match e.phy with
    | none => s.wire
    | some x => s.wire.next x
  chosen := match e.phy with
    | none => s.chosen
    | some x => if x.phyDv then s.chosen else s.firstAvailable
  received := s.nextReceived e
  written := match e.sys with
    | none => s.written
    | some x => s.written || (!x.sysRst && x.load.isSome)

/-- The reset comes before the software's first write. -/
def SysRule (x : SysEdge) : Prop := x.sysRst = true → s.written = false

/-- A nibble only comes when the wire may carry one. -/
def PhyRule (x : PhyEdge) : Prop := x.phyDv = true → s.wire.MayCarry

/-- What the software and the PHY may do. -/
def Allowed : Prop := (∀ x ∈ e.sys, s.SysRule x) ∧ ∀ x ∈ e.phy, s.PhyRule x

/-- Power-up. -/
def Initial : Prop :=
  (∀ i, (s.sys i).slotState = 0 ∧ (s.sys i).slotsLoadedR = false ∧
    (s.sys i).readyLevel = false ∧ (s.sys i).doneSync = ⟨false, false, false⟩) ∧
  (∀ i, (s.rx.slot i).readySync = ⟨false, false, false⟩ ∧ (s.rx.slot i).available = false ∧
    (s.rx.slot i).used = false ∧ (s.rx.slot i).doneLevel = false) ∧
  s.rx.state = .idle ∧ s.wire = .quiet ∧ s.chosen = none ∧ (∀ i, s.received i = []) ∧
  s.written = false

end Mac

/-- The MAC with its software and its PHY. -/
def mac : Machine Mac Edge where
  Initial := Mac.Initial
  Allowed := Mac.Allowed
  next := Mac.next

instance (s : Mac) (x : SysEdge) : Decidable (s.SysRule x) := inferInstanceAs (Decidable (_ → _))

instance (s : Mac) (x : PhyEdge) : Decidable (s.PhyRule x) := inferInstanceAs (Decidable (_ → _))

instance (s : Mac) (e : Edge) : Decidable (mac.Allowed s e) :=
  inferInstanceAs (Decidable ((∀ x ∈ e.sys, s.SysRule x) ∧ ∀ x ∈ e.phy, s.PhyRule x))

end Soc.Minimac2
