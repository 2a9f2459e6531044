import Soc.Conbus.Bus
import Soc.Library.DualPortRam
import Soc.Library.Execution

/-!
# The on-chip RAM

`wb_ebr_ctrl` with its `memory`, a RAM with one port to write and one to read. A partial write reads
the word first and writes it back with the selected bytes replaced. The controller also knows
bursts, which no master of this system asks for: the accesses are classic ones, and a master holds
its request until it sees ack and drops cyc after that. While no request is presented, the bus may
carry anything.

The RAM has words of 32 bits and `w` address bits.
-/

namespace Soc.Ebr

open Conbus (Request)
open Library (Machine Port Ram Undefined merge)

/-- The states of `wb_ebr_ctrl`. -/
inductive State where
  | idle
  | burst
  | ending
  | subrd
  | sub
  | subwr
  deriving DecidableEq

/-- The registers of `wb_ebr_ctrl` and its RAM. -/
structure Ctrl (w : Nat) where
  ebrAckO : Bool
  ebrDatID : Word
  ebrSelID : BitVec 4
  state : State
  pmiAddress : BitVec (w + 2)
  writeDataD : Word
  rawHazard : Bool
  ram : Ram w

/-- The cycle type of a classic access. -/
def classic (cti : BitVec 3) : Bool := cti == 0b000 || cti == 0b111

namespace Ctrl

variable {w : Nat} (s : Ctrl w) (wb : Request)

/-- `data`, which is also `EBR_DAT_O`. -/
def data : Word := s.ram.qB

/-- `state_nxt`. -/
def stateNxt : State :=
  match s.state with
  | .idle =>
      if wb.stb && wb.cyc && s.ebrAckO == false then
        if classic wb.cti then .ending
        else if wb.we && wb.sel != 0b1111 then .subrd
        else .burst
      else s.state
  | .burst => if wb.cti == 0b111 then .idle else s.state
  | .subrd => .sub
  | .sub => if wb.cti == 0b111 then .subwr else s.state
  | .ending => .idle
  | .subwr => .idle

/-- `read_address`. -/
def readAddress : BitVec w :=
  if s.state = .idle ∨ s.state = .sub then wb.adr.extractLsb' 2 w
  else s.pmiAddress.extractLsb' 2 w

/-- `write_address`. -/
def writeAddress : BitVec w :=
  if s.state = .sub ∨ s.state = .subwr then s.pmiAddress.extractLsb' 2 w
  else wb.adr.extractLsb' 2 w

/-- `raw_hazard_nxt`. -/
def rawHazardNxt : Bool := s.state = .sub ∧ s.readAddress wb = s.writeAddress wb

/-- `read_enable`. -/
def readEnable : Bool :=
  wb.we == false ||
    (wb.we &&
      ((s.state = .idle && (classic wb.cti || wb.sel != 0b1111)) || s.state = .subrd ||
        (s.state = .sub && s.rawHazardNxt wb == false)))

/-- `write_enable`. -/
def writeEnable : Bool :=
  (wb.we &&
    ((s.state = .idle && wb.cyc && wb.stb && !classic wb.cti && wb.sel == 0b1111) ||
      s.state = .ending || s.state = .burst)) ||
    (s.state = .sub || s.state = .subwr)

/-- `read_data`. -/
def readData : Word := if s.rawHazard then s.writeDataD else s.data

/-- `delayed_write`. -/
def delayedWrite : Bool := s.state = .subrd || s.state = .sub || s.state = .subwr

/-- `write_data`. -/
def writeData : Word :=
  if s.delayedWrite then merge s.ebrSelID s.ebrDatID s.readData else merge wb.sel wb.dat s.data

/-- The address behind the bytes that are selected. -/
def increment (address : BitVec (w + 2)) (sel : BitVec 4) : BitVec (w + 2) :=
  if sel = 0b1000 ∨ sel = 0b0100 ∨ sel = 0b0010 ∨ sel = 0b0001 then address + 1
  else if sel = 0b1100 ∨ sel = 0b0011 then (address.extractLsb' 1 (w + 1) + 1) ++ 0#1
  else (address.extractLsb' 2 w + 1) ++ 0#2

/-- `pmi_address_nxt`. -/
def pmiAddressNxt : BitVec (w + 2) :=
  if wb.we then wb.adr.extractLsb' 0 (w + 2)
  else if s.state = .idle then increment (wb.adr.extractLsb' 0 (w + 2)) wb.sel
  else increment s.pmiAddress wb.sel

/-- `EBR_ACK_O_nxt`. -/
def ebrAckONxt : Bool :=
  (s.state = .idle && wb.cyc && wb.stb && s.ebrAckO == false) || s.state = .burst ||
    s.state = .subrd || s.state = .sub

/-- The port of `memory` that writes. -/
def writePort : Port w where
  address := s.writeAddress wb
  rden := true
  wren := s.writeEnable wb
  byteena := 0b1111
  data := s.writeData wb

/-- The port of `memory` that reads. -/
def readPort : Port w where
  address := s.readAddress wb
  rden := s.readEnable wb
  wren := false
  byteena := 0b1111
  data := .allOnes 32

/-- The registers after a clock edge. -/
def next (u : Undefined) : Ctrl w where
  ebrAckO := s.ebrAckONxt wb
  ebrDatID := wb.dat
  ebrSelID := wb.sel
  state := s.stateNxt wb
  pmiAddress := s.pmiAddressNxt wb
  writeDataD := s.writeData wb
  rawHazard := s.rawHazardNxt wb
  ram := s.ram.clock (some (s.writePort wb)) (some (s.readPort wb)) u

/-- What the reset leaves. -/
def AfterReset : Prop :=
  s.ebrAckO = false ∧ s.ebrDatID = 0 ∧ s.ebrSelID = 0 ∧ s.state = .idle ∧ s.pmiAddress = 0 ∧
    s.writeDataD = 0 ∧ s.rawHazard = false

end Ctrl

/-- What the environment drives in a cycle: the bus, and what the RAM leaves undefined. -/
structure Cycle where
  wb : Request
  undefined : Undefined

/-- A request is presented to the RAM. -/
def presents (wb : Request) : Bool := wb.cyc && wb.stb

/-- The RAM with its bus. The last two fields are bookkeeping: what was presented in the cycle
before, and whether it was acknowledged then. -/
structure Slave (w : Nat) where
  ctrl : Ctrl w
  last : Request
  acked : Bool

namespace Slave

variable {w : Nat} (s : Slave w) (c : Cycle)

/-- The request of the cycle before still waits for its ack. -/
def waits : Bool := presents s.last && !s.acked

/-- An access starts. -/
def starts : Bool := presents c.wb && !s.waits

/-- The accesses are classic ones. A request is held until it is acknowledged, and cyc is dropped
after that. -/
def Allowed : Prop :=
  (presents c.wb = true → classic c.wb.cti = true) ∧
    (presents s.last = true →
      if s.acked then c.wb.cyc = false else Conbus.Bus.Held s.last c.wb)

/-- The RAM after a clock edge. -/
def next : Slave w where
  ctrl := s.ctrl.next c.wb c.undefined
  last := c.wb
  acked := s.ctrl.ebrAckO

/-- The word that an address belongs to: the address counts modulo the size of the RAM. -/
def word (w : Nat) (adr : Word) : BitVec w := (adr.extractLsb' 0 (w + 2)).extractLsb' 2 w

end Slave

/-- The RAM after reset, with any contents. -/
def slave (w : Nat) : Machine (Slave w) Cycle where
  Initial s := s.ctrl.AfterReset ∧ presents s.last = false
  Allowed := Slave.Allowed
  next := Slave.next

instance {w : Nat} (s : Slave w) (c : Cycle) : Decidable ((slave w).Allowed s c) :=
  inferInstanceAs (Decidable ((_ → _) ∧ (_ → if s.acked then _ else _)))

end Soc.Ebr
