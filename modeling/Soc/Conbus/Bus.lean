import Soc.Csr
import Soc.Library.Handshake
import Soc.Library.Machine

/-!
# The system bus

`conbus5x6` with its arbiter `conbus_arb5`, and the two slaves of the board that are front-ends
of other modules: `minimac2_memory` at port 3 and `csrbrg` at port 5. The masters and the
other ports are the environment. A master holds its request until it sees ack and drops cyc
in the next cycle; a port raises ack for one cycle at a time, after a cycle in which it saw
cyc and stb.
-/

namespace Soc.Conbus

open Library (Machine nextJob)

/-- What a master drives. -/
structure Request where
  adr : Word
  cti : BitVec 3
  sel : BitVec 4
  dat : Word
  we : Bool
  cyc : Bool
  stb : Bool

/-- The order in which the arbiter looks for the next master. -/
def others : Fin 5 → List (Fin 5)
  | 0 => [1, 2, 3, 4]
  | 1 => [2, 3, 4, 0]
  | 2 => [3, 4, 0, 1]
  | 3 => [4, 0, 1, 2]
  | 4 => [0, 1, 2, 3]

/-- `next_state` of `conbus_arb5`. -/
def nextGnt (req : Fin 5 → Bool) (gnt : Fin 5) : Fin 5 :=
  if req gnt then gnt else ((others gnt).find? req).getD gnt

/-- `slave_sel`, for the addresses s0_addr to s5_addr of the board. -/
def slaveSel (adr : Word) : Fin 6 → Bool
  | 0 => adr.extractLsb' 28 3 = 0b000
  | 1 => adr.extractLsb' 28 3 = 0b001
  | 2 => adr.extractLsb' 28 3 = 0b010
  | 3 => adr.extractLsb' 28 3 = 0b011
  | 4 => adr.extractLsb' 29 2 = 0b10
  | 5 => adr.extractLsb' 29 2 = 0b11

/-- The slave an address belongs to. -/
def select (adr : Word) : Fin 6 :=
  if adr.extractLsb' 29 2 = 0b11 then 5
  else if adr.extractLsb' 29 2 = 0b10 then 4
  else if adr.extractLsb' 28 3 = 0b011 then 3
  else if adr.extractLsb' 28 3 = 0b010 then 2
  else if adr.extractLsb' 28 3 = 0b001 then 1
  else 0

/-- The two upper bits of the three that select a slave. -/
theorem extract_upper (adr : Word) :
    adr.extractLsb' 29 2 = (adr.extractLsb' 28 3).extractLsb' 1 2 := by
  apply BitVec.eq_of_getLsbD_eq
  intro i hi
  have hupper : 1 + i < 3 := by omega
  simp only [BitVec.getLsbD_extractLsb', hi, hupper, decide_true, Bool.true_and]
  congr 1
  omega

/-- An address selects one slave. -/
theorem slaveSel_eq (adr : Word) (k : Fin 6) : slaveSel adr k = decide (k = select adr) := by
  have hall : ∀ (top : BitVec 3) (k : Fin 6),
      (match k with
        | 0 => decide (top = 0b000)
        | 1 => decide (top = 0b001)
        | 2 => decide (top = 0b010)
        | 3 => decide (top = 0b011)
        | 4 => decide (top.extractLsb' 1 2 = 0b10)
        | 5 => decide (top.extractLsb' 1 2 = 0b11) : Bool) =
      decide (k = if top.extractLsb' 1 2 = 0b11 then 5 else if top.extractLsb' 1 2 = 0b10 then 4
        else if top = 0b011 then 3 else if top = 0b010 then 2 else if top = 0b001 then 1
        else 0) := by
    decide
  unfold slaveSel select
  rw [extract_upper]
  exact hall _ k

/-- A word behind an enable. -/
def gate (enable : Bool) (dat : Word) : Word := if enable then dat else 0

/-- `i_dat_s`. -/
def iDatS (slaveSelR : Fin 6 → Bool) (dat : Fin 6 → Word) : Word :=
  gate (slaveSelR 0) (dat 0) ||| gate (slaveSelR 1) (dat 1) ||| gate (slaveSelR 2) (dat 2) |||
    gate (slaveSelR 3) (dat 3) ||| gate (slaveSelR 4) (dat 4) ||| gate (slaveSelR 5) (dat 5)

/-- The states of `csrbrg`. -/
inductive CsrbrgState where
  | idle
  | delayack1
  | delayack2
  | ack
  deriving DecidableEq

/-- The registers of `csrbrg`. -/
structure Csrbrg where
  state : CsrbrgState
  wbDatO : Word
  csrA : BitVec 14
  csrWe : Bool
  csrDo : Word

namespace Csrbrg

/-- `wb_ack_o`. -/
def wbAckO (c : Csrbrg) : Bool := c.state = .ack

/-- `next_csr_we`. -/
def nextCsrWe (c : Csrbrg) (wb : Request) : Bool :=
  match c.state with
  | .idle => if wb.cyc && wb.stb then wb.we else false
  | _ => false

/-- `next_state`. -/
def nextState (c : Csrbrg) (wb : Request) : CsrbrgState :=
  match c.state with
  | .idle => if wb.cyc && wb.stb then if wb.we then .ack else .delayack1 else .idle
  | .delayack1 => .delayack2
  | .delayack2 => .ack
  | .ack => .idle

/-- The registers after a clock edge. -/
def next (c : Csrbrg) (wb : Request) (csrDi : Word) : Csrbrg where
  state := c.nextState wb
  wbDatO := csrDi
  csrA := wb.adr.extractLsb' 2 14
  csrWe := c.nextCsrWe wb
  csrDo := wb.dat

/-- The registers after a clock edge with reset, which only `state` has. -/
def reset (c : Csrbrg) (wb : Request) (csrDi : Word) : Csrbrg :=
  { c.next wb csrDi with state := .idle }

end Csrbrg

/-- The outputs of the three memories behind `minimac2_memory`. -/
structure Memories where
  rxb0 : Word
  rxb1 : Word
  txb : Word

/-- The registers of `minimac2_memory`. -/
structure Minimac2Memory where
  wbAckO : Bool
  wbBufR : BitVec 2

namespace Minimac2Memory

/-- `wb_dat_o`, the bytes of the memory last addressed in the order of the bus. -/
def wbDatO (c : Minimac2Memory) (memories : Memories) : Word :=
  let le := if c.wbBufR = 0b00 then memories.rxb0 else if c.wbBufR = 0b01 then memories.rxb1
    else memories.txb
  le.extractLsb' 0 8 ++ le.extractLsb' 8 8 ++ le.extractLsb' 16 8 ++ le.extractLsb' 24 8

/-- The registers after a clock edge. -/
def next (c : Minimac2Memory) (wb : Request) : Minimac2Memory where
  wbAckO := wb.cyc && wb.stb && !c.wbAckO
  wbBufR := wb.adr.extractLsb' 11 2

end Minimac2Memory

/-- What the environment drives in a cycle: the masters, the ports without a module (`portAck` and
`portDat` of ports 3 and 5 go nowhere), the CSR bus and the memories of the MAC. -/
structure Cycle where
  master : Fin 5 → Request
  portAck : Fin 6 → Bool
  portDat : Fin 6 → Word
  csrDi : Word
  memories : Memories

/-- The registers of the bus and its two modules, and what the environment did in the cycle before:
the masters' requests and whether they saw ack, and what the ports saw and answered.

The last three fields are bookkeeping that no circuit reads. `number` counts the requests of a
master, `acks` the acks its current one has received, and `job` is the request a port has taken
up: the master and the number of its request. -/
structure Bus where
  gnt : Fin 5
  slaveSelR : Fin 6 → Bool
  memory : Minimac2Memory
  csrbrg : Csrbrg
  last : Fin 5 → Request
  acked : Fin 5 → Bool
  portSaw : Fin 6 → Bool
  portAcked : Fin 6 → Bool
  number : Fin 5 → Nat
  acks : Fin 5 → Nat
  job : Fin 6 → Option (Fin 5 × Nat)

namespace Bus

variable (s : Bus) (c : Cycle)

/-- `i_bus_m`. -/
def iBusM : Request := c.master s.gnt

/-- What a slave sees. -/
def slaveIn (k : Fin 6) : Request :=
  let bus := s.iBusM c
  { bus with cyc := bus.cyc && slaveSel bus.adr k }

/-- The ack of a slave. -/
def slaveAck : Fin 6 → Bool
  | 3 => s.memory.wbAckO
  | 5 => s.csrbrg.wbAckO
  | k => c.portAck k

/-- The data output of a slave. -/
def slaveDat : Fin 6 → Word
  | 3 => s.memory.wbDatO c.memories
  | 5 => s.csrbrg.wbDatO
  | k => c.portDat k

/-- `i_bus_ack`. -/
def iBusAck : Bool :=
  s.slaveAck c 0 || s.slaveAck c 1 || s.slaveAck c 2 || s.slaveAck c 3 || s.slaveAck c 4 ||
    s.slaveAck c 5

/-- The ack of a master. -/
def ackO (m : Fin 5) : Bool := s.iBusAck c && s.gnt = m

/-- The read data of the masters. -/
def datO : Word := iDatS s.slaveSelR (s.slaveDat c)

/-- A request starts. -/
def starts (m : Fin 5) : Bool := (c.master m).cyc && !(s.last m).cyc

/-- The number of the request a master has in this cycle. -/
def current (m : Fin 5) : Nat := if s.starts c m then s.number m + 1 else s.number m

/-- The request a slave sees. -/
def slaveRequest (k : Fin 6) : Option (Fin 5 × Nat) :=
  if (s.slaveIn c k).cyc && (s.slaveIn c k).stb then some (s.gnt, s.current c s.gnt) else none

/-- The bus after a clock edge. -/
def next : Bus where
  gnt := nextGnt (fun m => (c.master m).cyc) s.gnt
  slaveSelR := slaveSel (s.iBusM c).adr
  memory := s.memory.next (s.slaveIn c 3)
  csrbrg := s.csrbrg.next (s.slaveIn c 5) c.csrDi
  last := c.master
  acked := s.ackO c
  portSaw k := (s.slaveIn c k).cyc && (s.slaveIn c k).stb
  portAcked := s.slaveAck c
  number := s.current c
  acks m := (if s.starts c m then 0 else s.acks m) + (s.ackO c m).toNat
  job k := nextJob (s.job k) (s.slaveRequest c k) (s.slaveAck c k)

/-- A master keeps a request from one cycle to the next. -/
def Held (r r' : Request) : Prop :=
  r'.cyc = r.cyc ∧ r'.stb = r.stb ∧ r'.adr = r.adr ∧ r'.we = r.we ∧ r'.sel = r.sel ∧ r'.dat = r.dat

/-- A master holds its request until it sees ack, and then drops cyc. -/
def MasterRule (m : Fin 5) : Prop :=
  (s.last m).cyc →
    if s.acked m then (c.master m).cyc = false else Held (s.last m) (c.master m)

/-- A port raises ack for one cycle, and only after a cycle with cyc and stb. -/
def PortRule (k : Fin 6) : Prop := c.portAck k → s.portSaw k ∧ ¬ s.portAcked k

/-- What the environment may do. -/
def Allowed : Prop := (∀ m, s.MasterRule c m) ∧ ∀ k, k ≠ 3 → k ≠ 5 → s.PortRule c k

/-- The bus after reset, before any request. -/
def Initial : Prop :=
  s.gnt = 0 ∧ s.memory.wbAckO = false ∧ s.csrbrg.state = .idle ∧
    (∀ m, (s.last m).cyc = false ∧ s.acked m = false ∧ s.acks m = 0) ∧
    ∀ k, s.portSaw k = false ∧ s.portAcked k = false ∧ s.job k = none

end Bus

/-- The bus with its masters and slaves. -/
def bus : Machine Bus Cycle where
  Initial := Bus.Initial
  Allowed := Bus.Allowed
  next := Bus.next

/-- The instruction bus of the processor is master 0 of the board. -/
@[reducible] def ibus : Fin 5 := 0

/-- The data bus of the processor is master 1. -/
@[reducible] def dbus : Fin 5 := 1

/-- `ram_blk` is slave 0. -/
@[reducible] def ramBlk : Fin 6 := 0

/-- `monitor_blk` is slave 1. -/
@[reducible] def monitorBlk : Fin 6 := 1

/-- Nothing is connected at ports 2 and 4. -/
@[reducible] def Connected (k : Fin 6) : Prop := k ≠ 2 ∧ k ≠ 4

instance (r r' : Request) : Decidable (Bus.Held r r') := inferInstanceAs (Decidable (_ ∧ _))

instance (s : Bus) (c : Cycle) (m : Fin 5) : Decidable (s.MasterRule c m) :=
  inferInstanceAs (Decidable (_ → if s.acked m then _ else _))

instance (s : Bus) (c : Cycle) (k : Fin 6) : Decidable (s.PortRule c k) :=
  inferInstanceAs (Decidable (_ → _ ∧ _))

instance (s : Bus) (c : Cycle) : Decidable (bus.Allowed s c) :=
  inferInstanceAs (Decidable ((∀ m, s.MasterRule c m) ∧ ∀ k, k ≠ 3 → k ≠ 5 → s.PortRule c k))

/-- A master that asks for nothing. -/
def quiet : Request := ⟨0, 0, 0, 0, false, false, false⟩

/-- The bus after reset. -/
def afterReset : Bus where
  gnt := 0
  slaveSelR _ := false
  memory := ⟨false, 0⟩
  csrbrg := ⟨.idle, 0, 0, false, 0⟩
  last _ := quiet
  acked _ := false
  portSaw _ := false
  portAcked _ := false
  number _ := 0
  acks _ := 0
  job _ := none

end Soc.Conbus
