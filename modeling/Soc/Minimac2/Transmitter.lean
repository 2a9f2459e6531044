import Mathlib.Logic.Function.Basic
import Soc.Library.Execution
import Soc.Library.ToggleSync
import Soc.Minimac2.Ctlif
import Soc.Minimac2.Receiver

/-!
# The transmit path of the Ethernet MAC

`minimac2_ctlif`, the transmit half of `minimac2_sync` with its two `minimac2_psync`, and
`minimac2_tx`, with the buffer `minimac2_tx` reads: the byte at `txb_adr` comes out one edge of
phy_tx_clk later. At every instant each of sys_clk and phy_tx_clk may have an edge; a register
that crosses the clocks is then sampled with its old value.

The software writes the buffer and TXCOUNT at edges of sys_clk, and knows whether a transmission is
outstanding: it is from the write of TXCOUNT to the edge that sees `irq_tx`.
-/

namespace Soc.Minimac2

open Library (Machine Sampler)

/-- The states of `minimac2_tx`. -/
inductive TxState where
  | idle
  | sendLo
  | sendHi
  | terminate
  deriving DecidableEq

/-- The outputs of the state machine of `minimac2_tx`. -/
structure TxCtl where
  phyTxEnR : Bool
  phyTxDataSel : Bool
  byteCountReset : Bool
  byteCountInc : Bool
  txDone : Bool
  nextState : TxState

/-- The state machine of `minimac2_tx`. -/
def txCtl (state : TxState) (txStart byteCountMax : Bool) : TxCtl :=
  match state with
  | .idle => ⟨false, false, true, false, false, if txStart then .sendLo else .idle⟩
  | .sendLo => ⟨true, false, false, true, false, .sendHi⟩
  | .sendHi => ⟨true, true, false, false, false, if byteCountMax then .terminate else .sendLo⟩
  | .terminate => ⟨false, false, true, false, true, .idle⟩

/-- The registers of `minimac2_tx`. -/
structure Tx where
  phyTxEn : Bool
  phyTxData : Nibble
  byteCount : BitVec 11
  state : TxState

namespace Tx

/-- The outputs of the state machine, for the inputs of `minimac2_tx`. -/
def ctl (tx : Tx) (txStart : Bool) (txCount : BitVec 11) : TxCtl :=
  txCtl tx.state txStart (tx.byteCount == txCount)

/-- An edge of phy_tx_clk. -/
def next (tx : Tx) (txStart : Bool) (txCount : BitVec 11) (txbDat : Byte) : Tx :=
  let ctl := tx.ctl txStart txCount
  { phyTxEn := ctl.phyTxEnR
    phyTxData := if ctl.phyTxDataSel then txbDat.extractLsb' 4 4 else txbDat.extractLsb' 0 4
    byteCount :=
      if ctl.byteCountReset then 0
      else if ctl.byteCountInc then tx.byteCount + 1
      else tx.byteCount
    state := ctl.nextState }

/-- What the PHY sees in a cycle of phy_tx_clk. -/
def wire (tx : Tx) : Option Nibble := if tx.phyTxEn then some tx.phyTxData else none

end Tx

/-- What happens at an edge of sys_clk: the CSR bus, the rest of the MAC (its `txDone` is not used),
and the bytes the software stores in the transmit buffer. -/
structure TxSysEdge where
  sysRst : Bool
  bus : CsrBus
  mac : CtlifIn
  stores : List (BitVec 11 × Byte)

/-- The clocks that have an edge. -/
structure TxEdge where
  sys : Option TxSysEdge
  phy : Bool

/-- The value that is written to TXCOUNT at an edge of sys_clk. -/
def TxSysEdge.request (csrAddr : BitVec 4) (x : TxSysEdge) : Option (BitVec 11) :=
  if !x.sysRst && x.bus.writes csrAddr 6 then some (x.bus.di.setWidth 11) else none

/-- The value that is written to TXCOUNT. -/
def TxEdge.request (csrAddr : BitVec 4) (e : TxEdge) : Option (BitVec 11) :=
  e.sys.bind (·.request csrAddr)

/-- The transmit path. `startLevel` and `doneSync` are driven by sys_clk, `startSync`, `doneLevel`
and the two copies of the count by phy_tx_clk. `outstanding` is what the software knows. -/
structure TxPath where
  ctlif : Ctlif
  startLevel : Bool
  startSync : Sampler
  phyTxCountR : BitVec 11
  phyTxCount : BitVec 11
  tx : Tx
  txbDat : Byte
  txb : BitVec 11 → Byte
  doneLevel : Bool
  doneSync : Sampler
  outstanding : Bool

namespace TxPath

variable (csrAddr : BitVec 4) (s : TxPath) (e : TxEdge)

/-- What the control interface sees at an edge of sys_clk. -/
def ctlifIn (x : TxSysEdge) : CtlifIn := { x.mac with txDone := s.doneSync.out }

/-- The outputs of the state machine of the transmitter. -/
def ctl : TxCtl := s.tx.ctl s.startSync.out s.phyTxCount

/-- The control interface after an edge. -/
def nextCtlif : Ctlif :=
  match e.sys with
  | none => s.ctlif
  | some x =>
      if x.sysRst then s.ctlif.reset (s.ctlifIn x)
      else s.ctlif.clock (s.ctlifIn x) csrAddr x.bus

/-- The buffer after an edge. -/
def nextTxb : BitVec 11 → Byte :=
  match e.sys with
  | none => s.txb
  | some x => x.stores.foldl (fun txb store => Function.update txb store.1 store.2) s.txb

/-- An edge of sys_clk that sees `irq_tx`. -/
def irqTx : Bool := e.sys.any fun x => Ctlif.irqTx (s.ctlifIn x)

/-- The transmit path after an edge. -/
def next : TxPath where
  ctlif := s.nextCtlif csrAddr e
  startLevel := s.startLevel ^^ (e.sys.isSome && s.ctlif.txStart)
  startSync := if e.phy then s.startSync.next s.startLevel else s.startSync
  phyTxCountR := if e.phy then s.ctlif.txCount else s.phyTxCountR
  phyTxCount := if e.phy then s.phyTxCountR else s.phyTxCount
  tx := if e.phy then s.tx.next s.startSync.out s.phyTxCount s.txbDat else s.tx
  txbDat := if e.phy then s.txb s.tx.byteCount else s.txbDat
  txb := s.nextTxb e
  doneLevel := s.doneLevel ^^ (e.phy && s.ctl.txDone)
  doneSync := if e.sys.isSome then s.doneSync.next s.doneLevel else s.doneSync
  outstanding := (e.request csrAddr).isSome || (s.outstanding && !s.irqTx e)

/-- The software writes TXCOUNT only while no transmission is outstanding, and writes a count that
is not 0. While one is outstanding it keeps the buffer until `irq_tx`, and there is no reset. -/
structure SysRule (x : TxSysEdge) : Prop where
  request : ∀ n ∈ x.request csrAddr, n ≠ 0 ∧ s.outstanding = false
  stores : s.outstanding = true → Ctlif.irqTx (s.ctlifIn x) = false → x.stores = []
  reset : x.sysRst = true → s.outstanding = false

/-- What the software may do. -/
def Allowed : Prop := ∀ x ∈ e.sys, s.SysRule csrAddr x

/-- Power-up. -/
def Initial : Prop :=
  s.ctlif.txCount = 0 ∧ s.startLevel = false ∧ s.startSync = ⟨false, false, false⟩ ∧
    s.tx.state = .idle ∧ s.tx.phyTxEn = false ∧ s.doneLevel = false ∧
    s.doneSync = ⟨false, false, false⟩ ∧ s.outstanding = false

end TxPath

/-- The transmit path with its software. -/
def txPath (csrAddr : BitVec 4) : Machine TxPath TxEdge where
  Initial := TxPath.Initial
  Allowed := TxPath.Allowed csrAddr
  next := TxPath.next csrAddr

instance (csrAddr : BitVec 4) (s : TxPath) (x : TxSysEdge) :
    Decidable (s.SysRule csrAddr x) :=
  decidable_of_iff
    ((∀ n ∈ x.request csrAddr, n ≠ 0 ∧ s.outstanding = false) ∧
      (s.outstanding = true → Ctlif.irqTx (s.ctlifIn x) = false → x.stores = []) ∧
      (x.sysRst = true → s.outstanding = false))
    ⟨fun h => ⟨h.1, h.2.1, h.2.2⟩, fun h => ⟨h.request, h.stores, h.reset⟩⟩

instance (csrAddr : BitVec 4) (s : TxPath) (e : TxEdge) :
    Decidable ((txPath csrAddr).Allowed s e) :=
  inferInstanceAs (Decidable (∀ x ∈ e.sys, s.SysRule csrAddr x))

end Soc.Minimac2
