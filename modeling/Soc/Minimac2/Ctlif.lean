import Soc.Csr

/-!
# The control interface of the Ethernet MAC

The registers of `minimac2_ctlif.v` with the CSR interface to them, and one edge of `sys_clk`.
What the MAC reports (`rx_done`, `tx_done`) beats a store of the same cycle.
-/

namespace Soc.Minimac2

/-- The registers of `minimac2_ctlif`. -/
structure Ctlif where
  csrDo : Word
  miiDataOe : Bool
  miiDataDo : Bool
  miiDataDi1 : Bool
  miiDataDi : Bool
  phyMiiClk : Bool
  phyRst : Bool
  slot0State : BitVec 2
  slot1State : BitVec 2
  slotsLoadedR : BitVec 2
  txCount : BitVec 11
  txRemainingR : Bool
  deriving DecidableEq

/-- What the control interface sees of the MAC in a cycle, and what the PHY puts on the data pin. -/
structure CtlifIn where
  rxDone : BitVec 2
  rxCount0 : BitVec 11
  rxCount1 : BitVec 11
  txDone : Bool
  phyDrives : Bool
  deriving DecidableEq

namespace Ctlif

variable (c : Ctlif) (i : CtlifIn)

/-- The pin `phy_mii_data`. -/
def phyMiiData : Bool := if c.miiDataOe then c.miiDataDo else i.phyDrives

/-- The wire `slots_loaded`. -/
def slotsLoaded : BitVec 2 :=
  BitVec.ofBool (c.slot1State.getLsbD 0) ++ BitVec.ofBool (c.slot0State.getLsbD 0)

/-- The output `rx_ready`. -/
def rxReady : BitVec 2 := c.slotsLoaded &&& ~~~c.slotsLoadedR

/-- The wire `tx_remaining`. -/
def txRemaining : Bool := c.txCount != 0

/-- The output `tx_start`. -/
def txStart : Bool := c.txRemaining && !c.txRemainingR

/-- The output `irq_rx`. -/
def irqRx : Bool := c.slot0State.getLsbD 1 || c.slot1State.getLsbD 1

/-- The output `irq_tx`. -/
def irqTx : Bool := i.txDone

/-- The value a load of register `r` samples into `csr_do`. -/
def readCsr (r : BitVec 3) : Word :=
  match r.toNat with
  | 0 => (BitVec.ofBool c.phyRst).setWidth 32
  | 1 => (BitVec.ofBool c.phyMiiClk ++ BitVec.ofBool c.miiDataOe ++ BitVec.ofBool c.miiDataDi ++
      BitVec.ofBool c.miiDataDo).setWidth 32
  | 2 => c.slot0State.setWidth 32
  | 3 => i.rxCount0.setWidth 32
  | 4 => c.slot1State.setWidth 32
  | 5 => i.rxCount1.setWidth 32
  | 6 => c.txCount.setWidth 32
  | _ => 0

/-- One edge of `sys_clk` with reset. The samples of the pin and the two `_r` registers have
none. -/
def reset : Ctlif where
  csrDo := 0
  miiDataOe := false
  miiDataDo := false
  miiDataDi1 := c.phyMiiData i
  miiDataDi := c.miiDataDi1
  phyMiiClk := false
  phyRst := false
  slot0State := 0
  slot1State := 0
  slotsLoadedR := c.slotsLoaded
  txCount := 0
  txRemainingR := c.txRemaining

/-- One edge of `sys_clk` without reset. -/
def clock (csrAddr : BitVec 4) (bus : CsrBus) : Ctlif where
  csrDo := if bus.selects csrAddr then c.readCsr i bus.reg else 0
  miiDataOe := if bus.writes csrAddr 1 then bit bus.di 2 else c.miiDataOe
  miiDataDo := if bus.writes csrAddr 1 then bit bus.di 0 else c.miiDataDo
  miiDataDi1 := c.phyMiiData i
  miiDataDi := c.miiDataDi1
  phyMiiClk := if bus.writes csrAddr 1 then bit bus.di 3 else c.phyMiiClk
  phyRst := if bus.writes csrAddr 0 then bit bus.di 0 else c.phyRst
  slot0State :=
    if i.rxDone.getLsbD 0 then 0b10
    else if bus.writes csrAddr 2 then bus.di.setWidth 2 else c.slot0State
  slot1State :=
    if i.rxDone.getLsbD 1 then 0b10
    else if bus.writes csrAddr 4 then bus.di.setWidth 2 else c.slot1State
  slotsLoadedR := c.slotsLoaded
  txCount :=
    if i.txDone then 0
    else if bus.writes csrAddr 6 then bus.di.setWidth 11 else c.txCount
  txRemainingR := c.txRemaining

/-- An edge without a store to the interface and with the given output. -/
def tick (csrDo : Word) : Ctlif :=
  { c with
    csrDo := csrDo
    miiDataDi1 := c.phyMiiData i
    miiDataDi := c.miiDataDi1
    slot0State := if i.rxDone.getLsbD 0 then 0b10 else c.slot0State
    slot1State := if i.rxDone.getLsbD 1 then 0b10 else c.slot1State
    slotsLoadedR := c.slotsLoaded
    txCount := if i.txDone then 0 else c.txCount
    txRemainingR := c.txRemaining }

/-- Without a store to the interface an edge only ticks, and samples the addressed register. -/
theorem clock_of_not_written {csrAddr : BitVec 4} {bus : CsrBus}
    (h : (bus.selects csrAddr && bus.we) = false) :
    c.clock i csrAddr bus = c.tick i (if bus.selects csrAddr then c.readCsr i bus.reg else 0) := by
  unfold clock tick
  simp only [CsrBus.writes_of_not_written h, Bool.false_eq_true, if_false]

end Ctlif

end Soc.Minimac2
