import Soc.Csr

/-!
# The UART core

The registers of `uart.v` and one edge of `sys_clk`. Several nonblocking assignments of
the `always` block may target one register; the last of them wins, so every field below
tests the assignments from the last to the first. In particular a store to STAT that
clears an event beats the event of the same cycle, and a byte moving into the transmit
FIFO beats a store to RXTX for `thre`.
-/

namespace Soc

/-- The registers of `uart.v`. -/
structure Uart where
  rxReg : Byte
  txReg : Byte
  divisor : BitVec 16
  thruEn : Bool
  breakEn : Bool
  txIrqEn : Bool
  rxIrqEn : Bool
  rxEvent : Bool
  txEvent : Bool
  thre : Bool
  jtagRd : Bool
  csrDo : Word
  deriving DecidableEq

namespace Uart

/-- `CSR_UART_RXTX` as an address of the CSR bus (`csr_addr` is 0 in `lm32_test_top`). -/
def RXTX : BitVec 14 := 0

/-- `CSR_UART_DIVISOR`. -/
def DIVISOR : BitVec 14 := 1

/-- `CSR_UART_STAT`. -/
def STAT : BitVec 14 := 2

/-- `CSR_UART_CTRL`. -/
def CTRL : BitVec 14 := 3

/-- `CSR_UART_DEBUG`. -/
def DEBUG : BitVec 14 := 4

/-- `UART_STAT_THRE`. -/
def STAT_THRE : Word := 0x1

/-- `UART_STAT_RX_EVT`. -/
def STAT_RX_EVT : Word := 0x2

/-- `UART_STAT_TX_EVT`. -/
def STAT_TX_EVT : Word := 0x4

@[simp] theorem test_thre (w : Word) : test w STAT_THRE = bit w 0 := test_twoPow w 0 (by decide)

@[simp] theorem test_rx_evt (w : Word) : test w STAT_RX_EVT = bit w 1 := test_twoPow w 1 (by decide)

@[simp] theorem test_tx_evt (w : Word) : test w STAT_TX_EVT = bit w 2 := test_twoPow w 2 (by decide)

/-- The state the synchronous reset leads to. -/
def reset : Uart where
  rxReg := 0
  txReg := 0
  divisor := 27
  thruEn := false
  breakEn := false
  txIrqEn := false
  rxIrqEn := false
  rxEvent := false
  txEvent := false
  thre := true
  jtagRd := false
  csrDo := 0

/-- The wire `jtag_we`: the byte in `tx_reg` moves into the CPU→JTAG FIFO. -/
def jtagWe (u : Uart) (jtagFull : Bool) : Bool :=
  !jtagFull && !u.thre

/-- The wire `read_jtag`: the next byte of the JTAG→CPU FIFO is requested. -/
def readJtag (u : Uart) (jtagEmpty : Bool) : Bool :=
  !u.jtagRd && !jtagEmpty && !u.rxEvent

/-- The value of the STAT register, `{tx_event, rx_event, thre}`. -/
def stat (u : Uart) : Word :=
  (BitVec.ofBool u.txEvent ++ BitVec.ofBool u.rxEvent ++ BitVec.ofBool u.thre).setWidth 32

/-- The value a load of register `r` samples into `csr_do`. -/
def readCsr (u : Uart) (r : BitVec 3) : Word :=
  match r.toNat with
  | 0 => u.rxReg.setWidth 32
  | 1 => u.divisor.setWidth 32
  | 2 => u.stat
  | 3 => (BitVec.ofBool u.thruEn ++ BitVec.ofBool u.txIrqEn ++ BitVec.ofBool u.rxIrqEn).setWidth 32
  | 4 => (BitVec.ofBool u.breakEn).setWidth 32
  | _ => 0

/-- One edge of `sys_clk` without reset. `jtagQ` is the output of the JTAG→CPU FIFO. -/
def clock (csrAddr : BitVec 4) (u : Uart) (bus : CsrBus) (jtagFull jtagEmpty : Bool)
    (jtagQ : Byte) : Uart where
  rxReg := if u.jtagRd then jtagQ else u.rxReg
  txReg := if bus.writes csrAddr 0 then bus.di.setWidth 8 else u.txReg
  divisor := if bus.writes csrAddr 1 then bus.di.setWidth 16 else u.divisor
  thruEn := if bus.writes csrAddr 3 then bit bus.di 2 else u.thruEn
  breakEn := if bus.writes csrAddr 4 then bit bus.di 0 else u.breakEn
  txIrqEn := if bus.writes csrAddr 3 then bit bus.di 1 else u.txIrqEn
  rxIrqEn := if bus.writes csrAddr 3 then bit bus.di 0 else u.rxIrqEn
  rxEvent :=
    if bus.writes csrAddr 2 && bit bus.di 1 then false
    else if u.jtagRd then true else u.rxEvent
  txEvent :=
    if bus.writes csrAddr 2 && bit bus.di 2 then false
    else if u.jtagWe jtagFull then true else u.txEvent
  thre :=
    if u.jtagWe jtagFull then true
    else if bus.writes csrAddr 0 then false else u.thre
  jtagRd := u.readJtag jtagEmpty
  csrDo := if bus.selects csrAddr then u.readCsr bus.reg else 0

/-- An edge without a store to the UART and with the given output. -/
def tick (u : Uart) (jtagFull jtagEmpty : Bool) (jtagQ : Byte) (csrDo : Word) : Uart :=
  { u with
    rxReg := if u.jtagRd then jtagQ else u.rxReg
    rxEvent := if u.jtagRd then true else u.rxEvent
    txEvent := if u.jtagWe jtagFull then true else u.txEvent
    thre := if u.jtagWe jtagFull then true else u.thre
    jtagRd := u.readJtag jtagEmpty
    csrDo := csrDo }

/-- Without a store to the UART an edge only ticks, and samples the addressed register. -/
theorem clock_of_not_written {csrAddr : BitVec 4} {bus : CsrBus}
    (h : (bus.selects csrAddr && bus.we) = false) (u : Uart) (jtagFull jtagEmpty : Bool)
    (jtagQ : Byte) :
    u.clock csrAddr bus jtagFull jtagEmpty jtagQ =
      u.tick jtagFull jtagEmpty jtagQ (if bus.selects csrAddr then u.readCsr bus.reg else 0) := by
  unfold clock tick
  simp only [CsrBus.writes_of_not_written h, Bool.false_and, Bool.false_eq_true, if_false]

/-- Bit 0 of STAT is `thre`. -/
@[simp] theorem stat_thre (u : Uart) : bit u.stat 0 = u.thre := by
  cases hr : u.rxEvent <;> cases ht : u.txEvent <;> cases h : u.thre <;>
    simp [bit, stat, hr, ht, h]

/-- Bit 1 of STAT is `rx_event`. -/
@[simp] theorem stat_rx_evt (u : Uart) : bit u.stat 1 = u.rxEvent := by
  cases hr : u.rxEvent <;> cases ht : u.txEvent <;> cases h : u.thre <;>
    simp [bit, stat, hr, ht, h]

/-- Bit 2 of STAT is `tx_event`. -/
@[simp] theorem stat_tx_evt (u : Uart) : bit u.stat 2 = u.txEvent := by
  cases hr : u.rxEvent <;> cases ht : u.txEvent <;> cases h : u.thre <;>
    simp [bit, stat, hr, ht, h]

end Uart

end Soc
