import Soc.Uart.Routine
import Soc.Library.Ring

/-!
# The interrupt-driven UART driver

The static data of `libbase/uart.c` and the functions `uart_isr`, `uart_read`, `uart_write`,
`uart_init` and `uart_force_sync`, statement by statement. `irq_getmask` and `irq_setmask` act
on the interrupt mask register IM of the CPU, which is kept with the statements that use it;
`irq_ack` acts on the pending register IP, and when a pending interrupt reaches the CPU is left
to the machine that runs the driver.
-/

namespace Soc.Libbase

open Uart

/-- `IRQ_UART`. -/
def IRQ_UART : Word := 0x1

/-- `UART_RINGBUFFER_SIZE_RX`. -/
def UART_RINGBUFFER_SIZE_RX : Nat := 128

/-- `UART_RINGBUFFER_SIZE_TX`. -/
def UART_RINGBUFFER_SIZE_TX : Nat := 128

/-- The static variables of `uart.c`. The sizes are powers of two, so `& MASK` is `% SIZE`. -/
structure UartDriver where
  rxBuf : Nat → Byte
  rxProduce : Nat
  rxConsume : Nat
  txBuf : Nat → Byte
  txProduce : Nat
  txConsume : Nat
  txCts : Bool
  forceSync : Bool

namespace UartDriver

/-- The ring step `(i + 1) & UART_RINGBUFFER_MASK_TX`. -/
def nextTx (i : Nat) : Nat := Library.Ring.next UART_RINGBUFFER_SIZE_TX i

/-- The ring step `(i + 1) & UART_RINGBUFFER_MASK_RX`. -/
def nextRx (i : Nat) : Nat := Library.Ring.next UART_RINGBUFFER_SIZE_RX i

/-- The bytes stored in `tx_buf` that the driver has not taken out yet. -/
def queued (d : UartDriver) : List Byte :=
  Library.Ring.queued UART_RINGBUFFER_SIZE_TX d.txBuf d.txProduce d.txConsume

end UartDriver

/-- The statements of `uart_isr`. The status read by the first one stays in a local. -/
inductive IsrPc where
  | readStat
  | writeStat (stat : Word)
  | readRx (stat : Word)
  | bumpRx (stat : Word)
  | testTx (stat : Word)
  | sendTx
  | bumpTx
  | setCts
  | irqAck
  deriving DecidableEq

/-- `uart_isr`. -/
def uartIsr : Routine UartDriver IsrPc Unit where
  access d
    | .readStat => some (.load STAT)
    | .writeStat stat => some (.store STAT stat)
    | .readRx _ => some (.load RXTX)
    | .sendTx => some (.store RXTX ((d.txBuf d.txConsume).signExtend 32))
    | .bumpRx _ | .testTx _ | .bumpTx | .setCts | .irqAck => none
  next d
    | .readStat, data => (d, .inl (.writeStat data))
    | .writeStat stat, _ =>
        (d, .inl (if test stat STAT_RX_EVT then .readRx stat else .testTx stat))
    | .readRx stat, data =>
        ({ d with rxBuf := Function.update d.rxBuf d.rxProduce (data.setWidth 8) },
          .inl (.bumpRx stat))
    | .bumpRx stat, _ =>
        ({ d with rxProduce := UartDriver.nextRx d.rxProduce }, .inl (.testTx stat))
    | .testTx stat, _ =>
        (d, .inl (if test stat STAT_TX_EVT then
          if d.txProduce ≠ d.txConsume then .sendTx else .setCts else .irqAck))
    | .sendTx, _ => (d, .inl .bumpTx)
    | .bumpTx, _ => ({ d with txConsume := UartDriver.nextTx d.txConsume }, .inl .irqAck)
    | .setCts, _ => ({ d with txCts := true }, .inl .irqAck)
    | .irqAck, _ => (d, .inr ())

/-- The statements of `uart_read`. The byte read from the ring stays in a local. -/
inductive ReadPc where
  | wait
  | load
  | bump (c : Byte)
  deriving DecidableEq

/-- `uart_read`. -/
def uartRead : Routine UartDriver ReadPc Byte where
  access _ _ := none
  next d
    | .wait, _ => (d, .inl (if d.rxConsume = d.rxProduce then .wait else .load))
    | .load, _ => (d, .inl (.bump (d.rxBuf d.rxConsume)))
    | .bump c, _ => ({ d with rxConsume := UartDriver.nextRx d.rxConsume }, .inr c)

/-- The statements of `uart_write`. The saved interrupt mask stays in a local. -/
inductive WritePc where
  | getMask
  | clearMask (oldmask : Word)
  | testSync (oldmask : Word)
  | sendSync (oldmask : Word)
  | waitSync (oldmask : Word)
  | testCts (oldmask : Word)
  | clearCts (oldmask : Word)
  | sendNow (oldmask : Word)
  | store (oldmask : Word)
  | bumpTx (oldmask : Word)
  | setMask (oldmask : Word)
  deriving DecidableEq

/-- `uart_write`, on the driver's data and the interrupt mask. -/
def uartWrite (c : Byte) : Routine (UartDriver × Word) WritePc Unit where
  access _
    | .sendSync _ | .sendNow _ => some (.store RXTX (c.signExtend 32))
    | .waitSync _ => some (.load STAT)
    | .getMask | .clearMask _ | .testSync _ | .testCts _ | .clearCts _ | .store _ | .bumpTx _
    | .setMask _ => none
  next
    | (d, im), .getMask, _ => ((d, im), .inl (.clearMask im))
    | (d, _), .clearMask oldmask, _ => ((d, 0), .inl (.testSync oldmask))
    | (d, im), .testSync oldmask, _ =>
        ((d, im), .inl (if d.forceSync then .sendSync oldmask else .testCts oldmask))
    | (d, im), .sendSync oldmask, _ => ((d, im), .inl (.waitSync oldmask))
    | (d, im), .waitSync oldmask, data =>
        ((d, im), .inl (if test data STAT_THRE then .setMask oldmask else .waitSync oldmask))
    | (d, im), .testCts oldmask, _ =>
        ((d, im), .inl (if d.txCts then .clearCts oldmask else .store oldmask))
    | (d, im), .clearCts oldmask, _ => (({ d with txCts := false }, im), .inl (.sendNow oldmask))
    | (d, im), .sendNow oldmask, _ => ((d, im), .inl (.setMask oldmask))
    | (d, im), .store oldmask, _ =>
        (({ d with txBuf := Function.update d.txBuf d.txProduce c }, im), .inl (.bumpTx oldmask))
    | (d, im), .bumpTx oldmask, _ =>
        (({ d with txProduce := UartDriver.nextTx d.txProduce }, im), .inl (.setMask oldmask))
    | (d, _), .setMask oldmask, _ => ((d, oldmask), .inr ())

/-- The statements of `uart_init`. -/
inductive InitPc where
  | clear
  | irqAck
  | readStat
  | writeStat (stat : Word)
  | setCtrl
  | getMask
  | setMask (mask : Word)
  deriving DecidableEq

/-- `UART_CTRL_TX_INT | UART_CTRL_RX_INT`. -/
def UART_CTRL_TX_RX_INT : Word := 0x3

/-- `uart_init`. Its first statement stands for the five assignments to the static data. -/
def uartInit : Routine (UartDriver × Word) InitPc Unit where
  access _
    | .readStat => some (.load STAT)
    | .writeStat stat => some (.store STAT stat)
    | .setCtrl => some (.store CTRL UART_CTRL_TX_RX_INT)
    | .clear | .irqAck | .getMask | .setMask _ => none
  next
    | (d, im), .clear, _ =>
        (({ d with rxProduce := 0, rxConsume := 0, txProduce := 0, txConsume := 0,
                   txCts := true }, im), .inl .irqAck)
    | (d, im), .irqAck, _ => ((d, im), .inl .readStat)
    | (d, im), .readStat, data => ((d, im), .inl (.writeStat data))
    | (d, im), .writeStat _, _ => ((d, im), .inl .setCtrl)
    | (d, im), .setCtrl, _ => ((d, im), .inl .getMask)
    | (d, im), .getMask, _ => ((d, im), .inl (.setMask (im ||| IRQ_UART)))
    | (d, _), .setMask mask, _ => ((d, mask), .inr ())

/-- The statements of `uart_force_sync`. -/
inductive ForceSyncPc where
  | wait
  | set
  deriving DecidableEq

/-- `uart_force_sync`. -/
def uartForceSync (f : Bool) : Routine UartDriver ForceSyncPc Unit where
  access _ _ := none
  next d
    | .wait, _ => (d, .inl (if f && !d.txCts then .wait else .set))
    | .set, _ => ({ d with forceSync := f }, .inr ())

end Soc.Libbase
