import Soc.Uart.Core

/-!
# The UART between the CSR bus and the JTAG FIFOs

`Port` puts the core of `uart.v` between the two FIFOs of `jtag_uart.v`. The FIFOs are
vendor blocks; what is used of them is that they are queues, that `empty` and `full` are
never wrong in the unsafe direction, and that `q` holds the element taken in the cycle
after its request. Nothing is assumed about `q` in other cycles or about how early a
queued byte shows on `empty`.
-/

namespace Soc.Uart

/-- What the FIFOs and the host behind them do in one cycle: a byte the host adds to the
JTAG→CPU FIFO, the flags the core sees, and the output `q` if no element was requested. -/
structure Jtag where
  arrival : Option Byte
  empty : Bool
  full : Bool
  q : Byte
  deriving DecidableEq

/-- The core with the contents of the JTAG→CPU FIFO. `entered` and `pushed` record the bytes
that went into the JTAG→CPU and into the CPU→JTAG FIFO so far. -/
structure Port where
  uart : Uart
  rfifo : List Byte
  q : Byte
  entered : List Byte
  pushed : List Byte
  deriving DecidableEq

namespace Port

/-- The core is selected at `csr_addr` 0, as in `lm32_test_top`. -/
abbrev csrAddr : BitVec 4 := 0

/-- An empty FIFO is flagged as such. -/
def Admits (s : Port) (j : Jtag) : Prop :=
  s.rfifo = [] → j.empty = true

instance (s : Port) (j : Jtag) : Decidable (s.Admits j) :=
  inferInstanceAs (Decidable (_ → _))

/-- One edge of `sys_clk` with the given bus cycle. -/
def cycle (s : Port) (bus : CsrBus) (j : Jtag) : Port where
  uart := s.uart.clock csrAddr bus j.full j.empty s.q
  rfifo := (if s.uart.readJtag j.empty then s.rfifo.tail else s.rfifo) ++ j.arrival.toList
  q := if s.uart.readJtag j.empty then s.rfifo.headD j.q else j.q
  entered := s.entered ++ j.arrival.toList
  pushed := if s.uart.jtagWe j.full then s.pushed ++ [s.uart.txReg] else s.pushed

/-- The byte of a requested element that `q` still has to deliver to `rx_reg`. -/
def inFlight (s : Port) : List Byte :=
  if s.uart.jtagRd then [s.q] else []

/-- The byte `rx_event` announces. -/
def announced (s : Port) : List Byte :=
  if s.uart.rxEvent then [s.uart.rxReg] else []

/-- The byte waiting in `tx_reg` for room in the CPU→JTAG FIFO. -/
def waiting (s : Port) : List Byte :=
  if s.uart.thre then [] else [s.uart.txReg]

/-- While a requested byte is in flight, none is announced. -/
def Exclusive (s : Port) : Prop :=
  s.uart.jtagRd = true → s.uart.rxEvent = false

variable {s : Port} {bus : CsrBus} {j : Jtag}

/-- No cycle announces a byte while requesting the next one. -/
theorem cycle_exclusive : (s.cycle bus j).Exclusive := by
  intro hrd
  simp only [cycle, clock, readJtag, Bool.and_eq_true, Bool.not_eq_true'] at hrd ⊢
  simp [hrd]

/-- The bytes on their way from the JTAG→CPU FIFO to a load of RXTX, oldest first. -/
def backlog (s : Port) : List Byte :=
  s.announced ++ s.inFlight ++ s.rfifo

/-- The cycle clears `rx_event`: a store to STAT with bit 1 set. -/
def acknowledges (bus : CsrBus) : Bool :=
  bus.writes csrAddr 2 && bit bus.di 1

/-- The next value of `rx_event`. -/
theorem cycle_rxEvent_eq : (s.cycle bus j).uart.rxEvent =
    if acknowledges bus then false else if s.uart.jtagRd then true else s.uart.rxEvent := rfl

/-- A cycle keeps the bytes on their way to the CPU in order, unless it acknowledges one. -/
theorem cycle_backlog (h : s.Exclusive) (hj : s.Admits j) (hquiet : acknowledges bus = false) :
    (s.cycle bus j).backlog = s.backlog ++ j.arrival.toList := by
  unfold Exclusive at h
  unfold Admits at hj
  simp only [backlog, announced, cycle_rxEvent_eq, hquiet]
  simp only [inFlight, cycle, clock, readJtag]
  by_cases hrd : s.uart.jtagRd = true
  · simp [hrd, h hrd]
  · by_cases hev : s.uart.rxEvent = true
    · simp [hrd, hev]
    · by_cases he : j.empty = true
      · simp [hrd, hev, he]
      · obtain ⟨byte, rest, hf⟩ := List.exists_cons_of_ne_nil fun hnil => he (hj hnil)
        simp [hrd, hev, he, hf]

/-- Acknowledging an announced byte takes it out of the backlog and leaves it in `rx_reg`. -/
theorem cycle_acknowledge (h : s.Exclusive) (hev : s.uart.rxEvent = true)
    (hack : acknowledges bus = true) :
    s.backlog ++ j.arrival.toList = s.uart.rxReg :: (s.cycle bus j).backlog ∧
      (s.cycle bus j).uart.rxReg = s.uart.rxReg ∧ (s.cycle bus j).uart.rxEvent = false := by
  have hrd : s.uart.jtagRd = false := by
    cases hrd : s.uart.jtagRd with
    | false => rfl
    | true => simp [h hrd] at hev
  simp only [backlog, announced, cycle_rxEvent_eq, hack]
  simp [inFlight, cycle, clock, readJtag, hrd, hev]

/-- An announced byte stays announced until it is acknowledged. -/
theorem cycle_rxEvent (hev : s.uart.rxEvent = true) (hquiet : acknowledges bus = false) :
    (s.cycle bus j).uart.rxEvent = true := by
  simp [cycle_rxEvent_eq, hquiet, hev]

/-- `rx_reg` only changes together with `rx_event`. -/
theorem cycle_rxReg (hquiet : acknowledges bus = false)
    (hev : (s.cycle bus j).uart.rxEvent = false) :
    (s.cycle bus j).uart.rxReg = s.uart.rxReg ∧ s.uart.rxEvent = false := by
  simp only [cycle_rxEvent_eq, hquiet] at hev
  cases hrd : s.uart.jtagRd with
  | true => simp [hrd] at hev
  | false => exact ⟨by simp [cycle, clock, hrd], by simpa [hrd] using hev⟩

/-- A load acknowledges nothing. -/
@[simp] theorem acknowledges_load (a : BitVec 14) : acknowledges (.load a) = false := by
  simp [acknowledges]

/-- A store to STAT acknowledges when its bit 1 is set. -/
@[simp] theorem acknowledges_store_stat (w : Word) :
    acknowledges (.store STAT w) = bit w 1 := by
  simp [acknowledges, CsrBus.store, CsrBus.writes, CsrBus.selects, CsrBus.reg, STAT]

/-- A store to RXTX acknowledges nothing. -/
@[simp] theorem acknowledges_store_rxtx (w : Word) : acknowledges (.store RXTX w) = false := by
  simp [acknowledges, CsrBus.store, CsrBus.writes, CsrBus.selects, CsrBus.reg, RXTX]

/-- The cycle stores a byte to RXTX. -/
def sends (bus : CsrBus) : Bool :=
  bus.writes csrAddr 0

/-- The cycle clears `tx_event`: a store to STAT with bit 2 set. -/
def acknowledgesTx (bus : CsrBus) : Bool :=
  bus.writes csrAddr 2 && bit bus.di 2

/-- The bytes that left the software for the host: in the CPU→JTAG FIFO or waiting before it. -/
def sent (s : Port) : List Byte :=
  s.pushed ++ s.waiting

/-- The transmitter is idle and its last event is acknowledged. -/
def Free (s : Port) : Prop :=
  s.uart.thre = true ∧ s.uart.txEvent = false

/-- The transmitter is either busy, or idle with the event to show for it. -/
def Signalled (s : Port) : Prop :=
  s.uart.thre = s.uart.txEvent

/-- The next value of `thre`. -/
theorem cycle_thre_eq : (s.cycle bus j).uart.thre =
    if s.uart.jtagWe j.full then true else if sends bus then false else s.uart.thre := rfl

/-- The next value of `tx_event`. -/
theorem cycle_txEvent_eq : (s.cycle bus j).uart.txEvent =
    if acknowledgesTx bus then false
    else if s.uart.jtagWe j.full then true else s.uart.txEvent := rfl

/-- The next value of `tx_reg`. -/
theorem cycle_txReg_eq : (s.cycle bus j).uart.txReg =
    if sends bus then bus.di.setWidth 8 else s.uart.txReg := rfl

/-- An idle transmitter moves nothing into the FIFO. -/
theorem jtagWe_of_thre {full : Bool} (h : s.uart.thre = true) : s.uart.jtagWe full = false := by
  simp [jtagWe, h]

/-- Without a store to RXTX, no byte is added or lost on the way to the host. -/
theorem cycle_sent (hsend : sends bus = false) : (s.cycle bus j).sent = s.sent := by
  simp only [sent, waiting, cycle_thre_eq, cycle_txReg_eq, hsend]
  cases hthre : s.uart.thre <;> cases hfull : j.full <;> simp [cycle, jtagWe, hthre, hfull]

/-- A store to RXTX while `thre` is set adds its byte. -/
theorem cycle_send (hthre : s.uart.thre = true) (hsend : sends bus = true) :
    (s.cycle bus j).sent = s.sent ++ [bus.di.setWidth 8] := by
  simp only [sent, waiting, cycle_thre_eq, cycle_txReg_eq, hsend, jtagWe_of_thre hthre, hthre]
  simp [cycle, jtagWe_of_thre hthre]

/-- Without a store to RXTX an idle transmitter with its event acknowledged stays so. -/
theorem cycle_free (h : s.Free) (hsend : sends bus = false) : (s.cycle bus j).Free := by
  obtain ⟨hthre, hevent⟩ := h
  simp [Free, cycle_thre_eq, cycle_txEvent_eq, jtagWe_of_thre hthre, hsend, hthre, hevent]

/-- While nothing is stored or acknowledged, a busy transmitter only becomes idle with an event. -/
theorem cycle_signalled (h : s.Signalled) (hsend : sends bus = false)
    (hack : acknowledgesTx bus = false) : (s.cycle bus j).Signalled := by
  unfold Signalled at h ⊢
  simp [cycle_thre_eq, cycle_txEvent_eq, hsend, hack, h]

/-- Acknowledging the event of an idle transmitter. -/
theorem cycle_acknowledgeTx (hthre : s.uart.thre = true) (hsend : sends bus = false)
    (hack : acknowledgesTx bus = true) : (s.cycle bus j).Free := by
  simp [Free, cycle_thre_eq, cycle_txEvent_eq, jtagWe_of_thre hthre, hsend, hthre, hack]

/-- A store to RXTX makes the transmitter busy. -/
theorem cycle_send_signalled (h : s.Free) (hsend : sends bus = true)
    (hack : acknowledgesTx bus = false) : (s.cycle bus j).Signalled := by
  obtain ⟨hthre, hevent⟩ := h
  simp [Signalled, cycle_thre_eq, cycle_txEvent_eq, jtagWe_of_thre hthre, hsend, hack, hevent]

/-- `cycle_send` for the store of a word. -/
theorem cycle_store_rxtx (hthre : s.uart.thre = true) (w : Word) :
    (s.cycle (.store RXTX w) j).sent = s.sent ++ [w.setWidth 8] :=
  cycle_send hthre (by simp [sends, RXTX])

@[simp] theorem sends_load (a : BitVec 14) : sends (.load a) = false := by
  simp [sends]

@[simp] theorem acknowledgesTx_load (a : BitVec 14) : acknowledgesTx (.load a) = false := by
  simp [acknowledgesTx]

@[simp] theorem sends_store_rxtx (w : Word) : sends (.store RXTX w) = true := by
  simp [sends, RXTX]

@[simp] theorem sends_store_stat (w : Word) : sends (.store STAT w) = false := by
  simp [sends, STAT]

@[simp] theorem sends_store_ctrl (w : Word) : sends (.store CTRL w) = false := by
  simp [sends, CTRL]

@[simp] theorem acknowledgesTx_store_rxtx (w : Word) :
    acknowledgesTx (.store RXTX w) = false := by
  simp [acknowledgesTx, RXTX]

@[simp] theorem acknowledgesTx_store_ctrl (w : Word) :
    acknowledgesTx (.store CTRL w) = false := by
  simp [acknowledgesTx, CTRL]

@[simp] theorem acknowledgesTx_store_stat (w : Word) :
    acknowledgesTx (.store STAT w) = bit w 2 := by
  simp [acknowledgesTx, CsrBus.store, CsrBus.writes, CsrBus.selects, CsrBus.reg, STAT]

end Port

end Soc.Uart
