import Soc.Library.Machine
import Soc.Libbase.Uart

/-!
# The transmit path from `uart_write` to the host

The driver of `libbase/uart.c` composed with the UART: `uart_init` runs first, then the
application calls `uart_write` and changes the interrupt mask at will, `uart_isr` may
interrupt whenever UART interrupts are unmasked, and any number of cycles passes before
each statement. The invariant `Linked` ties the software flag `tx_cts` to `thre` and
`tx_event`: the flag is set only while the transmitter is idle with its event acknowledged
and the ring empty, and while it is clear the transmitter is busy or has an event to show.
-/

namespace Soc.Uart.Transmit

open Library (Machine)
open Libbase (IRQ_UART InitPc IsrPc UART_RINGBUFFER_SIZE_TX UartDriver WritePc uartInit uartIsr
  uartWrite)
open Port (acknowledgesTx sends)

/-- What the CPU runs outside `uart_isr`. -/
inductive Foreground where
  | idle
  | init (pc : InitPc)
  | write (c : Byte) (pc : WritePc)
  deriving DecidableEq

namespace Foreground

/-- The byte of a `uart_write` in progress that is neither sent nor counted in the ring yet. -/
def inHand : Foreground → List Byte
  | .idle | .init _ | .write _ (.setMask _) | .write _ (.waitSync _) => []
  | .write c _ => [c]

/-- The places at which UART interrupts may be unmasked: not in `uart_init`, and not between the
two calls of `irq_setmask` in `uart_write`. -/
def interruptible : Foreground → Bool
  | .idle | .write _ .getMask | .write _ (.clearMask _) => true
  | _ => false

end Foreground

/-- The UART system, the driver's data, the register IM, the running code and the bytes passed to
`uart_write` so far. -/
structure Transmitter where
  port : Port
  driver : UartDriver
  im : Word
  fg : Foreground
  isr : Option IsrPc
  written : List Byte

/-- What happens next: the application calls `uart_write` or sets the interrupt mask, `uart_isr`
is entered, a cycle passes, or the running code executes a statement. -/
inductive Act where
  | write (c : Byte)
  | setMask (mask : Word)
  | interrupt
  | stall
  | run
  deriving DecidableEq

/-- A choice of the environment, with the bus cycle that goes by if the running code makes no
access to the UART itself. -/
structure Tick where
  act : Act
  bus : CsrBus
  jtag : Jtag

namespace Transmitter

/-- The bus cycle of the next statement, if it accesses the UART. -/
def access (s : Transmitter) : Option CsrBus :=
  match s.isr, s.fg with
  | some pc, _ => uartIsr.access s.driver pc
  | none, .idle => none
  | none, .init pc => uartInit.access (s.driver, s.im) pc
  | none, .write c pc => (uartWrite c).access (s.driver, s.im) pc

/-- Execute the next statement of `uart_isr` if it is running, and of the foreground otherwise. -/
def run (s : Transmitter) (bus : CsrBus) (j : Jtag) : Transmitter :=
  let port := s.port.cycle (s.access.getD bus) j
  match s.isr, s.fg with
  | some pc, _ =>
      let following := uartIsr.next s.driver pc port.uart.csrDo
      { s with
        port
        driver := following.1
        isr := match following.2 with | .inl pc' => some pc' | .inr _ => none }
  | none, .idle => { s with port }
  | none, .init pc =>
      let following := uartInit.next (s.driver, s.im) pc port.uart.csrDo
      { s with
        port
        driver := following.1.1
        im := following.1.2
        fg := match following.2 with | .inl pc' => .init pc' | .inr _ => .idle }
  | none, .write c pc =>
      let following := (uartWrite c).next (s.driver, s.im) pc port.uart.csrDo
      { s with
        port
        driver := following.1.1
        im := following.1.2
        fg := match following.2 with | .inl pc' => .write c pc' | .inr _ => .idle }

/-- One choice of the environment. -/
def next (s : Transmitter) (t : Tick) : Transmitter :=
  match t.act with
  | .write c => { s with fg := .write c .getMask, written := s.written ++ [c] }
  | .setMask mask => { s with im := mask }
  | .interrupt => { s with isr := some .readStat }
  | .stall => { s with port := s.port.cycle t.bus t.jtag }
  | .run => s.run t.bus t.jtag

/-- Neither `uart_write` nor `uart_isr` nor `uart_init` is in progress. -/
def Quiescent (s : Transmitter) : Prop :=
  s.isr = none ∧ s.fg = .idle

/-- The next statement of `uart_write` adds a byte to the ring. -/
def enqueues (s : Transmitter) : Bool :=
  match s.isr, s.fg with
  | none, .write _ (.bumpTx _) => true
  | _, _ => false

/-- The bytes of the ring that are still to be sent. `uart_isr` sends the oldest one before it
steps `tx_consume`. -/
def pending (s : Transmitter) : List Byte :=
  if s.isr = some .bumpTx then s.driver.queued.tail else s.driver.queued

/-- The ring is set up: `uart_init` has executed its first statement. -/
def Ready (s : Transmitter) : Prop :=
  s.fg ≠ .init .clear

instance (s : Transmitter) : Decidable s.Quiescent :=
  inferInstanceAs (Decidable (_ ∧ _))

/-- When an act is possible. `uart_isr` may be entered whenever it is not running and UART
interrupts are unmasked, and a byte is added to the ring only below its 127 usable cells. -/
def Permits (s : Transmitter) : Act → Prop
  | .write _ | .setMask _ => s.Quiescent
  | .interrupt => s.isr = none ∧ test s.im IRQ_UART = true
  | .stall => True
  | .run => s.enqueues = true → s.driver.queued.length < 127

instance (s : Transmitter) : ∀ act, Decidable (s.Permits act)
  | .write _ | .setMask _ => inferInstanceAs (Decidable s.Quiescent)
  | .interrupt => inferInstanceAs (Decidable (_ ∧ _))
  | .stall => isTrue trivial
  | .run => inferInstanceAs (Decidable (_ → _))

end Transmitter

/-- The transmit path, from the call of `uart_init` on, which `main` of the BIOS makes with all
interrupts masked. While the CPU makes no access of its own to the UART, nothing is stored to
RXTX or STAT. -/
def machine : Machine Transmitter Tick where
  Initial s := s.port.uart.thre = true ∧ s.port.pushed = [] ∧ s.driver.forceSync = false ∧
    test s.im IRQ_UART = false ∧ s.fg = .init .clear ∧ s.isr = none ∧ s.written = []
  Allowed s t := s.port.Admits t.jtag ∧ sends t.bus = false ∧
    t.bus.writes Port.csrAddr 2 = false ∧ s.Permits t.act
  next := Transmitter.next

instance (s : Transmitter) (t : Tick) : Decidable (machine.Allowed s t) :=
  inferInstanceAs (Decidable (_ ∧ _ ∧ _ ∧ _))

/-! ## The invariant -/

/-- What links flag, ring and transmitter while no routine is between two of their updates. -/
def Settled (port : Port) (driver : UartDriver) : Prop :=
  (driver.txCts = true → port.Free ∧ driver.queued = []) ∧
    (driver.txCts = false → port.Signalled)

/-- The same after `uart_isr` has written `stat` back: an event it acknowledged is not answered
yet. -/
def Acknowledged (port : Port) (driver : UartDriver) (stat : Word) : Prop :=
  (bit stat 2 = true → port.Free ∧ driver.txCts = false) ∧
    (bit stat 2 = false → Settled port driver)

/-- The link at each statement of `uart_isr`. -/
def IsrPhase (port : Port) (driver : UartDriver) : IsrPc → Prop
  | .readStat | .irqAck => Settled port driver
  | .writeStat stat =>
      (bit stat 2 = true → port.uart.thre = true ∧ driver.txCts = false) ∧
        (bit stat 2 = false → Settled port driver)
  | .readRx stat | .bumpRx stat | .testTx stat => Acknowledged port driver stat
  | .sendTx => port.Free ∧ driver.txCts = false ∧ driver.txProduce ≠ driver.txConsume
  | .bumpTx => port.Signalled ∧ driver.txCts = false ∧ driver.txProduce ≠ driver.txConsume
  | .setCts => port.Free ∧ driver.queued = []

/-- The link at each statement outside `uart_isr`. -/
def ForegroundPhase (port : Port) (driver : UartDriver) : Foreground → Prop
  | .init .clear => port.uart.thre = true
  | .init .irqAck | .init .readStat =>
      port.uart.thre = true ∧ driver.txCts = true ∧ driver.queued = []
  | .init (.writeStat stat) => port.uart.thre = true ∧ driver.txCts = true ∧
      driver.queued = [] ∧ port.uart.txEvent = bit stat 2
  | .idle | .init _ | .write _ .getMask | .write _ (.clearMask _) | .write _ (.testSync _)
  | .write _ (.testCts _) | .write _ (.setMask _) => Settled port driver
  | .write _ (.sendSync _) | .write _ (.waitSync _) => False
  | .write _ (.clearCts _) => port.Free ∧ driver.queued = []
  | .write _ (.sendNow _) => port.Free ∧ driver.queued = [] ∧ driver.txCts = false
  | .write _ (.store _) => port.Signalled ∧ driver.txCts = false
  | .write c (.bumpTx _) => port.Signalled ∧ driver.txCts = false ∧
      driver.txBuf driver.txProduce = c

/-- The link at the statement of `uart_isr` that is next, or at the foreground's. -/
def Phase (port : Port) (driver : UartDriver) (fg : Foreground) : Option IsrPc → Prop
  | some pc => IsrPhase port driver pc
  | none => ForegroundPhase port driver fg

/-- The invariant of the transmit path. -/
structure Linked (s : Transmitter) : Prop where
  ring : s.Ready → s.driver.txProduce < UART_RINGBUFFER_SIZE_TX ∧
    s.driver.txConsume < UART_RINGBUFFER_SIZE_TX
  async : s.driver.forceSync = false
  masked : s.fg.interruptible = false → test s.im IRQ_UART = false
  interrupted : s.isr ≠ none → s.fg.interruptible = true
  fresh : ¬ s.Ready → s.port.sent = [] ∧ s.written = []
  ordered : s.Ready → s.port.sent ++ s.pending ++ s.fg.inHand = s.written
  phase : Phase s.port s.driver s.fg s.isr

section Cycle

variable {port : Port} {driver : UartDriver} {bus : CsrBus} {j : Jtag}

/-- A cycle without a store to RXTX or an acknowledgement keeps the link. -/
theorem Settled.cycle (h : Settled port driver) (hsend : sends bus = false)
    (hack : acknowledgesTx bus = false) : Settled (port.cycle bus j) driver :=
  ⟨fun hcts => ⟨Port.cycle_free (h.1 hcts).1 hsend, (h.1 hcts).2⟩,
    fun hcts => Port.cycle_signalled (h.2 hcts) hsend hack⟩

/-- The same for an acknowledged event. -/
theorem Acknowledged.cycle {stat : Word} (h : Acknowledged port driver stat)
    (hsend : sends bus = false) (hack : acknowledgesTx bus = false) :
    Acknowledged (port.cycle bus j) driver stat :=
  ⟨fun hstat => ⟨Port.cycle_free (h.1 hstat).1 hsend, (h.1 hstat).2⟩,
    fun hstat => (h.2 hstat).cycle hsend hack⟩

/-- An idle transmitter stays idle. -/
theorem cycle_thre (h : port.uart.thre = true) (hsend : sends bus = false) :
    (port.cycle bus j).uart.thre = true := by
  simp [Port.cycle_thre_eq, hsend, h]

/-- An idle transmitter raises no event of its own. -/
theorem cycle_txEvent (h : port.uart.thre = true) (hack : acknowledgesTx bus = false) :
    (port.cycle bus j).uart.txEvent = port.uart.txEvent := by
  simp [Port.cycle_txEvent_eq, hack, Port.jtagWe_of_thre h]

/-- An event is only there while `tx_cts` is clear, and then the transmitter is idle. -/
theorem Settled.event (h : Settled port driver) (hevent : port.uart.txEvent = true) :
    port.uart.thre = true ∧ driver.txCts = false := by
  cases hcts : driver.txCts with
  | true =>
      rw [(h.1 hcts).1.2] at hevent
      cases hevent
  | false => exact ⟨(h.2 hcts).trans hevent, rfl⟩

/-- When `stat` is written back the transmitter is idle, so no second event is lost with the one in
`stat`. -/
theorem Acknowledged.of_writeStat {stat : Word} (h : IsrPhase port driver (.writeStat stat)) :
    Acknowledged (port.cycle (.store STAT stat) j) driver stat := by
  refine ⟨fun hstat => ?_, fun hstat => ?_⟩
  · obtain ⟨hthre, hcts⟩ := h.1 hstat
    exact ⟨Port.cycle_acknowledgeTx hthre (Port.sends_store_stat stat) (by simpa using hstat), hcts⟩
  · exact (h.2 hstat).cycle (Port.sends_store_stat stat) (by simpa using hstat)

/-- Each phase of `uart_isr` survives such a cycle. -/
theorem IsrPhase.cycle {pc : IsrPc} (h : IsrPhase port driver pc) (hsend : sends bus = false)
    (hack : acknowledgesTx bus = false) : IsrPhase (port.cycle bus j) driver pc := by
  cases pc with
  | readStat | irqAck => exact Settled.cycle h hsend hack
  | writeStat stat =>
      exact ⟨fun hstat => ⟨cycle_thre (h.1 hstat).1 hsend, (h.1 hstat).2⟩,
        fun hstat => (h.2 hstat).cycle hsend hack⟩
  | readRx stat | bumpRx stat | testTx stat => exact Acknowledged.cycle h hsend hack
  | sendTx | setCts => exact ⟨Port.cycle_free h.1 hsend, h.2⟩
  | bumpTx => exact ⟨Port.cycle_signalled h.1 hsend hack, h.2⟩

/-- Each phase of the foreground survives such a cycle. -/
theorem ForegroundPhase.cycle {fg : Foreground} (h : ForegroundPhase port driver fg)
    (hsend : sends bus = false) (hack : acknowledgesTx bus = false) :
    ForegroundPhase (port.cycle bus j) driver fg := by
  cases fg with
  | idle => exact Settled.cycle h hsend hack
  | init pc =>
      cases pc with
      | clear => exact cycle_thre h hsend
      | irqAck | readStat => exact ⟨cycle_thre h.1 hsend, h.2⟩
      | writeStat stat =>
          obtain ⟨hthre, hcts, hqueued, hevent⟩ := h
          exact ⟨cycle_thre hthre hsend, hcts, hqueued, (cycle_txEvent hthre hack).trans hevent⟩
      | setCtrl | getMask | setMask => exact Settled.cycle h hsend hack
  | write c pc =>
      cases pc with
      | getMask | clearMask | testSync | testCts | setMask => exact Settled.cycle h hsend hack
      | sendSync | waitSync => exact h
      | clearCts | sendNow => exact ⟨Port.cycle_free h.1 hsend, h.2⟩
      | store | bumpTx => exact ⟨Port.cycle_signalled h.1 hsend hack, h.2⟩

end Cycle

/-! ## Steps -/

section Steps

variable {s : Transmitter} {bus : CsrBus} {j : Jtag}

/-- Where `uart_isr` may interrupt, the link does not depend on the foreground. -/
theorem foregroundPhase_iff {port : Port} {driver : UartDriver} {fg : Foreground}
    (hfg : fg.interruptible = true) :
    ForegroundPhase port driver fg ↔ Settled port driver := by
  cases fg with
  | idle => rfl
  | init => simp [Foreground.interruptible] at hfg
  | write c pc => cases pc <;> simp_all [Foreground.interruptible, ForegroundPhase]

/-- An interrupted foreground has the ring set up. -/
theorem ready_of_interruptible (hfg : s.fg.interruptible = true) : s.Ready := by
  intro hclear
  simp [hclear, Foreground.interruptible] at hfg

/-- What a statement of `uart_isr` has to provide. -/
theorem Linked.isr (h : Linked s) (hisr : s.isr ≠ none) {port : Port} {driver : UartDriver}
    {isr : Option IsrPc} (hring : driver.txProduce = s.driver.txProduce ∧
      driver.txConsume < UART_RINGBUFFER_SIZE_TX)
    (hasync : driver.forceSync = s.driver.forceSync)
    (hordered : port.sent ++ (if isr = some .bumpTx then driver.queued.tail else driver.queued) =
      s.port.sent ++ s.pending)
    (hphase : Phase port driver .idle isr) : Linked { s with port, driver, isr } := by
  have hfg := h.interrupted hisr
  have hready := ready_of_interruptible hfg
  refine ⟨fun _ => ⟨hring.1 ▸ (h.ring hready).1, hring.2⟩, hasync.trans h.async, h.masked,
    fun _ => hfg, fun hn => absurd hready hn, fun _ => ?_, ?_⟩
  · show port.sent ++ (if isr = some .bumpTx then driver.queued.tail else driver.queued) ++ _ = _
    rw [hordered, h.ordered hready]
  · cases isr with
    | none => exact (foregroundPhase_iff hfg).2 hphase
    | some pc => exact hphase

/-- Every statement of `uart_isr` keeps the invariant. -/
theorem Linked.run_isr (h : Linked s) (hsend : sends bus = false)
    (hack : acknowledgesTx bus = false) {pc : IsrPc} (hpc : s.isr = some pc) :
    Linked (s.run bus j) := by
  have hisr : s.isr ≠ none := by simp [hpc]
  have hphase : IsrPhase s.port s.driver pc := by
    have hphase := h.phase
    rw [hpc] at hphase
    exact hphase
  obtain ⟨hproduce, hconsume⟩ := h.ring (ready_of_interruptible (h.interrupted hisr))
  simp only [Transmitter.run, Transmitter.access, hpc]
  cases pc with
  | readStat =>
      refine h.isr hisr ⟨rfl, hconsume⟩ rfl ?_ ?_
      · simp [uartIsr, Transmitter.pending, hpc, Port.cycle_sent]
      · have hafter := Settled.cycle (j := j) hphase (Port.sends_load STAT)
          (Port.acknowledgesTx_load STAT)
        refine ⟨fun hstat => ?_, fun _ => hafter⟩
        obtain ⟨hthre, hcts⟩ := Settled.event hphase (by simpa [uartIsr] using hstat)
        exact ⟨cycle_thre hthre (Port.sends_load STAT), hcts⟩
  | writeStat stat =>
      refine h.isr hisr ⟨rfl, hconsume⟩ rfl ?_ ?_
      · cases hrx : bit stat 1 <;>
          simp [uartIsr, Transmitter.pending, hpc, Port.cycle_sent, hrx]
      · have hafter := Acknowledged.of_writeStat (j := j) hphase
        cases hrx : bit stat 1 <;> simpa [uartIsr, hrx, Phase, IsrPhase] using hafter
  | readRx stat =>
      refine h.isr hisr ⟨rfl, hconsume⟩ rfl ?_ ?_
      · simp [uartIsr, Transmitter.pending, hpc, Port.cycle_sent, UartDriver.queued]
      · exact Acknowledged.cycle hphase (Port.sends_load RXTX)
          (Port.acknowledgesTx_load RXTX)
  | bumpRx stat =>
      refine h.isr hisr ⟨rfl, hconsume⟩ rfl ?_ ?_
      · simp [uartIsr, Transmitter.pending, hpc, Port.cycle_sent hsend, UartDriver.queued]
      · exact Acknowledged.cycle hphase hsend hack
  | testTx stat =>
      have hafter := Acknowledged.cycle (j := j) hphase hsend hack
      have hempty := Library.Ring.queued_eq_nil s.driver.txBuf hproduce hconsume
      cases htx : bit stat 2 with
      | false =>
          refine h.isr hisr ⟨rfl, hconsume⟩ rfl ?_ ?_
          · simp [uartIsr, Transmitter.pending, hpc, Port.cycle_sent hsend, htx]
          · simpa [uartIsr, htx, Phase, IsrPhase] using hafter.2 htx
      | true =>
          obtain ⟨hfree, hcts⟩ := hafter.1 htx
          by_cases hne : s.driver.txProduce = s.driver.txConsume
          · refine h.isr hisr ⟨rfl, hconsume⟩ rfl ?_ ?_
            · simp [uartIsr, Transmitter.pending, hpc, Port.cycle_sent hsend, htx, hne]
            · have hset : Phase (s.port.cycle bus j) s.driver .idle (some .setCts) :=
                ⟨hfree, hempty.2 hne⟩
              simpa [uartIsr, htx, hne] using hset
          · refine h.isr hisr ⟨rfl, hconsume⟩ rfl ?_ ?_
            · simp [uartIsr, Transmitter.pending, hpc, Port.cycle_sent hsend, htx, hne]
            · have hsend : Phase (s.port.cycle bus j) s.driver .idle (some .sendTx) :=
                ⟨hfree, hcts, hne⟩
              simpa [uartIsr, htx, hne] using hsend
  | sendTx =>
      -- the byte leaves the ring with this store, before `tx_consume` is stepped
      obtain ⟨hfree, hcts, hne⟩ := hphase
      have hpop := Library.Ring.queued_pop s.driver.txBuf hproduce hconsume hne
      refine h.isr hisr ⟨rfl, hconsume⟩ rfl ?_ ?_
      · simp [uartIsr, Transmitter.pending, hpc, Port.cycle_store_rxtx hfree.1,
          UartDriver.queued, hpop]
      · exact ⟨Port.cycle_send_signalled hfree (Port.sends_store_rxtx _)
          (Port.acknowledgesTx_store_rxtx _), hcts, hne⟩
  | bumpTx =>
      obtain ⟨hsignalled, hcts, hne⟩ := hphase
      have hpop := Library.Ring.queued_pop s.driver.txBuf hproduce hconsume hne
      refine h.isr hisr ⟨rfl, Library.Ring.next_lt hconsume⟩ rfl ?_ ?_
      · simp [uartIsr, Transmitter.pending, hpc, Port.cycle_sent hsend, UartDriver.queued, hpop,
          UartDriver.nextTx]
      · exact ⟨fun hcts' => by simp [uartIsr, hcts] at hcts',
          fun _ => Port.cycle_signalled hsignalled hsend hack⟩
  | setCts =>
      refine h.isr hisr ⟨rfl, hconsume⟩ rfl ?_ ?_
      · simp [uartIsr, Transmitter.pending, hpc, Port.cycle_sent hsend, UartDriver.queued]
      · exact ⟨fun _ => ⟨Port.cycle_free hphase.1 hsend, hphase.2⟩, fun hcts => by
          simp [uartIsr] at hcts⟩
  | irqAck =>
      refine h.isr hisr ⟨rfl, hconsume⟩ rfl ?_ ?_
      · simp [uartIsr, Transmitter.pending, hpc, Port.cycle_sent hsend]
      · exact Settled.cycle hphase hsend hack

/-- What a statement of the foreground has to provide once the ring is set up. -/
theorem Linked.foreground (h : Linked s) (hisr : s.isr = none) (hready : s.Ready) {port : Port}
    {driver : UartDriver} {im : Word} {fg : Foreground}
    (hring : driver.txProduce < UART_RINGBUFFER_SIZE_TX ∧
      driver.txConsume < UART_RINGBUFFER_SIZE_TX)
    (hasync : driver.forceSync = s.driver.forceSync)
    (hmasked : fg.interruptible = false → test im IRQ_UART = false) (hclear : fg ≠ .init .clear)
    (hordered : port.sent ++ driver.queued ++ fg.inHand =
      s.port.sent ++ s.driver.queued ++ s.fg.inHand)
    (hphase : ForegroundPhase port driver fg) :
    Linked ⟨port, driver, im, fg, none, s.written⟩ := by
  have hpending : s.pending = s.driver.queued := by simp [Transmitter.pending, hisr]
  have hwritten := h.ordered hready
  rw [hpending, ← hordered] at hwritten
  exact ⟨fun _ => hring, hasync.trans h.async, hmasked, by simp, fun hn => absurd hclear hn,
    fun _ => hwritten, hphase⟩

/-- Every statement of `uart_init` keeps the invariant. -/
theorem Linked.run_init (h : Linked s) (hsend : sends bus = false)
    (hack : acknowledgesTx bus = false) (hisr : s.isr = none) {pc : InitPc}
    (hfg : s.fg = .init pc) : Linked (s.run bus j) := by
  have hphase : ForegroundPhase s.port s.driver (.init pc) := by
    have hphase := h.phase
    rw [hisr, hfg] at hphase
    exact hphase
  have hmasked : test s.im IRQ_UART = false := h.masked (by simp [hfg, Foreground.interruptible])
  simp only [Transmitter.run, Transmitter.access, hisr, hfg]
  by_cases hclear : pc = .clear
  · subst hclear
    have hnot : ¬ s.Ready := fun hready => hready hfg
    obtain ⟨hsent, hwritten⟩ := h.fresh hnot
    have hsize : 0 < UART_RINGBUFFER_SIZE_TX := by decide
    refine ⟨fun _ => ⟨hsize, hsize⟩, h.async, fun _ => hmasked, by simp,
      fun hn => ?_, fun _ => ?_, ?_⟩
    · exact absurd (by simp [uartInit, Transmitter.Ready]) hn
    · simp [uartInit, Transmitter.pending, Port.cycle_sent hsend, hsent, hwritten,
        Foreground.inHand, UartDriver.queued, Library.Ring.queued, Library.Ring.count,
        UART_RINGBUFFER_SIZE_TX]
    · exact ⟨cycle_thre hphase hsend, rfl, by
        simp [uartInit, UartDriver.queued, Library.Ring.queued, Library.Ring.count,
          UART_RINGBUFFER_SIZE_TX]⟩
  · have hready : s.Ready := by simp [Transmitter.Ready, hfg, hclear]
    have hring := h.ring hready
    cases pc with
    | clear => exact absurd rfl hclear
    | irqAck =>
        refine h.foreground hisr hready hring rfl (fun _ => hmasked) (by simp [uartInit]) ?_ ?_
        · simp [uartInit, Port.cycle_sent hsend, hfg, Foreground.inHand]
        · exact ⟨cycle_thre hphase.1 hsend, hphase.2⟩
    | readStat =>
        refine h.foreground hisr hready hring rfl (fun _ => hmasked) (by simp [uartInit]) ?_ ?_
        · simp [uartInit, Port.cycle_sent, hfg, Foreground.inHand]
        · refine ⟨cycle_thre hphase.1 (Port.sends_load STAT), hphase.2.1, hphase.2.2, ?_⟩
          simp [uartInit, cycle_txEvent hphase.1 (Port.acknowledgesTx_load STAT)]
    | writeStat stat =>
        obtain ⟨hthre, hcts, hqueued, hevent⟩ := hphase
        refine h.foreground hisr hready hring rfl (fun _ => hmasked) (by simp [uartInit]) ?_ ?_
        · simp [uartInit, Port.cycle_sent, hfg, Foreground.inHand]
        · -- The event read before is acknowledged, and an idle transmitter raises no other one.
          have hfree : (s.port.cycle (.store STAT stat) j).Free := by
            cases hstat : bit stat 2 with
            | true =>
                exact Port.cycle_acknowledgeTx hthre (Port.sends_store_stat stat)
                  (by simpa using hstat)
            | false =>
                exact Port.cycle_free ⟨hthre, hevent.trans hstat⟩ (Port.sends_store_stat stat)
          exact ⟨fun _ => ⟨hfree, hqueued⟩, fun hcts' => by simp [uartInit, hcts] at hcts'⟩
    | setCtrl =>
        refine h.foreground hisr hready hring rfl (fun _ => hmasked) (by simp [uartInit]) ?_ ?_
        · simp [uartInit, Port.cycle_sent, hfg, Foreground.inHand]
        · exact Settled.cycle hphase (Port.sends_store_ctrl _) (Port.acknowledgesTx_store_ctrl _)
    | getMask =>
        refine h.foreground hisr hready hring rfl (fun _ => hmasked) (by simp [uartInit]) ?_ ?_
        · simp [uartInit, Port.cycle_sent hsend, hfg, Foreground.inHand]
        · exact Settled.cycle hphase hsend hack
    | setMask =>
        -- from here on UART interrupts are unmasked
        refine h.foreground hisr hready hring rfl (by simp [uartInit, Foreground.interruptible])
          (by simp [uartInit]) ?_ ?_
        · simp [uartInit, Port.cycle_sent hsend, hfg, Foreground.inHand]
        · exact Settled.cycle hphase hsend hack

/-- Every statement of `uart_write` keeps the invariant. -/
theorem Linked.run_write (h : Linked s) (hsend : sends bus = false)
    (hack : acknowledgesTx bus = false)
    (hroom : s.enqueues = true → s.driver.queued.length < 127) (hisr : s.isr = none) {c : Byte}
    {pc : WritePc} (hfg : s.fg = .write c pc) : Linked (s.run bus j) := by
  have hphase : ForegroundPhase s.port s.driver (.write c pc) := by
    have hphase := h.phase
    rw [hisr, hfg] at hphase
    exact hphase
  have hready : s.Ready := by simp [Transmitter.Ready, hfg]
  have hring := h.ring hready
  have hmasked := h.masked
  rw [hfg] at hmasked
  simp only [Transmitter.run, Transmitter.access, hisr, hfg]
  cases pc with
  | getMask =>
      refine h.foreground hisr hready hring rfl (by simp [uartWrite, Foreground.interruptible])
        (by simp [uartWrite]) ?_ ?_
      · simp [uartWrite, Port.cycle_sent hsend, hfg, Foreground.inHand]
      · exact Settled.cycle hphase hsend hack
  | clearMask oldmask =>
      refine h.foreground hisr hready hring rfl (fun _ => test_zero _) (by simp [uartWrite]) ?_ ?_
      · simp [uartWrite, Port.cycle_sent hsend, hfg, Foreground.inHand]
      · exact Settled.cycle hphase hsend hack
  | testSync oldmask =>
      have hasync := h.async
      refine h.foreground hisr hready hring rfl (fun _ => hmasked rfl) (by simp [uartWrite]) ?_ ?_
      · simp [uartWrite, Port.cycle_sent hsend, hfg, Foreground.inHand, hasync]
      · simp only [uartWrite, hasync]
        exact Settled.cycle hphase hsend hack
  | sendSync | waitSync => exact hphase.elim
  | testCts oldmask =>
      have hafter := Settled.cycle (j := j) hphase hsend hack
      cases hcts : s.driver.txCts with
      | true =>
          refine h.foreground hisr hready hring rfl (fun _ => hmasked rfl)
            (by simp [uartWrite]) ?_ ?_
          · simp [uartWrite, Port.cycle_sent hsend, hfg, Foreground.inHand, hcts]
          · simp only [uartWrite, hcts]
            exact hafter.1 hcts
      | false =>
          refine h.foreground hisr hready hring rfl (fun _ => hmasked rfl)
            (by simp [uartWrite]) ?_ ?_
          · simp [uartWrite, Port.cycle_sent hsend, hfg, Foreground.inHand, hcts]
          · simp only [uartWrite, hcts]
            exact ⟨hafter.2 hcts, hcts⟩
  | clearCts oldmask =>
      refine h.foreground hisr hready hring rfl (fun _ => hmasked rfl) (by simp [uartWrite]) ?_ ?_
      · simp [uartWrite, Port.cycle_sent hsend, hfg, Foreground.inHand, UartDriver.queued]
      · exact ⟨Port.cycle_free hphase.1 hsend, hphase.2, rfl⟩
  | sendNow oldmask =>
      obtain ⟨hfree, hqueued, hcts⟩ := hphase
      refine h.foreground hisr hready hring rfl (fun _ => hmasked rfl) (by simp [uartWrite]) ?_ ?_
      · simp [uartWrite, Port.cycle_store_rxtx hfree.1, hfg, Foreground.inHand, hqueued]
      · exact ⟨fun hcts' => by simp [uartWrite, hcts] at hcts',
          fun _ => Port.cycle_send_signalled hfree (Port.sends_store_rxtx _)
            (Port.acknowledgesTx_store_rxtx _)⟩
  | store oldmask =>
      -- the cell is free, and not seen before `tx_produce` is stepped
      have hqueued := Library.Ring.queued_update s.driver.txBuf hring.1 hring.2 c
      refine h.foreground hisr hready hring rfl (fun _ => hmasked rfl) (by simp [uartWrite]) ?_ ?_
      · simp [uartWrite, Port.cycle_sent hsend, hfg, Foreground.inHand, UartDriver.queued, hqueued]
      · exact ⟨Port.cycle_signalled hphase.1 hsend hack, hphase.2, Function.update_self ..⟩
  | bumpTx oldmask =>
      obtain ⟨hsignalled, hcts, hc⟩ := hphase
      have hlength := hroom (by simp [Transmitter.enqueues, hisr, hfg])
      have hpush := Library.Ring.queued_push s.driver.txBuf hring.1 hring.2
        (by simp only [UartDriver.queued, Library.Ring.queued_length,
              UART_RINGBUFFER_SIZE_TX] at hlength ⊢; omega)
      refine h.foreground hisr hready ⟨Library.Ring.next_lt hring.1, hring.2⟩ rfl
        (fun _ => hmasked rfl) (by simp [uartWrite]) ?_ ?_
      · simp [uartWrite, Port.cycle_sent hsend, hfg, Foreground.inHand, UartDriver.queued,
          UartDriver.nextTx, hpush, hc]
      · exact ⟨fun hcts' => by simp [uartWrite, hcts] at hcts',
          fun _ => Port.cycle_signalled hsignalled hsend hack⟩
  | setMask oldmask =>
      refine h.foreground hisr hready hring rfl (by simp [uartWrite, Foreground.interruptible])
        (by simp [uartWrite]) ?_ ?_
      · simp [uartWrite, Port.cycle_sent hsend, hfg, Foreground.inHand]
      · exact Settled.cycle hphase hsend hack

/-- A cycle that goes by keeps the invariant. -/
theorem Linked.stall (h : Linked s) (hsend : sends bus = false)
    (hack : acknowledgesTx bus = false) : Linked { s with port := s.port.cycle bus j } := by
  refine ⟨h.ring, h.async, h.masked, h.interrupted, fun hn => ?_, fun hready => ?_, ?_⟩
  · exact ⟨(Port.cycle_sent hsend).trans (h.fresh hn).1, (h.fresh hn).2⟩
  · show (s.port.cycle bus j).sent ++ s.pending ++ s.fg.inHand = s.written
    rw [Port.cycle_sent hsend]
    exact h.ordered hready
  · have hphase := h.phase
    cases hisr : s.isr with
    | none =>
        rw [hisr] at hphase
        exact ForegroundPhase.cycle hphase hsend hack
    | some pc =>
        rw [hisr] at hphase
        exact IsrPhase.cycle hphase hsend hack

/-- A statement of whatever is running keeps the invariant. -/
theorem Linked.run (h : Linked s) (hsend : sends bus = false) (hack : acknowledgesTx bus = false)
    (hroom : s.enqueues = true → s.driver.queued.length < 127) : Linked (s.run bus j) := by
  cases hisr : s.isr with
  | some pc => exact h.run_isr hsend hack hisr
  | none =>
      cases hfg : s.fg with
      | idle =>
          simpa [Transmitter.run, Transmitter.access, hisr, hfg] using h.stall (j := j) hsend hack
      | init pc => exact h.run_init hsend hack hisr hfg
      | write c pc => exact h.run_write hsend hack hroom hisr hfg

end Steps

/-- The call of `uart_init` satisfies the invariant. -/
theorem linked_initial {s : Transmitter} (h : machine.Initial s) : Linked s := by
  obtain ⟨hthre, hpushed, hasync, hmasked, hfg, hisr, hwritten⟩ := h
  have hnot : ¬ s.Ready := fun hready => hready hfg
  refine ⟨fun hr => absurd hr hnot, hasync, fun _ => hmasked, by simp [hisr],
    fun _ => ⟨by simp [Port.sent, Port.waiting, hthre, hpushed], hwritten⟩,
    fun hr => absurd hr hnot, ?_⟩
  rw [hfg, hisr]
  exact hthre

/-- Every step keeps the invariant. -/
theorem linked_next {s : Transmitter} {t : Tick} (h : Linked s) (hallowed : machine.Allowed s t) :
    Linked (machine.next s t) := by
  obtain ⟨-, hsend, hstat, hact⟩ := hallowed
  have hack : acknowledgesTx t.bus = false := by
    rw [acknowledgesTx, hstat, Bool.false_and]
  cases ht : t.act with
  | write c =>
      rw [ht] at hact
      obtain ⟨hisr, hfg⟩ := hact
      have hready : s.Ready := by simp [Transmitter.Ready, hfg]
      have hphase : Settled s.port s.driver := by
        have hphase := h.phase
        rw [hisr, hfg] at hphase
        exact hphase
      have hwritten := h.ordered hready
      simp only [machine, Transmitter.next, ht]
      -- the new byte is in the hands of `uart_write`
      refine ⟨fun _ => h.ring hready, h.async, by simp [Foreground.interruptible], by simp [hisr],
        fun hn => absurd (by simp [Transmitter.Ready]) hn, fun _ => ?_, ?_⟩
      · simp only [Transmitter.pending, hisr, hfg, Foreground.inHand, reduceCtorEq, if_false,
          List.append_nil] at hwritten ⊢
        rw [hwritten]
      · rw [hisr]
        exact hphase
  | setMask mask =>
      rw [ht] at hact
      obtain ⟨hisr, hfg⟩ := hact
      simp only [machine, Transmitter.next, ht]
      exact ⟨h.ring, h.async, by simp [hfg, Foreground.interruptible], h.interrupted, h.fresh,
        h.ordered, h.phase⟩
  | interrupt =>
      rw [ht] at hact
      obtain ⟨hisr, him⟩ := hact
      have hfg : s.fg.interruptible = true := by
        cases hfg : s.fg.interruptible with
        | true => rfl
        | false => exact absurd him (h.masked hfg ▸ Bool.false_ne_true)
      have hready := ready_of_interruptible hfg
      have hphase := h.phase
      rw [hisr] at hphase
      simp only [machine, Transmitter.next, ht]
      refine ⟨fun _ => h.ring hready, h.async, h.masked, fun _ => hfg,
        fun hn => absurd hready hn, fun _ => ?_, (foregroundPhase_iff hfg).1 hphase⟩
      have hwritten := h.ordered hready
      simpa [Transmitter.pending, hisr] using hwritten
  | stall => simpa only [machine, Transmitter.next, ht] using h.stall (j := t.jtag) hsend hack
  | run =>
      rw [ht] at hact
      simpa only [machine, Transmitter.next, ht] using h.run (j := t.jtag) hsend hack hact

/-- The invariant holds in every run. -/
theorem linked_of_reachable {s : Transmitter} (h : machine.Reachable s) : Linked s :=
  Machine.invariant (fun _ => linked_initial) (fun _ _ => linked_next) h

/-- A statement that stores to RXTX finds the transmitter idle. -/
theorem Linked.thre {s : Transmitter} (h : Linked s) {bus : CsrBus} (haccess : s.access = some bus)
    (hsend : sends bus = true) : s.port.uart.thre = true := by
  have hphase := h.phase
  cases hisr : s.isr with
  | some pc =>
      rw [hisr] at hphase
      simp only [Transmitter.access, hisr] at haccess
      cases pc with
      | sendTx => exact hphase.1.1
      | readStat | writeStat | readRx =>
          cases haccess
          simp at hsend
      | bumpRx | testTx | bumpTx | setCts | irqAck => cases haccess
  | none =>
      rw [hisr] at hphase
      cases hfg : s.fg with
      | idle => simp [Transmitter.access, hisr, hfg] at haccess
      | init pc =>
          simp only [Transmitter.access, hisr, hfg] at haccess
          cases pc <;> cases haccess <;> simp at hsend
      | write c pc =>
          rw [hfg] at hphase
          simp only [Transmitter.access, hisr, hfg] at haccess
          cases pc with
          | sendNow => exact hphase.1.1
          | sendSync | waitSync => exact hphase.elim
          | getMask | clearMask | testSync | testCts | clearCts | store | bumpTx | setMask =>
              cases haccess

/-- In every run, RXTX is only stored to while `thre` is set, the bytes passed to `uart_write` are
on their way to the host in order, and a transmitter that waits for an event will see one. -/
theorem transmit_exact {s : Transmitter} (h : machine.Reachable s) :
    (∀ bus, s.access = some bus → sends bus = true → s.port.uart.thre = true) ∧
      (s.Ready → s.port.pushed ++ s.port.waiting ++ s.pending ++ s.fg.inHand = s.written) ∧
      (s.Quiescent → s.port.pushed ++ s.port.waiting ++ s.driver.queued = s.written) ∧
      (s.Quiescent → s.driver.txCts = false →
        s.port.uart.thre = false ∨ s.port.uart.txEvent = true) := by
  have hlinked := linked_of_reachable h
  refine ⟨fun _ => hlinked.thre, hlinked.ordered, fun hquiet => ?_, fun hquiet hcts => ?_⟩
  · obtain ⟨hisr, hfg⟩ := hquiet
    have hwritten := hlinked.ordered (by simp [Transmitter.Ready, hfg])
    simpa [Transmitter.pending, hisr, hfg, Foreground.inHand, Port.sent] using hwritten
  · obtain ⟨hisr, hfg⟩ := hquiet
    have hphase := hlinked.phase
    rw [hisr, hfg] at hphase
    have hsignalled : s.port.uart.thre = s.port.uart.txEvent := hphase.2 hcts
    cases hthre : s.port.uart.thre with
    | false => exact .inl rfl
    | true => exact .inr (hsignalled.symm.trans hthre)

/-- The call of `uart_init` on an idle UART with an old event pending. -/
def start : Transmitter where
  port := ⟨{ Uart.reset with txEvent := true }, [], 0, [], []⟩
  driver := ⟨fun _ => 0, 0, 0, fun _ => 0, 0, 0, false, false⟩
  im := 0
  fg := .init .clear
  isr := none
  written := []

/-- A cycle in which `act` happens and the CPU→JTAG FIFO has room, unless it is `full`. -/
def tick (act : Act) (full : Bool) : Tick :=
  ⟨act, .load 0, ⟨none, true, full, 0⟩⟩

/-- `uart_init`, two calls of `uart_write` while the FIFO is full, room for the first byte, and
`uart_isr` sending the second one. -/
def twoBytesRun : List Tick :=
  List.replicate 7 (tick .run true) ++ tick (.write 0x61) true ::
    List.replicate 7 (tick .run true) ++
    tick (.write 0x62) true :: List.replicate 7 (tick .run true) ++
    [tick .stall false, tick .interrupt true] ++ List.replicate 6 (tick .run true)

/-- The law at the end of that run. -/
theorem transmit_exact_run :
    (machine.run start twoBytesRun).port.pushed = [0x61] ∧
      (machine.run start twoBytesRun).port.waiting = [0x62] ∧
      (machine.run start twoBytesRun).port.pushed ++ (machine.run start twoBytesRun).port.waiting ++
        (machine.run start twoBytesRun).driver.queued =
          (machine.run start twoBytesRun).written := by
  have hreach : machine.Reachable (machine.run start twoBytesRun) :=
    .run (.initial (M := machine) ⟨rfl, rfl, rfl, rfl, rfl, rfl, rfl⟩) (by decide)
  exact ⟨by decide, by decide, (transmit_exact hreach).2.2.1 (by decide)⟩

end Soc.Uart.Transmit
