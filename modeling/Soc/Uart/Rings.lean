import Soc.Libbase.Console
import Soc.Uart.Transmit

/-!
# The two rings of the UART driver

All of `libbase/uart.c` on one CPU: the application calls `uart_write`, `uart_read` and
`uart_force_sync` and changes the interrupt mask at will, `uart_isr` may interrupt whenever
UART interrupts are unmasked, and any number of cycles passes before each statement. Two
tables record which cells of `tx_buf` hold a byte that is not sent yet and which cells of
`rx_buf` one that is not read yet. Neither producer looks at the consumer index:
`rings_never_overflow_iff` says that the rings are safe in exactly the runs in which there
happens to be room whenever a producer index is stepped, and `tx_ring_overflows` is a run in
which there is none.
-/

namespace Soc.Uart.Rings

open Library (Machine)
open Library.Ring (Tracks count)
open Gdbstub (ascii)
open Libbase (ForceSyncPc IRQ_UART IsrPc InitPc ReadPc UART_RINGBUFFER_SIZE_RX
  UART_RINGBUFFER_SIZE_TX UartDriver WritePc uartForceSync uartInit uartIsr uartRead uartWrite)
open Port (sends)
open Transmit (Transmitter)

/-- The functions the application runs besides `uart_write`. -/
inductive Call where
  | read (pc : ReadPc)
  | forceSync (f : Bool) (pc : ForceSyncPc)
  deriving DecidableEq

/-- The UART with its driver, the other call in progress, and the cells of the two rings that hold
a byte not sent or not read yet. -/
structure Driver where
  tx : Transmitter
  call : Option Call
  unsent : Nat → Bool
  unread : Nat → Bool

/-- What happens next: an act of the transmit path, where `run` executes a statement of whatever is
running, or another call of the application. -/
inductive Act where
  | uart (act : Transmit.Act)
  | read
  | forceSync (f : Bool)
  deriving DecidableEq

/-- A choice of the environment, with the bus cycle that goes by if the running code makes no
access to the UART itself. -/
structure Tick where
  act : Act
  bus : CsrBus
  jtag : Jtag

/-- `uart_isr` has sent its byte and has not stepped `tx_consume` yet. -/
def sent : Option IsrPc → Bool
  | some .bumpTx => true
  | _ => false

/-- `uart_read` has its byte and has not stepped `rx_consume` yet. -/
def loaded : Option Call → Bool
  | some (.read (.bump _)) => true
  | _ => false

namespace Driver

/-- The next statement steps `rx_produce`. -/
def receives (s : Driver) : Bool :=
  match s.tx.isr with
  | some (.bumpRx _) => true
  | _ => false

/-- The cells of `tx_buf` to be sent after the next statement: a byte counts from the step of
`tx_produce` until the store to RXTX. -/
def nextUnsent (s : Driver) : Nat → Bool :=
  match s.tx.isr, s.tx.fg with
  | some .sendTx, _ => Function.update s.unsent s.tx.driver.txConsume false
  | none, .write _ (.bumpTx _) => Function.update s.unsent s.tx.driver.txProduce true
  | _, _ => s.unsent

/-- The cells of `rx_buf` to be read after the next statement: a byte counts from the step of
`rx_produce` until `uart_read` loads it. -/
def nextUnread (s : Driver) : Nat → Bool :=
  match s.tx.isr, s.call with
  | some (.bumpRx _), _ => Function.update s.unread s.tx.driver.rxProduce true
  | none, some (.read .load) => Function.update s.unread s.tx.driver.rxConsume false
  | _, _ => s.unread

/-- Execute the next statement of `uart_isr` if it is running, of the call in progress if there is
one, and of `uart_init` or `uart_write` otherwise. -/
def run (s : Driver) (bus : CsrBus) (j : Jtag) : Driver :=
  match s.tx.isr, s.call with
  | none, some (.read pc) =>
      let following := uartRead.next s.tx.driver pc 0
      { tx := { s.tx with port := s.tx.port.cycle bus j, driver := following.1 }
        call := match following.2 with | .inl pc' => some (.read pc') | .inr _ => none
        unsent := s.nextUnsent
        unread := s.nextUnread }
  | none, some (.forceSync f pc) =>
      let following := (uartForceSync f).next s.tx.driver pc 0
      { tx := { s.tx with port := s.tx.port.cycle bus j, driver := following.1 }
        call := match following.2 with | .inl pc' => some (.forceSync f pc') | .inr _ => none
        unsent := s.nextUnsent
        unread := s.nextUnread }
  | _, _ => { s with tx := s.tx.run bus j, unsent := s.nextUnsent, unread := s.nextUnread }

/-- One choice of the environment. -/
def next (s : Driver) (t : Tick) : Driver :=
  match t.act with
  | .uart .run => s.run t.bus t.jtag
  | .uart act => { s with tx := s.tx.next ⟨act, t.bus, t.jtag⟩ }
  | .read => { s with call := some (.read .wait) }
  | .forceSync f => { s with call := some (.forceSync f .wait) }

/-- The application is not inside a function of the driver, and not interrupted. -/
def Quiescent (s : Driver) : Prop :=
  s.tx.Quiescent ∧ s.call = none

instance (s : Driver) : Decidable s.Quiescent :=
  inferInstanceAs (Decidable (_ ∧ _))

/-- When an act is possible. `uart_isr` may be entered whenever it is not running and UART
interrupts are unmasked. -/
def Permits (s : Driver) : Act → Prop
  | .read | .forceSync _ | .uart (.write _) | .uart (.setMask _) => s.Quiescent
  | .uart .interrupt => s.tx.isr = none ∧ test s.tx.im IRQ_UART = true
  | .uart .stall | .uart .run => True

instance (s : Driver) : ∀ act, Decidable (s.Permits act)
  | .read | .forceSync _ | .uart (.write _) | .uart (.setMask _) =>
      inferInstanceAs (Decidable s.Quiescent)
  | .uart .interrupt => inferInstanceAs (Decidable (_ ∧ _))
  | .uart .stall | .uart .run => isTrue trivial

end Driver

/-- The driver, from the call of `uart_init` on, which `main` of the BIOS makes with all
interrupts masked. While the CPU makes no access of its own to the UART, nothing is stored to
RXTX or STAT. -/
def machine : Machine Driver Tick where
  Initial s := test s.tx.im IRQ_UART = false ∧ s.tx.fg = .init .clear ∧ s.tx.isr = none ∧
    s.call = none ∧ ∀ i, s.unsent i = false ∧ s.unread i = false
  Allowed s t := s.tx.port.Admits t.jtag ∧ sends t.bus = false ∧
    t.bus.writes Port.csrAddr 2 = false ∧ s.Permits t.act
  next := Driver.next

instance (s : Driver) (t : Tick) : Decidable (machine.Allowed s t) :=
  inferInstanceAs (Decidable (_ ∧ _ ∧ _ ∧ _))

/-- No byte is overwritten before it is sent or read, and equal indices mean an empty ring. -/
structure NoOverflow (s : Driver) : Prop where
  write : ∀ c oldmask, s.tx.isr = none → s.tx.fg = .write c (.store oldmask) →
    s.unsent s.tx.driver.txProduce = false
  isr : ∀ stat, s.tx.isr = some (.readRx stat) → s.unread s.tx.driver.rxProduce = false
  tx_empty : s.tx.driver.txProduce = s.tx.driver.txConsume →
    ∀ i < UART_RINGBUFFER_SIZE_TX, s.unsent i = false
  rx_empty : s.tx.driver.rxProduce = s.tx.driver.rxConsume →
    ∀ i < UART_RINGBUFFER_SIZE_RX, s.unread i = false

/-- Whenever a producer index is stepped, fewer than 127 elements lie between the indices. -/
def Room (s : Driver) (t : Tick) : Prop :=
  t.act = .uart .run →
    (s.tx.enqueues = true →
      count UART_RINGBUFFER_SIZE_TX s.tx.driver.txProduce s.tx.driver.txConsume < 127) ∧
    (s.receives = true →
      count UART_RINGBUFFER_SIZE_RX s.tx.driver.rxProduce s.tx.driver.rxConsume < 127)

instance (s : Driver) (t : Tick) : Decidable (Room s t) :=
  inferInstanceAs (Decidable (_ → (_ → _) ∧ (_ → _)))

/-! ## The invariant -/

/-- Indices and cells agree, and a statement that takes a byte has one to take. -/
structure Accounted (s : Driver) : Prop where
  fresh : ¬ s.tx.Ready → s.tx.isr = none ∧ test s.tx.im IRQ_UART = false ∧
    ∀ i, s.unsent i = false ∧ s.unread i = false
  alone : s.call ≠ none → s.tx.fg = .idle
  tx : s.tx.Ready → Tracks UART_RINGBUFFER_SIZE_TX s.tx.driver.txProduce s.tx.driver.txConsume
    (sent s.tx.isr) s.unsent
  rx : s.tx.Ready → Tracks UART_RINGBUFFER_SIZE_RX s.tx.driver.rxProduce s.tx.driver.rxConsume
    (loaded s.call) s.unread
  sending : s.tx.isr = some .sendTx → s.tx.driver.txProduce ≠ s.tx.driver.txConsume
  loading : s.call = some (.read .load) → s.tx.driver.rxProduce ≠ s.tx.driver.rxConsume

/-- The call of `uart_init` satisfies the invariant. -/
theorem accounted_initial {s : Driver} (h : machine.Initial s) : Accounted s := by
  obtain ⟨hmasked, hfg, hisr, hcall, hcells⟩ := h
  have hnot : ¬ s.tx.Ready := fun hready => hready hfg
  exact ⟨fun _ => ⟨hisr, hmasked, hcells⟩, fun hn => absurd hcall hn, fun hr => absurd hr hnot,
    fun hr => absurd hr hnot, by simp [hisr], by simp [hcall]⟩

/-- The invariant rules out every overflow. -/
theorem Accounted.noOverflow {s : Driver} (h : Accounted s) : NoOverflow s := by
  by_cases hready : s.tx.Ready
  · exact ⟨fun _ _ _ _ => (h.tx hready).free, fun _ _ => (h.rx hready).free,
      (h.tx hready).all_free, (h.rx hready).all_free⟩
  · obtain ⟨-, -, hcells⟩ := h.fresh hready
    exact ⟨fun _ _ _ _ => (hcells _).1, fun _ _ => (hcells _).2, fun _ i _ => (hcells i).1,
      fun _ i _ => (hcells i).2⟩

/-! ## Steps -/

section Steps

variable {s : Driver} {bus : CsrBus} {j : Jtag}

/-- A statement of `uart_isr`. -/
theorem Driver.run_of_isr (hisr : s.tx.isr ≠ none) : s.run bus j =
    { s with tx := s.tx.run bus j, unsent := s.nextUnsent, unread := s.nextUnread } := by
  obtain ⟨pc, hpc⟩ := Option.ne_none_iff_exists'.1 hisr
  rw [Driver.run, hpc]

/-- While `uart_isr` runs, the rings are set up. -/
theorem Accounted.ready (h : Accounted s) (hisr : s.tx.isr ≠ none) : s.tx.Ready :=
  fun hclear => hisr (h.fresh fun hready => hready hclear).1

/-- What a statement of `uart_isr` has to provide. -/
theorem Accounted.isr (h : Accounted s) (hisr : s.tx.isr ≠ none) {port : Port}
    {driver : UartDriver} {isr : Option IsrPc} {unsent unread : Nat → Bool}
    (htx : Tracks UART_RINGBUFFER_SIZE_TX driver.txProduce driver.txConsume (sent isr) unsent)
    (hrx : Tracks UART_RINGBUFFER_SIZE_RX driver.rxProduce driver.rxConsume (loaded s.call) unread)
    (hsending : isr = some .sendTx → driver.txProduce ≠ driver.txConsume)
    (hloading : s.call = some (.read .load) → driver.rxProduce ≠ driver.rxConsume) :
    Accounted { s with tx := { s.tx with port, driver, isr }, unsent, unread } :=
  ⟨fun hn => absurd (h.ready hisr) hn, h.alone, fun _ => htx, fun _ => hrx, hsending, hloading⟩

/-- Every statement of `uart_isr` for which there is room keeps the invariant. -/
theorem Accounted.run_isr (h : Accounted s)
    (hroom : s.receives = true →
      count UART_RINGBUFFER_SIZE_RX s.tx.driver.rxProduce s.tx.driver.rxConsume < 127)
    {pc : IsrPc} (hpc : s.tx.isr = some pc) : Accounted (s.run bus j) := by
  have hisr : s.tx.isr ≠ none := by simp [hpc]
  have htx := h.tx (h.ready hisr)
  have hrx := h.rx (h.ready hisr)
  have hsending := h.sending
  rw [hpc] at htx hsending
  rw [Driver.run_of_isr hisr]
  cases pc with
  | readStat | readRx stat | setCts | irqAck =>
      simp only [Transmitter.run, Driver.nextUnsent, Driver.nextUnread, hpc]
      exact h.isr hisr htx hrx (by simp [uartIsr]) h.loading
  | writeStat stat =>
      simp only [Transmitter.run, Driver.nextUnsent, Driver.nextUnread, hpc, uartIsr]
      split
      · exact h.isr hisr htx hrx (by simp) h.loading
      · exact h.isr hisr htx hrx (by simp) h.loading
  | bumpRx stat =>
      have hspare := Nat.succ_lt_succ (hroom (by simp [Driver.receives, hpc]))
      simp only [Transmitter.run, Driver.nextUnsent, Driver.nextUnread, hpc]
      exact h.isr hisr htx (hrx.push hspare) (by simp [uartIsr]) fun _ =>
        Library.Ring.next_ne hrx.produce_lt hrx.consume_lt hspare
  | testTx stat =>
      simp only [Transmitter.run, Driver.nextUnsent, Driver.nextUnread, hpc, uartIsr]
      split
      · split
        · exact h.isr hisr htx hrx (fun _ => by assumption) h.loading
        · exact h.isr hisr htx hrx (by simp) h.loading
      · exact h.isr hisr htx hrx (by simp) h.loading
  | sendTx =>
      simp only [Transmitter.run, Driver.nextUnsent, Driver.nextUnread, hpc]
      exact h.isr hisr (htx.take (hsending rfl)) hrx (by simp [uartIsr]) h.loading
  | bumpTx =>
      simp only [Transmitter.run, Driver.nextUnsent, Driver.nextUnread, hpc]
      exact h.isr hisr htx.pop hrx (by simp [uartIsr]) h.loading

/-- A statement of `uart_read`. -/
theorem Driver.run_of_read (hisr : s.tx.isr = none) {pc : ReadPc}
    (hcall : s.call = some (.read pc)) : s.run bus j =
    { tx := { s.tx with
        port := s.tx.port.cycle bus j
        driver := (uartRead.next s.tx.driver pc 0).1 }
      call := match (uartRead.next s.tx.driver pc 0).2 with
        | .inl pc' => some (.read pc')
        | .inr _ => none
      unsent := s.nextUnsent
      unread := s.nextUnread } := by
  rw [Driver.run, hisr, hcall]

/-- A statement of `uart_force_sync`. -/
theorem Driver.run_of_forceSync (hisr : s.tx.isr = none) {f : Bool} {pc : ForceSyncPc}
    (hcall : s.call = some (.forceSync f pc)) : s.run bus j =
    { tx := { s.tx with
        port := s.tx.port.cycle bus j
        driver := ((uartForceSync f).next s.tx.driver pc 0).1 }
      call := match ((uartForceSync f).next s.tx.driver pc 0).2 with
        | .inl pc' => some (.forceSync f pc')
        | .inr _ => none
      unsent := s.nextUnsent
      unread := s.nextUnread } := by
  rw [Driver.run, hisr, hcall]

/-- What a statement of a call has to provide. -/
theorem Accounted.call (h : Accounted s) (hisr : s.tx.isr = none) (hfg : s.tx.fg = .idle)
    {port : Port} {driver : UartDriver} {call : Option Call} {unread : Nat → Bool}
    (htx : driver.txProduce = s.tx.driver.txProduce ∧ driver.txConsume = s.tx.driver.txConsume)
    (hrx : Tracks UART_RINGBUFFER_SIZE_RX driver.rxProduce driver.rxConsume (loaded call) unread)
    (hloading : call = some (.read .load) → driver.rxProduce ≠ driver.rxConsume) :
    Accounted ⟨{ s.tx with port, driver }, call, s.unsent, unread⟩ := by
  have hready : s.tx.Ready := by simp [Transmitter.Ready, hfg]
  refine ⟨fun hn => absurd hready hn, fun _ => hfg, fun _ => ?_, fun _ => hrx, ?_, hloading⟩
  · rw [htx.1, htx.2]
    exact h.tx hready
  · simp [hisr]

/-- Every statement of `uart_read` and `uart_force_sync` keeps the invariant. -/
theorem Accounted.run_call (h : Accounted s) (hisr : s.tx.isr = none) {call : Call}
    (hcall : s.call = some call) : Accounted (s.run bus j) := by
  have hfg := h.alone (by simp [hcall])
  have hrx := h.rx (by simp [Transmitter.Ready, hfg])
  have hloading := h.loading
  have hunsent : s.nextUnsent = s.unsent := by rw [Driver.nextUnsent, hisr, hfg]
  rw [hcall] at hrx hloading
  cases call with
  | read pc =>
      rw [Driver.run_of_read hisr hcall, hunsent]
      cases pc with
      | wait =>
          have hunread : s.nextUnread = s.unread := by rw [Driver.nextUnread, hisr, hcall]
          rw [hunread]
          simp only [uartRead]
          split
          · exact h.call hisr hfg ⟨rfl, rfl⟩ hrx (by simp)
          · exact h.call hisr hfg ⟨rfl, rfl⟩ hrx fun _ => Ne.symm ‹_›
      | load =>
          have hunread : s.nextUnread = Function.update s.unread s.tx.driver.rxConsume false := by
            rw [Driver.nextUnread, hisr, hcall]
          rw [hunread]
          exact h.call hisr hfg ⟨rfl, rfl⟩ (hrx.take (hloading rfl)) (by simp [uartRead])
      | bump c =>
          have hunread : s.nextUnread = s.unread := by rw [Driver.nextUnread, hisr, hcall]
          rw [hunread]
          exact h.call hisr hfg ⟨rfl, rfl⟩ hrx.pop (by simp [uartRead])
  | forceSync f pc =>
      have hunread : s.nextUnread = s.unread := by rw [Driver.nextUnread, hisr, hcall]
      rw [Driver.run_of_forceSync hisr hcall, hunsent, hunread]
      cases pc with
      | wait =>
          simp only [uartForceSync]
          split
          · exact h.call hisr hfg ⟨rfl, rfl⟩ hrx (by simp)
          · exact h.call hisr hfg ⟨rfl, rfl⟩ hrx (by simp)
      | set => exact h.call hisr hfg ⟨rfl, rfl⟩ hrx (by simp [uartForceSync])

/-- A statement of `uart_init` or `uart_write`. -/
theorem Driver.run_of_foreground (hisr : s.tx.isr = none) (hcall : s.call = none) :
    s.run bus j = { s with tx := s.tx.run bus j, unsent := s.nextUnsent } := by
  have hunread : s.nextUnread = s.unread := by rw [Driver.nextUnread, hisr, hcall]
  rw [Driver.run, hisr, hcall]
  simp only [hunread]

/-- What a statement of `uart_init` or `uart_write` has to provide. -/
theorem Accounted.foreground (h : Accounted s) (hready : s.tx.Ready) (hcall : s.call = none)
    {port : Port} {driver : UartDriver} {im : Word} {fg : Transmit.Foreground}
    {unsent : Nat → Bool} (hclear : fg ≠ .init .clear)
    (htx : Tracks UART_RINGBUFFER_SIZE_TX driver.txProduce driver.txConsume false unsent)
    (hrx : driver.rxProduce = s.tx.driver.rxProduce ∧ driver.rxConsume = s.tx.driver.rxConsume) :
    Accounted ⟨⟨port, driver, im, fg, none, s.tx.written⟩, s.call, unsent, s.unread⟩ := by
  refine ⟨fun hn => absurd hclear hn, fun hn => absurd hcall hn, fun _ => htx, fun _ => ?_,
    by simp, by simp [hcall]⟩
  rw [hrx.1, hrx.2]
  exact h.rx hready

/-- Every statement of `uart_init` keeps the invariant. -/
theorem Accounted.run_init (h : Accounted s) (hisr : s.tx.isr = none) (hcall : s.call = none)
    {pc : InitPc} (hfg : s.tx.fg = .init pc) : Accounted (s.run bus j) := by
  have hunsent : s.nextUnsent = s.unsent := by rw [Driver.nextUnsent, hisr, hfg]
  rw [Driver.run_of_foreground hisr hcall, hunsent]
  simp only [Transmitter.run, Transmitter.access, hisr, hfg]
  by_cases hclear : pc = .clear
  · -- the indices are set while all cells are free
    subst hclear
    obtain ⟨-, -, hcells⟩ := h.fresh fun hready => hready hfg
    have htx : 0 < UART_RINGBUFFER_SIZE_TX := by decide
    have hrx : 0 < UART_RINGBUFFER_SIZE_RX := by decide
    refine ⟨fun hn => absurd (by simp [uartInit, Transmitter.Ready]) hn,
      fun hn => absurd hcall hn, fun _ => ?_, fun _ => ?_, by simp, by simp [hcall]⟩
    · exact .empty htx fun i _ => (hcells i).1
    · simp only [hcall]
      exact .empty hrx fun i _ => (hcells i).2
  · have hready : s.tx.Ready := by simp [Transmitter.Ready, hfg, hclear]
    have htx := h.tx hready
    rw [hisr] at htx
    cases pc with
    | clear => exact absurd rfl hclear
    | irqAck | readStat | writeStat stat | setCtrl | getMask | setMask mask =>
        exact h.foreground hready hcall (by simp [uartInit]) htx ⟨rfl, rfl⟩

/-- Every statement of `uart_write` for which there is room keeps the invariant. -/
theorem Accounted.run_write (h : Accounted s)
    (hroom : s.tx.enqueues = true →
      count UART_RINGBUFFER_SIZE_TX s.tx.driver.txProduce s.tx.driver.txConsume < 127)
    (hisr : s.tx.isr = none) (hcall : s.call = none) {c : Byte} {pc : WritePc}
    (hfg : s.tx.fg = .write c pc) : Accounted (s.run bus j) := by
  have hready : s.tx.Ready := by simp [Transmitter.Ready, hfg]
  have htx := h.tx hready
  rw [hisr] at htx
  rw [Driver.run_of_foreground hisr hcall]
  cases pc with
  | bumpTx oldmask =>
      have hspare := Nat.succ_lt_succ (hroom (by simp [Transmitter.enqueues, hisr, hfg]))
      have hunsent : s.nextUnsent = Function.update s.unsent s.tx.driver.txProduce true := by
        rw [Driver.nextUnsent, hisr, hfg]
      simp only [Transmitter.run, Transmitter.access, hisr, hfg, hunsent]
      exact h.foreground hready hcall (by simp [uartWrite]) (htx.push hspare) ⟨rfl, rfl⟩
  | getMask | clearMask oldmask | testSync oldmask | sendSync oldmask | waitSync oldmask
  | testCts oldmask | clearCts oldmask | sendNow oldmask | store oldmask | setMask oldmask =>
      have hunsent : s.nextUnsent = s.unsent := by rw [Driver.nextUnsent, hisr, hfg]
      simp only [Transmitter.run, Transmitter.access, hisr, hfg, hunsent]
      exact h.foreground hready hcall (by simp [uartWrite]) htx ⟨rfl, rfl⟩

/-- A cycle that goes by keeps the invariant. -/
theorem Accounted.stall (h : Accounted s) {port : Port} :
    Accounted { s with tx := { s.tx with port } } :=
  ⟨h.fresh, h.alone, h.tx, h.rx, h.sending, h.loading⟩

/-- A statement for which there is room keeps the invariant. -/
theorem Accounted.run (h : Accounted s)
    (htx : s.tx.enqueues = true →
      count UART_RINGBUFFER_SIZE_TX s.tx.driver.txProduce s.tx.driver.txConsume < 127)
    (hrx : s.receives = true →
      count UART_RINGBUFFER_SIZE_RX s.tx.driver.rxProduce s.tx.driver.rxConsume < 127) :
    Accounted (s.run bus j) := by
  cases hisr : s.tx.isr with
  | some pc => exact h.run_isr hrx hisr
  | none =>
      cases hcall : s.call with
      | some call => exact h.run_call hisr hcall
      | none =>
          cases hfg : s.tx.fg with
          | init pc => exact h.run_init hisr hcall hfg
          | write c pc => exact h.run_write htx hisr hcall hfg
          | idle =>
              have hunsent : s.nextUnsent = s.unsent := by rw [Driver.nextUnsent, hisr, hfg]
              rw [Driver.run_of_foreground hisr hcall, hunsent]
              simpa only [Transmitter.run, Transmitter.access, hisr, hfg] using h.stall

end Steps

/-- Entering a call takes no byte yet. -/
theorem Accounted.enter {s : Driver} (h : Accounted s) (hquiet : s.Quiescent) {call : Call}
    (hloaded : loaded (some call) = false) (hcall : call ≠ .read .load) :
    Accounted { s with call := some call } := by
  obtain ⟨⟨-, hfg⟩, hnone⟩ := hquiet
  have hrx := h.rx
  rw [hnone] at hrx
  refine ⟨h.fresh, fun _ => hfg, h.tx, fun hready => ?_, h.sending, fun heq => ?_⟩
  · rw [hloaded]
    exact hrx hready
  · exact absurd (Option.some.inj heq) hcall

/-- The acts of the transmit path other than `run` step no index. -/
theorem Accounted.act {s : Driver} (h : Accounted s) {act : Transmit.Act} {bus : CsrBus} {j : Jtag}
    (hact : s.Permits (.uart act)) (hrun : act ≠ .run) :
    Accounted { s with tx := s.tx.next ⟨act, bus, j⟩ } := by
  cases act with
  | run => exact absurd rfl hrun
  | stall => exact h.stall
  | write c =>
      obtain ⟨⟨-, hfg⟩, hcall⟩ := hact
      have hready : s.tx.Ready := by simp [Transmitter.Ready, hfg]
      exact ⟨fun hn => absurd (by simp [Transmitter.Ready, Transmitter.next]) hn,
        fun hn => absurd hcall hn, fun _ => h.tx hready, fun _ => h.rx hready, h.sending,
        h.loading⟩
  | setMask mask =>
      obtain ⟨⟨-, hfg⟩, -⟩ := hact
      have hready : s.tx.Ready := by simp [Transmitter.Ready, hfg]
      exact ⟨fun hn => absurd hready hn, h.alone, h.tx, h.rx, h.sending, h.loading⟩
  | interrupt =>
      obtain ⟨hisr, him⟩ := hact
      have hready : s.tx.Ready := by
        intro hclear
        have hmasked := (h.fresh fun hready => hready hclear).2.1
        exact absurd him (hmasked ▸ Bool.false_ne_true)
      have htx := h.tx
      rw [hisr] at htx
      exact ⟨fun hn => absurd hready hn, h.alone, htx, h.rx, by simp [Transmitter.next],
        h.loading⟩

/-- Every step with room keeps the invariant. -/
theorem accounted_next {s : Driver} {t : Tick} (h : Accounted s) (hallowed : machine.Allowed s t)
    (hroom : Room s t) : Accounted (machine.next s t) := by
  obtain ⟨-, -, -, hact⟩ := hallowed
  cases ht : t.act with
  | read =>
      rw [ht] at hact
      simp only [machine, Driver.next, ht]
      exact h.enter hact rfl (by simp)
  | forceSync f =>
      rw [ht] at hact
      simp only [machine, Driver.next, ht]
      exact h.enter hact rfl (by simp)
  | uart act =>
      rw [ht] at hact
      by_cases hrun : act = .run
      · rw [hrun] at ht
        simp only [machine, Driver.next, ht]
        exact h.run (hroom ht).1 (hroom ht).2
      · simp only [machine, Driver.next, ht]
        exact h.act hact hrun

/-- Stepping `tx_produce` without room makes the ring look empty. -/
theorem Accounted.tx_overflow {s : Driver} {bus : CsrBus} {j : Jtag} (h : Accounted s)
    (henqueues : s.tx.enqueues = true)
    (hfull : ¬ count UART_RINGBUFFER_SIZE_TX s.tx.driver.txProduce s.tx.driver.txConsume < 127) :
    ¬ NoOverflow (s.run bus j) := by
  obtain ⟨c, oldmask, hisr, hfg⟩ : ∃ c oldmask, s.tx.isr = none ∧
      s.tx.fg = .write c (.bumpTx oldmask) := by
    unfold Transmitter.enqueues at henqueues
    split at henqueues
    · exact ⟨_, _, ‹_›, ‹_›⟩
    · cases henqueues
  have hcall : s.call = none := by
    by_contra hcall
    have hidle := h.alone hcall
    simp [hfg] at hidle
  have htx := h.tx (by simp [Transmitter.Ready, hfg])
  have hunsent : s.nextUnsent = Function.update s.unsent s.tx.driver.txProduce true := by
    rw [Driver.nextUnsent, hisr, hfg]
  intro hsafe
  rw [Driver.run_of_foreground hisr hcall, hunsent] at hsafe
  simp only [Transmitter.run, Transmitter.access, hisr, hfg] at hsafe
  have hequal := Library.Ring.next_eq_of_full htx.produce_lt htx.consume_lt
    fun hspare => hfull (Nat.lt_of_succ_lt_succ hspare)
  have hfree := hsafe.tx_empty hequal _ htx.produce_lt
  simp at hfree

/-- Stepping `rx_produce` without room makes the ring look empty. -/
theorem Accounted.rx_overflow {s : Driver} {bus : CsrBus} {j : Jtag} (h : Accounted s)
    (hreceives : s.receives = true)
    (hfull : ¬ count UART_RINGBUFFER_SIZE_RX s.tx.driver.rxProduce s.tx.driver.rxConsume < 127) :
    ¬ NoOverflow (s.run bus j) := by
  obtain ⟨stat, hpc⟩ : ∃ stat, s.tx.isr = some (.bumpRx stat) := by
    unfold Driver.receives at hreceives
    split at hreceives
    · exact ⟨_, ‹_›⟩
    · cases hreceives
  have hisr : s.tx.isr ≠ none := by simp [hpc]
  have hrx := h.rx (h.ready hisr)
  have hunread : s.nextUnread = Function.update s.unread s.tx.driver.rxProduce true := by
    rw [Driver.nextUnread, hpc]
  intro hsafe
  rw [Driver.run_of_isr hisr, hunread] at hsafe
  simp only [Transmitter.run, hpc] at hsafe
  have hequal := Library.Ring.next_eq_of_full hrx.produce_lt hrx.consume_lt
    fun hspare => hfull (Nat.lt_of_succ_lt_succ hspare)
  have hfree := hsafe.rx_empty hequal _ hrx.produce_lt
  simp at hfree

/-- A step without room breaks the safety of the rings. -/
theorem overflow_next {s : Driver} {t : Tick} (h : Accounted s) (hroom : ¬ Room s t) :
    ¬ NoOverflow (machine.next s t) := by
  rw [Room, Classical.not_imp, not_and_or, Classical.not_imp, Classical.not_imp] at hroom
  obtain ⟨ht, htx | hrx⟩ := hroom
  · simp only [machine, Driver.next, ht]
    exact h.tx_overflow htx.1 htx.2
  · simp only [machine, Driver.next, ht]
    exact h.rx_overflow hrx.1 hrx.2

/-- In every run from the call of `uart_init` on, no byte of either ring is overwritten and equal
indices mean an empty ring, exactly when there is room whenever a producer index is stepped. -/
theorem rings_never_overflow_iff {s : Driver} (hinit : machine.Initial s) {ticks : List Tick}
    (hrun : machine.AllowedRun s ticks) :
    machine.Always NoOverflow s ticks ↔ (machine.restrict Room).AllowedRun s ticks :=
  Machine.always_iff_guarded (fun _ => Accounted.noOverflow) (fun _ _ => accounted_next)
    (fun _ _ h _ => overflow_next h) (accounted_initial hinit) hrun

/-- A cycle in which `act` happens, the JTAG→CPU FIFO is empty, and the CPU→JTAG FIFO has room
unless it is `full`. -/
def tick (act : Act) (full : Bool) : Tick :=
  ⟨act, .load 0, ⟨none, true, full, 0⟩⟩

/-- A call of `uart_write` whose statements follow each other while the CPU→JTAG FIFO is full. -/
def writeTicks (c : Byte) : List Tick :=
  tick (.uart (.write c)) true :: List.replicate 7 (tick (.uart .run) true)

/-- `uart_init`, and the call of `irq_setmask` at the start of `putsnonl`. -/
def bootTicks : List Tick :=
  List.replicate 7 (tick (.uart .run) true) ++ [tick (.uart (.setMask IRQ_UART)) true]

/-- The call of `uart_init` on an idle UART with an old event pending. -/
def start : Driver := ⟨Transmit.start, none, fun _ => false, fun _ => false⟩

/-- After `uart_init`, two bytes are written, the first finds room in the FIFO, a byte comes from
the host, `uart_isr` handles both events, and `uart_read` takes the byte. -/
def echoRun : List Tick :=
  bootTicks ++ writeTicks 0x61 ++ writeTicks 0x62 ++
    [⟨.uart .stall, .load 0, ⟨some 0x63, true, false, 0⟩⟩,
      ⟨.uart .stall, .load 0, ⟨none, false, true, 0⟩⟩, tick (.uart .stall) true,
      tick (.uart .interrupt) true] ++ List.replicate 8 (tick (.uart .run) true) ++
    tick .read true :: List.replicate 3 (tick (.uart .run) true)

/-- The law in that run. -/
theorem rings_never_overflow_echo :
    machine.Always NoOverflow start echoRun ∧
      (machine.run start echoRun).tx.driver.txConsume = 1 ∧
      (machine.run start echoRun).tx.driver.rxConsume = 1 :=
  ⟨(rings_never_overflow_iff ⟨by decide, rfl, rfl, rfl, fun _ => ⟨rfl, rfl⟩⟩ (by decide)).2
    (by decide), by decide, by decide⟩

/-- The output of `chars` after that, while the host does not drain the CPU→JTAG FIFO. -/
def outputRun (chars : List Byte) : List Tick :=
  bootTicks ++ chars.flatMap writeTicks

/-- `k` bytes are in `tx_buf` since the transmitter became busy, and none was sent. -/
structure Stuffed (k : Nat) (s : Driver) : Prop where
  quiescent : s.Quiescent
  cts : s.tx.driver.txCts = false
  sync : s.tx.driver.forceSync = false
  consume : s.tx.driver.txConsume = 0
  produce : s.tx.driver.txProduce = k % UART_RINGBUFFER_SIZE_TX
  cells : ∀ i < UART_RINGBUFFER_SIZE_TX, i < k → s.unsent i = true

section Overflow

variable {s : Driver} {k : Nat}

/-- The environment of these runs is possible in every state. -/
theorem allowed_tick {act : Act} {full : Bool} (h : s.Permits act) :
    machine.Allowed s (tick act full) :=
  ⟨fun _ => rfl, by simp [tick], by simp [tick], h⟩

/-- Any number of statements may follow each other. -/
theorem allowedRun_statements (n : Nat) :
    machine.AllowedRun s (List.replicate n (tick (.uart .run) true)) := by
  induction n generalizing s with
  | zero => trivial
  | succ n ih => exact ⟨allowed_tick trivial, ih⟩

/-- A call of `uart_write` adds its byte to the ring. -/
theorem Stuffed.write (h : Stuffed k s) (c : Byte) :
    machine.AllowedRun s (writeTicks c) ∧ Stuffed (k + 1) (machine.run s (writeTicks c)) := by
  refine ⟨⟨allowed_tick h.quiescent, allowedRun_statements 7⟩, ?_⟩
  obtain ⟨⟨⟨hisr, hfg⟩, hcall⟩, hcts, hsync, hconsume, hproduce, hcells⟩ := h
  obtain ⟨⟨port, ⟨rxBuf, rxP, rxC, txBuf, txP, txC, cts, sync⟩, im, fg, isr, written⟩, call,
    unsent, unread⟩ := s
  simp only at hisr hfg hcall hcts hsync hconsume hproduce
  subst hisr hfg hcall hcts hsync hconsume hproduce
  simp only [writeTicks, List.replicate, Machine.run, List.foldl_cons, List.foldl_nil, machine,
    Driver.next, tick, Transmitter.next, Driver.run, Transmitter.run, Transmitter.access, uartWrite,
    Driver.nextUnsent, Driver.nextUnread, Bool.false_eq_true, if_false]
  refine ⟨⟨⟨rfl, rfl⟩, rfl⟩, rfl, rfl, rfl, Nat.mod_add_mod _ _ _, fun i hi hk => ?_⟩
  simp only [Function.update_apply]
  by_cases hlast : i = k % UART_RINGBUFFER_SIZE_TX
  · rw [if_pos hlast]
  · have hk' : i < k := by
      refine Nat.lt_of_le_of_ne (Nat.le_of_lt_succ hk) fun heq => hlast ?_
      rw [← heq, Nat.mod_eq_of_lt hi]
    rw [if_neg hlast]
    exact hcells i hi hk'

/-- So does each of a list of calls. -/
theorem Stuffed.writes (h : Stuffed k s) (chars : List Byte) :
    machine.AllowedRun s (chars.flatMap writeTicks) ∧
      Stuffed (k + chars.length) (machine.run s (chars.flatMap writeTicks)) := by
  induction chars generalizing k s with
  | nil => exact ⟨trivial, h⟩
  | cons c chars ih =>
      obtain ⟨hallowed, hwrite⟩ := h.write c
      obtain ⟨hrest, hwrites⟩ := ih hwrite
      rw [List.flatMap_cons, Machine.allowedRun_append, Machine.run_append]
      refine ⟨⟨hallowed, hrest⟩, ?_⟩
      rw [List.length_cons, Nat.add_comm chars.length, ← Nat.add_assoc]
      exact hwrites

/-- A byte written to an idle transmitter is sent at once and keeps it busy. -/
theorem stuffed_of_first (hquiet : s.Quiescent) (hcts : s.tx.driver.txCts = true)
    (hsync : s.tx.driver.forceSync = false)
    (hring : s.tx.driver.txProduce = 0 ∧ s.tx.driver.txConsume = 0) (c : Byte) :
    machine.AllowedRun s (writeTicks c) ∧ Stuffed 0 (machine.run s (writeTicks c)) := by
  refine ⟨⟨allowed_tick hquiet, allowedRun_statements 7⟩, ?_⟩
  obtain ⟨⟨hisr, hfg⟩, hcall⟩ := hquiet
  obtain ⟨⟨port, ⟨rxBuf, rxP, rxC, txBuf, txP, txC, cts, sync⟩, im, fg, isr, written⟩, call,
    unsent, unread⟩ := s
  simp only at hisr hfg hcall hcts hsync hring
  obtain ⟨hproduce, hconsume⟩ := hring
  subst hisr hfg hcall hcts hsync hproduce hconsume
  simp only [writeTicks, List.replicate, Machine.run, List.foldl_cons, List.foldl_nil, machine,
    Driver.next, tick, Transmitter.next, Driver.run, Transmitter.run, Transmitter.access, uartWrite,
    Driver.nextUnsent, Driver.nextUnread, Bool.false_eq_true, if_false, if_true]
  exact ⟨⟨⟨rfl, rfl⟩, rfl⟩, rfl, rfl, rfl, rfl, fun i _ hi => absurd hi (Nat.not_lt_zero i)⟩

/-- With all 128 cells taken the indices are equal. -/
theorem Stuffed.overflow (h : Stuffed UART_RINGBUFFER_SIZE_TX s) : ¬ NoOverflow s := by
  intro hsafe
  have hsize : 0 < UART_RINGBUFFER_SIZE_TX := by decide
  have hequal : s.tx.driver.txProduce = s.tx.driver.txConsume := by
    rw [h.produce, h.consume, Nat.mod_self]
  have hfree := hsafe.tx_empty hequal 0 hsize
  rw [h.cells 0 hsize hsize] at hfree
  cases hfree

/-- Any output of more than 128 characters overflows the ring if the host does not drain the FIFO
meanwhile. -/
theorem outputRun_overflows {chars : List Byte} (h : 128 < chars.length) :
    machine.AllowedRun start (outputRun chars) ∧
      ¬ machine.Always NoOverflow start (outputRun chars) := by
  obtain ⟨first, rest, rfl⟩ :=
    List.exists_cons_of_ne_nil (List.ne_nil_of_length_pos (Nat.zero_lt_of_lt h))
  have hboot : machine.AllowedRun start bootTicks := by decide
  obtain ⟨hdirect, hstuffed⟩ := stuffed_of_first (s := machine.run start bootTicks) (by decide)
    (by decide) (by decide) (by decide) first
  have hrun : outputRun (first :: rest) = bootTicks ++ (writeTicks first ++
      ((rest.take 128).flatMap writeTicks ++ (rest.drop 128).flatMap writeTicks)) := by
    rw [← List.flatMap_append, List.take_append_drop, outputRun, List.flatMap_cons]
  obtain ⟨hfill, hfull⟩ := hstuffed.writes (rest.take 128)
  obtain ⟨hlater, -⟩ := hfull.writes (rest.drop 128)
  rw [hrun]
  refine ⟨Machine.allowedRun_append.2 ⟨hboot, Machine.allowedRun_append.2 ⟨hdirect,
    Machine.allowedRun_append.2 ⟨hfill, hlater⟩⟩⟩, fun hsafe => ?_⟩
  have hcount : 0 + (rest.take 128).length = UART_RINGBUFFER_SIZE_TX := by
    rw [List.length_cons] at h
    rw [List.length_take, UART_RINGBUFFER_SIZE_TX]
    omega
  rw [hcount] at hfull
  exact hfull.overflow hsafe.drop.drop.drop.here

end Overflow

/-- What one `printf` of 62 characters sends to a debugger: 129 characters. -/
def printed : List Byte :=
  Libbase.Console.written (Libbase.Console.putsnonl ⟨1, false⟩ (fun _ => 0) IRQ_UART
    (List.replicate 62 (ascii 'A') ++ [0])).trace

/-- That one output overflows `tx_buf`. -/
theorem tx_ring_overflows : printed.length = 129 ∧ machine.Initial start ∧
    machine.AllowedRun start (outputRun printed) ∧
    ¬ machine.Always NoOverflow start (outputRun printed) := by
  have hlength : printed.length = 129 := by decide +kernel
  exact ⟨hlength, ⟨by decide, rfl, rfl, rfl, fun _ => ⟨rfl, rfl⟩⟩,
    outputRun_overflows (hlength ▸ by decide)⟩

end Soc.Uart.Rings
