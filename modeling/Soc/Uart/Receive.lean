import Soc.Library.Machine
import Soc.Gdbstub.DebugChar
import Soc.Libbase.Uart

/-!
# The receive path from the host to the software

A CPU that runs `get_debug_char` or `uart_isr` over and over, with any number of cycles
before each statement, composed with the UART and any host. Both routines clear RX_EVT
before they read RXTX, while the core requests the next byte as soon as RX_EVT is clear.
`lost_byte` shows what becomes of two queued bytes, and `received_in_order` that nothing else
goes wrong: as long as every load of RXTX comes before the next byte has set RX_EVT again,
the software obtains a prefix of what entered the FIFO.
-/

namespace Soc.Uart.Receive

open Library (Machine)
open Gdbstub (GetPc getDebugChar)
open Libbase (IsrPc UartDriver uartIsr)
open Port (acknowledges)

/-- What the CPU is running. -/
inductive Cpu where
  | idle
  | get (pc : GetPc)
  | isr (pc : IsrPc)
  deriving DecidableEq

namespace Cpu

/-- The next statement loads the received byte from RXTX. -/
def fetches : Cpu → Bool
  | .get .fetch | .isr (.readRx _) => true
  | _ => false

/-- The routine has seen RX_EVT and is about to clear it. -/
def clears : Cpu → Bool
  | .get .clear => true
  | .isr (.writeStat stat) => bit stat 1
  | _ => false

end Cpu

/-- The UART system, the driver's data, the CPU and the bytes the software obtained so far. -/
structure Receiver where
  port : Port
  driver : UartDriver
  cpu : Cpu
  obtained : List Byte

/-- What the CPU does next: enter a routine, let a cycle pass, or execute a statement. -/
inductive Act where
  | getDebugChar
  | uartIsr
  | stall
  | run
  deriving DecidableEq

/-- A choice of the environment: the act of the CPU, the bus cycle that goes by if the routine
itself makes no access, and what the FIFOs do. -/
structure Tick where
  act : Act
  bus : CsrBus
  jtag : Jtag

namespace Receiver

/-- Execute the next statement of the running routine. -/
def run (s : Receiver) (bus : CsrBus) (j : Jtag) : Receiver :=
  match s.cpu with
  | .idle => { s with port := s.port.cycle bus j }
  | .get pc =>
      let port := s.port.cycle ((getDebugChar.access () pc).getD bus) j
      match (getDebugChar.next () pc port.uart.csrDo).2 with
      | .inl pc' => { s with port, cpu := .get pc' }
      | .inr c => { s with port, cpu := .idle, obtained := s.obtained ++ [c] }
  | .isr pc =>
      let port := s.port.cycle ((uartIsr.access s.driver pc).getD bus) j
      let following := uartIsr.next s.driver pc port.uart.csrDo
      { port
        driver := following.1
        cpu := match following.2 with | .inl pc' => .isr pc' | .inr _ => .idle
        obtained :=
          if s.cpu.fetches then s.obtained ++ [port.uart.csrDo.setWidth 8] else s.obtained }

/-- One choice of the environment. -/
def next (s : Receiver) (t : Tick) : Receiver :=
  match t.act with
  | .getDebugChar => { s with cpu := .get .poll }
  | .uartIsr => { s with cpu := .isr .readStat }
  | .stall => { s with port := s.port.cycle t.bus t.jtag }
  | .run => s.run t.bus t.jtag

end Receiver

/-- The receive path, from reset on. A routine is entered from the idle CPU, and the other
traffic on the CSR bus, the stub's own transmissions included, does not clear RX_EVT. -/
def machine : Machine Receiver Tick where
  Initial s := s.port.uart = Uart.reset ∧ s.port.entered = s.port.rfifo ∧ s.cpu = .idle ∧
    s.obtained = []
  Allowed s t := s.port.Admits t.jtag ∧ acknowledges t.bus = false ∧
    (t.act = .getDebugChar ∨ t.act = .uartIsr → s.cpu = .idle)
  next := Receiver.next

instance (s : Receiver) (t : Tick) : Decidable (machine.Allowed s t) :=
  inferInstanceAs (Decidable (_ ∧ _ ∧ (_ → _)))

/-- The load of RXTX comes in time: RX_EVT has not been set again since the routine cleared it. -/
def InTime (s : Receiver) (t : Tick) : Prop :=
  t.act = .run → s.cpu.fetches = true → s.port.uart.rxEvent = false

instance (s : Receiver) (t : Tick) : Decidable (InTime s t) :=
  inferInstanceAs (Decidable (_ → _ → _))

/-- Where the bytes are. Between the clearing of RX_EVT and the load of RXTX one byte is in the
hands of the routine, and it is the one in `rx_reg` until RX_EVT is set again. -/
structure Ordered (s : Receiver) : Prop where
  exclusive : s.port.Exclusive
  announced : s.cpu.clears = true → s.port.uart.rxEvent = true
  outside : s.cpu.fetches = false → s.port.entered = s.obtained ++ s.port.backlog
  inside : s.cpu.fetches = true → ∃ byte, s.port.entered = s.obtained ++ byte :: s.port.backlog ∧
    (s.port.uart.rxEvent = false → byte = s.port.uart.rxReg)

/-- In every ordered state the software holds a prefix of what entered the FIFO. -/
theorem Ordered.obtained_isPrefix {s : Receiver} (h : Ordered s) :
    s.obtained <+: s.port.entered := by
  cases hf : s.cpu.fetches with
  | false => exact ⟨_, (h.outside hf).symm⟩
  | true =>
      obtain ⟨byte, heq, _⟩ := h.inside hf
      exact ⟨_, heq.symm⟩

/-- The receive path starts ordered. -/
theorem ordered_initial {s : Receiver} (h : machine.Initial s) : Ordered s := by
  obtain ⟨huart, hentered, hcpu, hobtained⟩ := h
  constructor <;>
    simp [Port.Exclusive, Port.backlog, Port.announced, Port.inFlight, Cpu.fetches,
      Cpu.clears, huart, hentered, hcpu, hobtained, Uart.reset]

section Steps

variable {s : Receiver} {j : Jtag} {driver : UartDriver}

/-- A cycle without an acknowledgement keeps the order, whatever statement of the routine
precedes the clearing of RX_EVT or follows the load of RXTX. -/
theorem Ordered.pass (h : Ordered s) (bus : CsrBus) (cpu : Cpu) (hj : s.port.Admits j)
    (hbus : acknowledges bus = false) (hclears : cpu.clears = true → s.port.uart.rxEvent = true)
    (hfetches : cpu.fetches = s.cpu.fetches) :
    Ordered ⟨s.port.cycle bus j, driver, cpu, s.obtained⟩ := by
  have hbacklog := Port.cycle_backlog h.exclusive hj hbus
  refine ⟨Port.cycle_exclusive, fun hc => Port.cycle_rxEvent (hclears hc) hbus, ?_, ?_⟩
  · intro hf
    have heq := h.outside (hfetches ▸ hf)
    simp only [hbacklog, ← List.append_assoc, ← heq]
    rfl
  · intro hf
    obtain ⟨byte, heq, hbyte⟩ := h.inside (hfetches ▸ hf)
    refine ⟨byte, ?_, fun hev => ?_⟩
    · simp only [hbacklog, ← List.cons_append, ← List.append_assoc, ← heq]
      rfl
    · obtain ⟨hreg, hev⟩ := Port.cycle_rxReg hbus hev
      exact (hbyte hev).trans hreg.symm

/-- Clearing RX_EVT puts the announced byte into the hands of the routine. -/
theorem Ordered.clear (h : Ordered s) (bus : CsrBus) (cpu : Cpu)
    (hclears : s.cpu.clears = true) (hbus : acknowledges bus = true)
    (hbefore : s.cpu.fetches = false) (hfetches : cpu.fetches = true) (hcpu : cpu.clears = false) :
    Ordered ⟨s.port.cycle bus j, driver, cpu, s.obtained⟩ := by
  obtain ⟨hbacklog, hreg, hev⟩ :=
    Port.cycle_acknowledge (j := j) h.exclusive (h.announced hclears) hbus
  refine ⟨Port.cycle_exclusive, by simp [hcpu], by simp [hfetches], fun _ => ?_⟩
  refine ⟨s.port.uart.rxReg, ?_, fun _ => hreg.symm⟩
  rw [← hbacklog, ← List.append_assoc, ← h.outside hbefore]
  rfl

/-- A load of RXTX in time hands the byte over. -/
theorem Ordered.fetch (h : Ordered s) (cpu : Cpu) (hj : s.port.Admits j)
    (hfetches : s.cpu.fetches = true)
    (hev : s.port.uart.rxEvent = false) (hafter : cpu.fetches = false)
    (hcpu : cpu.clears = false) :
    Ordered ⟨s.port.cycle (.load RXTX) j, driver, cpu, s.obtained ++ [s.port.uart.rxReg]⟩ := by
  have hbacklog := Port.cycle_backlog h.exclusive hj (Port.acknowledges_load RXTX)
  -- RX_EVT has not been set again, so `rx_reg` still holds the byte the routine cleared it for
  obtain ⟨byte, heq, hbyte⟩ := h.inside hfetches
  refine ⟨Port.cycle_exclusive, by simp [hcpu], fun _ => ?_, by simp [hafter]⟩
  rw [hbyte hev] at heq
  simp only [hbacklog, List.append_assoc, List.cons_append, List.nil_append]
  simp only [← List.cons_append, ← List.append_assoc, ← heq]
  rfl

/-- A statement executed in time keeps the order. -/
theorem Ordered.run (h : Ordered s) (bus : CsrBus) (hj : s.port.Admits j)
    (hbus : acknowledges bus = false)
    (htime : s.cpu.fetches = true → s.port.uart.rxEvent = false) : Ordered (s.run bus j) := by
  obtain ⟨port, driver, cpu, obtained⟩ := s
  cases cpu with
  | idle => exact h.pass bus .idle hj hbus (by simp [Cpu.clears]) rfl
  | get pc =>
      cases pc with
      | poll =>
          cases hev : port.uart.rxEvent with
          | false =>
              simpa [Receiver.run, getDebugChar, hev] using
                h.pass _ (.get .poll) hj (Port.acknowledges_load STAT) (by simp [Cpu.clears]) rfl
          | true =>
              simpa [Receiver.run, getDebugChar, hev] using
                h.pass _ (.get .clear) hj (Port.acknowledges_load STAT) (fun _ => hev) rfl
      | clear => exact h.clear _ _ rfl (Port.acknowledges_store_stat STAT_RX_EVT) rfl rfl rfl
      | fetch =>
          simpa [Receiver.run, getDebugChar] using h.fetch .idle hj rfl (htime rfl) rfl rfl
  | isr pc =>
      cases pc with
      | readStat =>
          simpa [Receiver.run, uartIsr, Cpu.fetches] using
            h.pass _ (.isr (.writeStat port.uart.stat)) hj (Port.acknowledges_load STAT)
              (by simp [Cpu.clears]) rfl
      | writeStat stat =>
          cases hbit : bit stat 1 with
          | false =>
              simpa [Receiver.run, uartIsr, hbit, Cpu.fetches] using
                h.pass (.store STAT stat) (.isr (.testTx stat)) hj (by simpa using hbit)
                  (by simp [Cpu.clears]) rfl
          | true =>
              simpa [Receiver.run, uartIsr, hbit, Cpu.fetches] using
                h.clear (.store STAT stat) (.isr (.readRx stat)) hbit (by simpa using hbit)
                  rfl rfl rfl
      | readRx stat =>
          simpa [Receiver.run, uartIsr, Cpu.fetches] using
            h.fetch (.isr (.bumpRx stat)) hj rfl (htime rfl) rfl rfl
      | bumpRx stat => exact h.pass bus _ hj hbus (by simp [Cpu.clears, uartIsr]) rfl
      | testTx stat =>
          refine h.pass bus _ hj hbus ?_ ?_ <;> simp only [uartIsr] <;> split <;> (try split) <;>
            simp [Cpu.clears, Cpu.fetches]
      | sendTx =>
          exact h.pass _ _ hj (Port.acknowledges_store_rxtx _) (by simp [Cpu.clears, uartIsr]) rfl
      | bumpTx => exact h.pass bus _ hj hbus (by simp [Cpu.clears, uartIsr]) rfl
      | setCts => exact h.pass bus _ hj hbus (by simp [Cpu.clears, uartIsr]) rfl
      | irqAck => exact h.pass bus _ hj hbus (by simp [Cpu.clears, uartIsr]) rfl

end Steps

/-- Every step in time keeps the order. -/
theorem ordered_next {s : Receiver} {t : Tick} (h : Ordered s) (hallowed : machine.Allowed s t)
    (htime : InTime s t) : Ordered (machine.next s t) := by
  obtain ⟨hj, hbus, henter⟩ := hallowed
  cases hact : t.act with
  | getDebugChar | uartIsr =>
      have hcpu := henter (by simp [hact])
      simp only [machine, Receiver.next, hact]
      exact ⟨h.exclusive, by simp [Cpu.clears], fun _ => h.outside (by simp [hcpu, Cpu.fetches]),
        by simp [Cpu.fetches]⟩
  | stall =>
      simpa only [machine, Receiver.next, hact] using h.pass t.bus s.cpu hj hbus h.announced rfl
  | run => simpa only [machine, Receiver.next, hact] using h.run t.bus hj hbus (htime hact)

/-- In every run whose loads of RXTX come in time, the software obtains a prefix of the bytes that
entered the FIFO. -/
theorem received_in_order {s : Receiver} (h : (machine.restrict InTime).Reachable s) :
    s.obtained <+: s.port.entered := by
  have hordered : Ordered s := by
    refine Machine.invariant (M := machine.restrict InTime) (fun _ => ordered_initial) ?_ h
    intro state tick hs hallowed
    exact ordered_next hs hallowed.1 hallowed.2
  exact hordered.obtained_isPrefix

/-- The receive path in reset, with nothing received. -/
def start : Receiver where
  port := ⟨Uart.reset, [], 0, [], []⟩
  driver := ⟨fun _ => 0, 0, 0, fun _ => 0, 0, 0, true, false⟩
  cpu := .idle
  obtained := []

/-- A cycle in which the CPU does `act` and the FIFO holds a byte, or is `empty`. -/
def tick (act : Act) (empty : Bool) : Tick :=
  ⟨act, .load 0, ⟨none, empty, true, 0⟩⟩

/-- A cycle in which the host adds `byte` to the empty FIFO. -/
def arrival (byte : Byte) : Tick :=
  ⟨.stall, .load 0, ⟨some byte, true, true, 0⟩⟩

/-- Two bytes arrive while the CPU is elsewhere. `get_debug_char` clears RX_EVT, the core moves
the second byte into `rx_reg` during the three cycles before the load, and the load returns
the second byte. -/
def lostByteRun : List Tick :=
  [arrival 0x24, arrival 0x6d, tick .stall false,
    tick .stall false, tick .getDebugChar false, tick .run false, tick .run false,
    tick .stall false, tick .stall true, tick .stall true, tick .run true]

/-- The byte that arrived first is lost. -/
theorem lost_byte :
    ¬ ∀ s, machine.Reachable s → s.obtained <+: s.port.entered := by
  intro h
  have hreach : machine.Reachable (machine.run start lostByteRun) :=
    .run (.initial (M := machine) ⟨rfl, rfl, rfl, rfl⟩) (by decide)
  have hprefix := h _ hreach
  rw [show (machine.run start lostByteRun).obtained = [0x6d] from by decide,
    show (machine.run start lostByteRun).port.entered = [0x24, 0x6d] from by decide] at hprefix
  exact absurd hprefix (by decide)

/-- A byte received in time: the prefix law at a run that obtains it. -/
theorem received_in_order_run :
    (machine.run start (lostByteRun.take 7 ++ [tick .run false])).obtained <+:
      (machine.run start (lostByteRun.take 7 ++ [tick .run false])).port.entered := by
  have hinit : (machine.restrict InTime).Reachable start := .initial ⟨rfl, rfl, rfl, rfl⟩
  exact received_in_order (hinit.run (by decide))

end Soc.Uart.Receive
