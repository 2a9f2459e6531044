import Soc.Library.Machine
import Soc.Gdbstub.DebugChar
import Soc.Gdbstub.Exception

/-!
# A debug stop and the UART

`handle_exception` with its accesses to the UART registers: it waits for THRE and samples
STAT, talks with GDB one character at a time, and writes STAT on its way out. Any number of
cycles passes between two accesses, and the FIFOs do what they like. Every conversation ends
with TX_EVT set by the stub's own characters, so the bit left behind is the opposite of the
sampled one.
-/

namespace Soc.Gdbstub

open Library (Machine)
open Uart
open Port (acknowledgesTx sends)

/-- Where `handle_exception` stands. Between two characters of the conversation it handles a
command. -/
inductive StopPc where
  | clearDebug
  | waitThre
  | readStat
  | readDivisor
  | setDivisor
  | talk
  | get (pc : GetPc)
  | put (c : Byte) (pc : PutPc)
  | setStat
  | restoreDivisor
  | restoreDebug
  | returned
  deriving DecidableEq

/-- The UART, the locals of `handle_exception`, the stub's own value for DIVISOR, and the rest of
the conversation. -/
structure Stop where
  port : Port
  pc : StopPc
  stat : Word
  uartDiv : Word
  speed : Word
  io : List Io

/-- What goes by in a cycle: whether the code executes its next access, the bus cycle if it makes
none, and the FIFOs. -/
structure StopTick where
  run : Bool
  bus : CsrBus
  jtag : Jtag

/-- `UART_DEBUG_BREAK_EN`. -/
def UART_DEBUG_BREAK_EN : Word := 0x1

namespace Stop

/-- The access at each point. The way out writes the sampled TX_EVT bit to STAT. -/
def access (s : Stop) : Option CsrBus :=
  match s.pc with
  | .clearDebug => some (.store DEBUG 0)
  | .waitThre | .readStat => some (.load STAT)
  | .readDivisor => some (.load DIVISOR)
  | .setDivisor => some (.store DIVISOR s.speed)
  | .talk | .returned => none
  | .get pc => getDebugChar.access () pc
  | .put c pc => (putDebugChar c).access () pc
  | .setStat => some (.store STAT (s.stat &&& STAT_TX_EVT))
  | .restoreDivisor => some (.store DIVISOR s.uartDiv)
  | .restoreDebug => some (.store DEBUG UART_DEBUG_BREAK_EN)

/-- Execute the next access. -/
def run (s : Stop) (bus : CsrBus) (j : Jtag) : Stop :=
  let port := s.port.cycle (s.access.getD bus) j
  let data := port.uart.csrDo
  match s.pc with
  | .clearDebug => { s with port, pc := .waitThre }
  | .waitThre => { s with port, pc := if test data STAT_THRE then .readStat else .waitThre }
  | .readStat => { s with port, pc := .readDivisor, stat := data }
  | .readDivisor => { s with port, pc := .setDivisor, uartDiv := data }
  | .setDivisor => { s with port, pc := .talk }
  | .talk =>
      match s.io with
      | [] => { s with port, pc := .setStat }
      | .got _ :: _ => { s with port, pc := .get .poll }
      | .put c :: _ => { s with port, pc := .put c .send }
  | .get pc =>
      match (getDebugChar.next () pc data).2 with
      | .inl pc' => { s with port, pc := .get pc' }
      | .inr _ => { s with port, pc := .talk, io := s.io.tail }
  | .put c pc =>
      match ((putDebugChar c).next () pc data).2 with
      | .inl pc' => { s with port, pc := .put c pc' }
      | .inr _ => { s with port, pc := .talk, io := s.io.tail }
  | .setStat => { s with port, pc := .restoreDivisor }
  | .restoreDivisor => { s with port, pc := .restoreDebug }
  | .restoreDebug => { s with port, pc := .returned }
  | .returned => { s with port }

/-- One cycle. -/
def next (s : Stop) (t : StopTick) : Stop :=
  if t.run then s.run t.bus t.jtag else { s with port := s.port.cycle t.bus t.jtag }

/-- The bus cycle stores nothing to RXTX and STAT. -/
def Quiet (bus : CsrBus) : Prop :=
  sends bus = false ∧ bus.writes Port.csrAddr 2 = false

instance (bus : CsrBus) : Decidable (Quiet bus) :=
  inferInstanceAs (Decidable (_ ∧ _))

/-- The stop of a stub that has the conversation `io` with GDB. -/
def Converses (io : List Io) : Prop :=
  ∃ (stub : Stub) (input : List Byte) (r : Stub × List Byte),
    stub.handleException input = ⟨io, some r⟩

/-- A debug stop in any state of the UART. A command with a reply still to come may access anything,
the UART registers included. The characters received are those of the conversation. -/
def machine : Machine Stop StopTick where
  Initial s := s.pc = .clearDebug ∧ Converses s.io
  Allowed s t := (Quiet t.bus ∨ s.pc = .talk ∧ Speaks s.io) ∧
    (t.run = true → s.pc = .get .fetch → s.io.head? = some (.got s.port.uart.rxReg))
  next := next

instance (s : Stop) (t : StopTick) : Decidable (machine.Allowed s t) :=
  inferInstanceAs (Decidable (_ ∧ (_ → _ → _)))

/-- A character was sent, and the event it raised is pending. -/
def Spoken (port : Port) : Prop :=
  port.uart.thre = true ∧ port.uart.txEvent = true

/-- The transmitter only becomes idle with an event. -/
def Raised (port : Port) : Prop :=
  port.uart.thre = true → port.uart.txEvent = true

section Cycle

variable {port : Port} {bus : CsrBus} {j : Jtag}

/-- A quiet cycle acknowledges nothing. -/
theorem Quiet.ack (h : Quiet bus) : acknowledgesTx bus = false := by
  rw [acknowledgesTx, h.2, Bool.false_and]

/-- A quiet cycle keeps the pending event of an idle transmitter. -/
theorem Spoken.cycle (h : Spoken port) (hquiet : Quiet bus) : Spoken (port.cycle bus j) := by
  obtain ⟨hthre, hevent⟩ := h
  simp [Spoken, Port.cycle_thre_eq, Port.cycle_txEvent_eq, Port.jtagWe_of_thre hthre, hquiet.1,
    hquiet.ack, hthre, hevent]

/-- A cycle that acknowledges nothing keeps the transmitter from becoming idle silently. -/
theorem Raised.cycle (h : Raised port) (hack : acknowledgesTx bus = false) :
    Raised (port.cycle bus j) := by
  unfold Raised at h ⊢
  rw [Port.cycle_thre_eq, Port.cycle_txEvent_eq, hack]
  cases port.uart.jtagWe j.full with
  | true => simp
  | false =>
      cases sends bus with
      | true => simp
      | false => simpa using h

/-- A store to RXTX starts a transmission that ends with an event, whatever was going on before. -/
theorem cycle_send_raised (hsend : sends bus = true) (hack : acknowledgesTx bus = false) :
    Raised (port.cycle bus j) := by
  unfold Raised
  rw [Port.cycle_thre_eq, Port.cycle_txEvent_eq, hack, hsend]
  cases port.uart.jtagWe j.full <;> simp

end Cycle

/-- What is left behind: the transmitter is idle, and its event is the opposite of the sampled
one. -/
def Inverted (port : Port) (stat : Word) : Prop :=
  port.uart.thre = true ∧ port.uart.txEvent = !bit stat 2

/-- A quiet cycle keeps what is left behind. -/
theorem Inverted.cycle {port : Port} {stat : Word} {bus : CsrBus} {j : Jtag}
    (h : Inverted port stat) (hquiet : Quiet bus) : Inverted (port.cycle bus j) stat := by
  obtain ⟨hthre, hevent⟩ := h
  simp [Inverted, Port.cycle_thre_eq, Port.cycle_txEvent_eq, Port.jtagWe_of_thre hthre, hquiet.1,
    hquiet.ack, hthre, hevent]

/-- Writing the sampled TX_EVT bit to STAT inverts it: a set bit clears the pending event, and a
clear one leaves it. -/
theorem Spoken.setStat {port : Port} {stat : Word} {j : Jtag} (h : Spoken port) :
    Inverted (port.cycle (.store STAT (stat &&& STAT_TX_EVT)) j) stat := by
  obtain ⟨hthre, hevent⟩ := h
  have hbit : bit (stat &&& STAT_TX_EVT) 2 = bit stat 2 := by simp [bit, STAT_TX_EVT]
  refine ⟨by simp [Port.cycle_thre_eq, Port.jtagWe_of_thre hthre, hthre], ?_⟩
  rw [Port.cycle_txEvent_eq, Port.acknowledgesTx_store_stat, hbit, Port.jtagWe_of_thre hthre,
    hevent]
  cases bit stat 2 <;> rfl

/-- The invariant of a debug stop: as long as the stub still has to send a character nothing is
known of the event, and after the last one it is pending until the way out. -/
def Phase (s : Stop) : Prop :=
  match s.pc with
  | .clearDebug | .waitThre | .readStat | .readDivisor | .setDivisor => Speaks s.io
  | .talk => Speaks s.io ∨ Spoken s.port
  | .get _ => ∃ c io, s.io = .got c :: io ∧ (Speaks io ∨ Spoken s.port)
  | .put c .send => ∃ io, s.io = .put c :: io
  | .put c .wait => (∃ io, s.io = .put c :: io) ∧ Raised s.port
  | .setStat => Spoken s.port
  | .restoreDivisor | .restoreDebug | .returned => Inverted s.port s.stat

variable {s : Stop} {bus : CsrBus} {j : Jtag}

/-- A cycle that goes by keeps the invariant. -/
theorem phase_stall (h : Phase s) (hbus : Quiet bus ∨ s.pc = .talk ∧ Speaks s.io) :
    Phase { s with port := s.port.cycle bus j } := by
  obtain ⟨port, pc, stat, uartDiv, speed, io⟩ := s
  obtain hquiet | ⟨rfl, hspeaks⟩ := hbus
  · cases pc with
    | clearDebug | waitThre | readStat | readDivisor | setDivisor => exact h
    | talk => exact h.imp_right fun hspoken => hspoken.cycle hquiet
    | get pc =>
        obtain ⟨c, io, hio, hphase⟩ := h
        exact ⟨c, io, hio, hphase.imp_right fun hspoken => hspoken.cycle hquiet⟩
    | put c pc =>
        cases pc with
        | send => exact h
        | wait => exact ⟨h.1, Raised.cycle h.2 hquiet.ack⟩
    | setStat => exact Spoken.cycle h hquiet
    | restoreDivisor | restoreDebug | returned => exact Inverted.cycle h hquiet
  · exact .inl hspeaks

/-- A load or a store to DIVISOR or DEBUG is quiet. -/
theorem quiet_load (a : BitVec 14) : Quiet (.load a) := by
  simp [Quiet]

theorem quiet_divisor (w : Word) : Quiet (.store DIVISOR w) := by
  simp [Quiet, DIVISOR, sends]

theorem quiet_debug (w : Word) : Quiet (.store DEBUG w) := by
  simp [Quiet, DEBUG, sends]

/-- Every access keeps the invariant. -/
theorem phase_run (h : Phase s) (hbus : Quiet bus ∨ s.pc = .talk ∧ Speaks s.io) :
    Phase (s.run bus j) := by
  obtain ⟨port, pc, stat, uartDiv, speed, io⟩ := s
  cases pc with
  | clearDebug | readStat | readDivisor => exact h
  | waitThre =>
      simp only [run, access, Option.getD_some, csrDo_load_stat, test_thre, stat_thre]
      cases port.uart.thre <;> exact h
  | setDivisor => exact .inl h
  | talk =>
      cases io with
      | nil =>
          -- The conversation is over, so the last character has been sent.
          obtain ⟨c, hc⟩ | hspoken := h
          · cases hc
          · obtain hquiet | ⟨-, c, hc⟩ := hbus
            · exact hspoken.cycle hquiet
            · cases hc
      | cons next io =>
          cases next with
          | put c => exact ⟨io, rfl⟩
          | got c =>
              refine ⟨c, io, rfl, ?_⟩
              rw [speaks_got] at hbus
              obtain hspeaks | hspoken := h
              · exact .inl ((speaks_got c io).1 hspeaks)
              · exact hbus.symm.imp And.right fun hquiet => hspoken.cycle hquiet
  | get pc =>
      obtain ⟨c, io', rfl, hphase⟩ := h
      have hafter : ∀ bus, Quiet bus → Speaks io' ∨ Spoken (port.cycle bus j) :=
        fun bus hquiet => hphase.imp_right fun hspoken => hspoken.cycle hquiet
      cases pc with
      | poll =>
          simp only [run, access, getDebugChar, Option.getD_some, csrDo_load_stat, test_rx_evt,
            stat_rx_evt]
          cases port.uart.rxEvent <;> exact ⟨c, io', rfl, hafter _ (quiet_load STAT)⟩
      | clear =>
          -- Clearing RX_EVT leaves TX_EVT alone.
          refine ⟨c, io', rfl, hphase.imp_right fun hspoken => ?_⟩
          obtain ⟨hthre, hevent⟩ : Spoken port := hspoken
          show Spoken (port.cycle (.store STAT STAT_RX_EVT) j)
          simp [Spoken, Port.cycle_thre_eq, Port.cycle_txEvent_eq, Port.jtagWe_of_thre hthre, hthre,
            hevent, bit, STAT_RX_EVT]
      | fetch => exact hafter _ (quiet_load RXTX)
  | put c pc =>
      cases pc with
      | send =>
          exact ⟨h, cycle_send_raised (Port.sends_store_rxtx _)
            (Port.acknowledgesTx_store_rxtx _)⟩
      | wait =>
          obtain ⟨⟨io', rfl⟩, hraised⟩ := h
          have hafter : Raised (port.cycle (.load STAT) j) :=
            hraised.cycle (Port.acknowledgesTx_load STAT)
          simp only [run, access, putDebugChar, Option.getD_some, csrDo_load_stat, test_thre,
            stat_thre]
          cases hthre : port.uart.thre with
          | false => exact ⟨⟨io', rfl⟩, hafter⟩
          | true =>
              have hspoken : Spoken port := ⟨hthre, hraised hthre⟩
              exact .inr (hspoken.cycle (quiet_load STAT))
  | setStat => exact Spoken.setStat h
  | restoreDivisor => exact Inverted.cycle h (quiet_divisor _)
  | restoreDebug => exact Inverted.cycle h (quiet_debug _)
  | returned =>
      obtain hquiet | ⟨hpc, -⟩ := hbus
      · exact Inverted.cycle h hquiet
      · cases hpc

/-- The invariant holds in every run. -/
theorem phase_of_reachable (h : machine.Reachable s) : Phase s := by
  refine Machine.invariant (fun s hinit => ?_) (fun s t hphase hallowed => ?_) h
  · obtain ⟨hpc, stub, input, r, hio⟩ := hinit
    unfold Phase
    rw [hpc]
    exact Stub.handleException_speaks hio
  · show Phase (s.next t)
    unfold next
    split_ifs
    · exact phase_run hphase hallowed.1
    · exact phase_stall hphase hallowed.1

/-- Whatever was exchanged and however the stub was left, TX_EVT after `handle_exception` is never
what was sampled at its entry. -/
theorem event_not_restored (h : machine.Reachable s) (hreturned : s.pc = .returned) :
    ¬ (s.port.uart.txEvent = true ↔ test s.stat STAT_TX_EVT = true) := by
  have hphase := phase_of_reachable h
  unfold Phase at hphase
  rw [hreturned] at hphase
  obtain ⟨-, hevent⟩ := hphase
  rw [hevent, test_tx_evt]
  cases bit s.stat 2 <;> simp

/-- The kill packet GDB sends. -/
def killPacket : List Byte := text "$k#6b"

/-- A stub that GDB is not connected to, as after an earlier debug stop. -/
def idleStub : Stub where
  remcomInBuffer := fun _ => 0
  remcomOutBuffer := fun _ => 0
  bpAddress := fun _ => 0
  wpAddress := fun _ => 0
  bpwpEnabled := 0
  gdbConnected := false
  dc := 0
  cfg := 0x01100000
  debug := ⟨fun _ => 0, fun _ => false, fun _ => 0, fun _ => 0, false⟩
  written := fun _ => none
  mem := fun _ => 0
  registers := 0x10001f00
  scratchpad := 1

/-- A stop of the application between the end of a transmission and its interrupt: TX_EVT is set. -/
def start : Stop where
  port := ⟨{ Uart.reset with txEvent := true }, [], 0, [], []⟩
  pc := .clearDebug
  stat := 0
  uartDiv := 0
  speed := 54
  io := (idleStub.handleException killPacket).io

/-- The stub executes an access while the host sends `arrival`. -/
def tick (arrival : Option Byte) (empty : Bool) : StopTick :=
  ⟨true, .load 0, ⟨arrival, empty, false, 0⟩⟩

/-- The cycles in which the stub receives `c`. -/
def receives (c : Byte) : List StopTick :=
  [tick (some c) true, tick none false] ++ List.replicate 4 (tick none true)

/-- The whole stop: the entry, the packet, and the way out. -/
def killRun : List StopTick :=
  List.replicate 5 (tick none true) ++ killPacket.flatMap receives ++
    List.replicate 12 (tick none true)

/-- The stub has this conversation. -/
theorem converses_kill : Converses start.io :=
  ⟨idleStub, killPacket, _, rfl⟩

/-- TX_EVT was set at the entry and is clear afterwards. -/
theorem event_lost :
    ¬ ∀ s, machine.Reachable s → s.pc = .returned →
      (s.port.uart.txEvent = true ↔ test s.stat STAT_TX_EVT = true) := by
  intro h
  have hreach : machine.Reachable (machine.run start killRun) :=
    .run (.initial (M := machine) ⟨rfl, converses_kill⟩) (by decide)
  exact absurd (h _ hreach (by decide)) (by decide)

/-- The law at the end of that stop. -/
theorem event_not_restored_kill :
    ¬ ((machine.run start killRun).port.uart.txEvent = true ↔
      test (machine.run start killRun).stat STAT_TX_EVT = true) := by
  have hreach : machine.Reachable (machine.run start killRun) :=
    .run (.initial (M := machine) ⟨rfl, converses_kill⟩) (by decide)
  exact event_not_restored hreach (by decide)

end Stop

end Soc.Gdbstub
