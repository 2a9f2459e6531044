import Soc.Conbus.Answers
import Soc.Ebr.Monitor
import Soc.Lm32.Core

/-!
# The core on its bus

`lm32_test_top.v` around the processor: the two buses of the LM32 are masters 0 and 1 of the switch,
`ram_blk` is its slave 0 and the memory of the debugger its slave 1. The peripherals behind the
other ports are the environment, and so are the interrupt unit, the debug unit and what the RAMs
leave undefined.

Each of the parts promises to keep to the rules of the bus as long as the others do. `Wired` is the
invariant that all of them do.
-/

namespace Soc.Top

open Conbus (Bus Request dbus ibus monitorBlk ramBlk select slaveSel_eq)
open Conbus.Bus (Held)
open Ebr (Slave classic presents)
open Library (Machine Undefined)
open Lm32 (Pins Running)

/-- What comes from outside in a cycle: the peripherals at the other ports, the interrupt unit and
the debug unit, and what is undefined in the two RAMs. What the system drives itself goes
nowhere. -/
structure Cycle where
  pins : Pins
  bus : Conbus.Cycle
  ram : Undefined
  monitor : Undefined

/-- The processor, the switch and the two memories. -/
structure Lm32TestTop where
  cpu : Running
  wbswitch : Bus
  ram : Slave 13
  monitor : Slave 11

namespace Lm32TestTop

variable (s : Lm32TestTop) (c : Cycle)

/-- Master 0. The switch ignores the data of a master that never writes. -/
def cpuibus : Request where
  adr := s.cpu.core.iu.iAdrO
  cti := 0b111
  sel := 0b1111
  dat := 0
  we := false
  cyc := s.cpu.core.iu.iCycO
  stb := s.cpu.core.iu.iCycO

/-- Master 1. -/
def cpudbus : Request where
  adr := s.cpu.core.lsu.dAdrO
  cti := 0b111
  sel := s.cpu.core.lsu.dSelO
  dat := s.cpu.core.lsu.dDatO
  we := s.cpu.core.lsu.dWeO
  cyc := s.cpu.core.lsu.dCycO
  stb := s.cpu.core.lsu.dCycO

/-- What the masters and slaves of the switch drive. Its other masters are not there, and neither
are slaves 2 and 4. -/
def busCycle : Conbus.Cycle :=
  { c.bus with
    master := fun m =>
      match m with
      | 0 => s.cpuibus
      | 1 => s.cpudbus
      | m => { c.bus.master m with sel := 0b1111, we := false, cyc := false, stb := false }
    portAck := fun k =>
      match k with
      | 0 => s.ram.ctrl.ebrAckO
      | 1 => s.monitor.ctrl.ebrAckO
      | _ => false
    portDat := fun k =>
      match k with
      | 0 => s.ram.ctrl.data
      | 1 => s.monitor.ctrl.data
      | k => c.bus.portDat k }

/-- What the processor sees. The board has no bus errors. -/
def cpuPins : Pins :=
  { c.pins with
    iDatI := s.wbswitch.datO (s.busCycle c)
    iAckI := s.wbswitch.ackO (s.busCycle c) ibus
    iErrI := false
    dDatI := s.wbswitch.datO (s.busCycle c)
    dAckI := s.wbswitch.ackO (s.busCycle c) dbus
    dErrI := false }

/-- What `ram_blk` sees. -/
def ramCycle : Ebr.Cycle := ⟨s.wbswitch.slaveIn (s.busCycle c) ramBlk, c.ram⟩

/-- What `monitor_blk` sees. `debug_write_lock` is 1. -/
def monitorCycle : Ebr.Monitor.Cycle :=
  ⟨true, s.wbswitch.slaveIn (s.busCycle c) monitorBlk, c.monitor⟩

/-- A cycle of `sys_clk`. -/
def next : Lm32TestTop where
  cpu := s.cpu.next (s.cpuPins c)
  wbswitch := s.wbswitch.next (s.busCycle c)
  ram := s.ram.next (s.ramCycle c)
  monitor := Ebr.Monitor.monitor.next s.monitor (s.monitorCycle c)

end Lm32TestTop

/-- The system after reset, with any contents of the memories. The environment may do anything. -/
def lm32TestTop : Machine Lm32TestTop Cycle where
  Initial s :=
    s.cpu.core.AfterReset ∧ s.cpu.transfers = [] ∧ s.wbswitch.Initial ∧
      (Ebr.slave 13).Initial s.ram ∧ Ebr.Monitor.monitor.Initial s.monitor
  Allowed _ _ := True
  next := Lm32TestTop.next

section Slaves

/-- A request that is held is the same before and after. -/
theorem held_symm {r r' : Request} (h : Held r r') : Held r' r :=
  ⟨h.1.symm, h.2.1.symm, h.2.2.1.symm, h.2.2.2.1.symm, h.2.2.2.2.1.symm, h.2.2.2.2.2.symm⟩

/-- A request that is held twice is held. -/
theorem held_trans {r r' r'' : Request} (h : Held r r') (h' : Held r' r'') : Held r r'' :=
  ⟨h'.1.trans h.1, h'.2.1.trans h.2.1, h'.2.2.1.trans h.2.2.1, h'.2.2.2.1.trans h.2.2.2.1,
    h'.2.2.2.2.1.trans h.2.2.2.2.1, h'.2.2.2.2.2.trans h.2.2.2.2.2⟩

/-- A memory at port `k` of the switch. It answers only after it has seen a request, and a request
that it has yet to answer is that of the granted master. -/
structure Attached {w : Nat} (bus : Bus) (slave : Slave w) (k : Fin 6) : Prop where
  serving : slave.Serving
  ack : slave.ctrl.ebrAckO = true → bus.portSaw k = true ∧ bus.portAcked k = false
  waits : presents slave.last = true → slave.acked = false →
    bus.Waits bus.gnt k ∧ Held slave.last (bus.last bus.gnt)

variable {w : Nat} {bus : Bus} {slave : Slave w} {k : Fin 6} {c : Conbus.Cycle} {e : Ebr.Cycle}

/-- The request on the bus is the one that waits. -/
theorem Attached.held (h : Attached bus slave k) (hallowed : bus.Allowed c)
    (hpresents : presents slave.last = true) (hacked : slave.acked = false) :
    Held slave.last (c.master bus.gnt) ∧ select (c.master bus.gnt).adr = k := by
  obtain ⟨hwaits, hlast⟩ := h.waits hpresents hacked
  have hrule := hallowed.1 bus.gnt hwaits.cyc
  rw [hwaits.unanswered, if_neg Bool.false_ne_true] at hrule
  refine ⟨held_trans hlast hrule, ?_⟩
  rw [hrule.2.2.1]
  exact hwaits.adr

/-- What a slave sees of a request that is addressed to it. -/
theorem slaveIn_of_select (hselect : select (c.master bus.gnt).adr = k) :
    bus.slaveIn c k = c.master bus.gnt := by
  rw [Bus.slaveIn, Bus.iBusM, slaveSel_eq, hselect, decide_eq_true rfl, Bool.and_true]

/-- The bus keeps to the rules of the memory. -/
theorem Attached.holds (h : Attached bus slave k) (hallowed : bus.Allowed c)
    (hin : Held (bus.slaveIn c k) e.wb)
    (hclassic : presents e.wb = true → classic e.wb.cti = true) : slave.Holds e := by
  refine ⟨hclassic, fun hpresents hacked => ?_⟩
  obtain ⟨hheld, hselect⟩ := h.held hallowed hpresents hacked
  rw [slaveIn_of_select hselect] at hin
  exact held_trans hheld hin

/-- An access that the memory sees is that of the granted master. -/
theorem select_of_presents (hin : Held (bus.slaveIn c k) e.wb) (hpresents : presents e.wb = true) :
    (c.master bus.gnt).cyc = true ∧ (c.master bus.gnt).stb = true ∧
      select (c.master bus.gnt).adr = k := by
  rw [presents, hin.1, hin.2.1, Bus.slaveIn, Bus.iBusM, slaveSel_eq] at hpresents
  simp only [Bool.and_eq_true, decide_eq_true_iff] at hpresents
  exact ⟨hpresents.1.1, hpresents.2, hpresents.1.2.symm⟩

/-- A cycle keeps the memory attached. -/
theorem Attached.next (h : Attached bus slave k) (hbus : bus.Serving) (hallowed : bus.Allowed c)
    (hin : Held (bus.slaveIn c k) e.wb)
    (hclassic : presents e.wb = true → classic e.wb.cti = true)
    (hack : bus.slaveAck c k = slave.ctrl.ebrAckO) :
    Attached (bus.next c) (slave.next e) k := by
  have hserving := h.serving.next (h.holds hallowed hin hclassic)
  refine ⟨hserving, fun hnext => ?_, fun hpresents hacked => ?_⟩
  · cases hserving with
    | idle _ hnot => exact absurd (hnot.symm.trans hnext) Bool.false_ne_true
    | ending _ _ hpresents hacked =>
        change presents e.wb = true at hpresents
        rw [presents, hin.1, hin.2.1] at hpresents
        exact ⟨hpresents, hack.trans hacked⟩
  · change presents e.wb = true at hpresents
    obtain ⟨hcyc, hstb, hselect⟩ := select_of_presents hin hpresents
    have hstay : (bus.next c).gnt = bus.gnt :=
      Conbus.nextGnt_of_req (fun m => (c.master m).cyc) bus.gnt hcyc
    rw [hstay]
    rw [slaveIn_of_select hselect] at hin
    exact ⟨⟨hcyc, hstb, hbus.not_ackO hallowed hselect (hack.trans hacked), hselect⟩,
      held_symm hin⟩

/-- Nothing is attached to wait after reset. -/
theorem Attached.of_initial (hslave : (Ebr.slave w).Initial slave) : Attached bus slave k := by
  obtain ⟨⟨hack, hrest⟩, hlast⟩ := hslave
  refine ⟨Slave.serving_of_initial ⟨⟨hack, hrest⟩, hlast⟩, fun h => ?_, fun h => ?_⟩
  · exact absurd (hack.symm.trans h) Bool.false_ne_true
  · exact absurd (hlast.symm.trans h) Bool.false_ne_true

end Slaves

namespace Lm32TestTop

variable {s : Lm32TestTop} {c : Cycle}

/-- The masters and the memories keep to the rules of the bus. -/
structure Wired (s : Lm32TestTop) : Prop where
  serving : s.wbswitch.Serving
  rule : ∀ c m, s.wbswitch.MasterRule (s.busCycle c) m
  ram : Attached s.wbswitch s.ram 0
  monitor : Attached s.wbswitch s.monitor 1

/-- The bus carries what it may carry. -/
theorem Wired.allowed (h : s.Wired) (c : Cycle) : s.wbswitch.Allowed (s.busCycle c) := by
  refine ⟨h.rule c, fun k hmemory hcsrbrg hack => ?_⟩
  match k, hmemory, hcsrbrg, hack with
  | 0, _, _, hack =>
      obtain ⟨hsaw, hnot⟩ := h.ram.ack hack
      exact ⟨hsaw, Bool.eq_false_iff.1 hnot⟩
  | 1, _, _, hack =>
      obtain ⟨hsaw, hnot⟩ := h.monitor.ack hack
      exact ⟨hsaw, Bool.eq_false_iff.1 hnot⟩
  | 2, _, _, hack | 4, _, _, hack => exact absurd hack Bool.false_ne_true
  | 3, hne, _, _ => exact absurd rfl hne
  | 5, _, hne, _ => exact absurd rfl hne

/-- Only the two buses of the processor ask for anything. -/
theorem master_of_cyc {m : Fin 5} (hcyc : ((s.busCycle c).master m).cyc = true) :
    m = ibus ∨ m = dbus := by
  have hall : ∀ m : Fin 5, m = ibus ∨ m = dbus ∨ m = 2 ∨ m = 3 ∨ m = 4 := by decide
  rcases hall m with rfl | rfl | rfl | rfl | rfl
  · exact .inl rfl
  · exact .inr rfl
  · exact absurd hcyc Bool.false_ne_true
  · exact absurd hcyc Bool.false_ne_true
  · exact absurd hcyc Bool.false_ne_true

/-- The processor asks for classic accesses only. -/
theorem classic_of_presents (hpresents : presents (s.ramCycle c).wb = true) :
    classic (s.ramCycle c).wb.cti = true := by
  have hin : Held (s.wbswitch.slaveIn (s.busCycle c) ramBlk) (s.ramCycle c).wb :=
    ⟨rfl, rfl, rfl, rfl, rfl, rfl⟩
  obtain ⟨hcyc, -, -⟩ := select_of_presents hin hpresents
  change classic ((s.busCycle c).master s.wbswitch.gnt).cti = true
  rcases master_of_cyc hcyc with hgnt | hgnt <;> rw [hgnt] <;> rfl

/-- The processor holds a request until it is answered and drops it then. -/
theorem rule_next (s : Lm32TestTop) (c c' : Cycle) (m : Fin 5) :
    (s.next c).wbswitch.MasterRule ((s.next c).busCycle c') m := by
  intro hlast
  change ((s.busCycle c).master m).cyc = true at hlast
  change if s.wbswitch.ackO (s.busCycle c) m then _ else _
  match m, hlast with
  | 0, hlast =>
      change s.cpu.core.iu.iCycO = true at hlast
      have hcyc : (s.next c).cpu.core.iu.iCycO = !(s.wbswitch.ackO (s.busCycle c) 0 || false) := by
        change (if s.cpu.core.iu.iCycO then _ else _) = _
        rw [hlast]
        rfl
      have hadr : (s.next c).cpu.core.iu.iAdrO = s.cpu.core.iu.iAdrO := by
        change (if !s.cpu.core.iu.iCycO && _ then _ else _) = _
        rw [hlast]
        rfl
      cases hack : s.wbswitch.ackO (s.busCycle c) 0 with
      | true =>
          rw [if_pos rfl]
          change (s.next c).cpu.core.iu.iCycO = false
          rw [hcyc, hack]
          rfl
      | false =>
          rw [if_neg Bool.false_ne_true]
          have hstay : (s.next c).cpu.core.iu.iCycO = s.cpu.core.iu.iCycO := by
            rw [hcyc, hack, hlast]
            rfl
          exact ⟨hstay, hstay, hadr, rfl, rfl, rfl⟩
  | 1, hlast =>
      change s.cpu.core.lsu.dCycO = true at hlast
      have hdone : s.cpu.core.lsu.completes (s.cpu.core.loadStoreIn (s.cpuPins c)) =
          s.wbswitch.ackO (s.busCycle c) 1 := by
        change (s.cpu.core.lsu.dCycO && (s.wbswitch.ackO (s.busCycle c) 1 || false)) = _
        rw [hlast, Bool.or_false, Bool.true_and]
      have hlsu : (s.next c).cpu.core.lsu =
          s.cpu.core.lsu.next (s.cpu.core.loadStoreIn (s.cpuPins c)) := rfl
      have hstore : s.cpu.core.lsu.startsStore (s.cpu.core.loadStoreIn (s.cpuPins c)) = false := by
        simp [Lm32.LoadStoreUnit.startsStore, hlast]
      have hload : s.cpu.core.lsu.startsLoad (s.cpu.core.loadStoreIn (s.cpuPins c)) = false := by
        simp [Lm32.LoadStoreUnit.startsLoad, hlast]
      have hcyc : (s.next c).cpu.core.lsu.dCycO = !s.wbswitch.ackO (s.busCycle c) 1 := by
        rw [hlsu, ← hdone, Lm32.LoadStoreUnit.next]
        dsimp only
        rw [if_pos hlast]
      cases hack : s.wbswitch.ackO (s.busCycle c) 1 with
      | true =>
          rw [if_pos rfl]
          change (s.next c).cpu.core.lsu.dCycO = false
          rw [hcyc, hack]
          rfl
      | false =>
          rw [if_neg Bool.false_ne_true]
          have hstay : (s.next c).cpu.core.lsu.dCycO = s.cpu.core.lsu.dCycO := by
            rw [hcyc, hack, hlast]
            rfl
          refine ⟨hstay, hstay, ?_, ?_, ?_, ?_⟩
          · change (s.next c).cpu.core.lsu.dAdrO = s.cpu.core.lsu.dAdrO
            simp [hlsu, Lm32.LoadStoreUnit.next, hstore, hload]
          · change (s.next c).cpu.core.lsu.dWeO = s.cpu.core.lsu.dWeO
            simp [hlsu, Lm32.LoadStoreUnit.next, hstore, hload]
          · change (s.next c).cpu.core.lsu.dSelO = s.cpu.core.lsu.dSelO
            simp [hlsu, Lm32.LoadStoreUnit.next, hstore, hload]
          · change (s.next c).cpu.core.lsu.dDatO = s.cpu.core.lsu.dDatO
            simp [hlsu, Lm32.LoadStoreUnit.next, hstore]
  | 2, hlast | 3, hlast | 4, hlast => exact absurd hlast Bool.false_ne_true

/-- A cycle keeps the invariant. -/
theorem Wired.next (h : s.Wired) (c : Cycle) : (s.next c).Wired where
  serving := h.serving.next (h.allowed c)
  rule := s.rule_next c
  ram := h.ram.next (e := s.ramCycle c) h.serving (h.allowed c) ⟨rfl, rfl, rfl, rfl, rfl, rfl⟩
    classic_of_presents rfl
  monitor := h.monitor.next (e := (s.monitorCycle c).ramBlk) h.serving (h.allowed c)
    ⟨rfl, rfl, rfl, rfl, rfl, rfl⟩ (fun _ => rfl) rfl

/-- The invariant after reset. -/
theorem Wired.of_initial (h : lm32TestTop.Initial s) : s.Wired := by
  obtain ⟨-, -, hbus, hram, hmonitor⟩ := h
  refine ⟨hbus.serving, fun c m hlast => ?_, .of_initial hram, .of_initial hmonitor⟩
  exact absurd (((hbus.2.2.2.1 m).1).symm.trans hlast) Bool.false_ne_true

end Lm32TestTop

end Soc.Top
