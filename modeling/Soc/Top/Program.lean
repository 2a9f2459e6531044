import Soc.Lm32.Refinement
import Soc.Top.System

/-!
# A program in the memories of the board

The two memories hold what the processor has stored, transfer by transfer, and a fetch or a load
that goes to one of them is answered from it. So a program there that does not overwrite itself is
carried out as the instruction set says, over a memory that holds what was stored last, however the
two buses of the processor get into each other's way. What comes from the peripherals is up to them.
-/

namespace Soc.Top

open Conbus (Bus dbus ibus monitorBlk ramBlk select slaveSel_eq)
open Conbus.Bus (Held)
open Ebr (Slave classic presents)
open Ebr.Slave (word)
open Library (Machine merge)
open Lm32 (Access Arch Brings Event Outside Pc Pins Running isa lm32 lm32_run)

/-- The contents of the two memories. -/
structure Memory where
  ram : BitVec 13 → Word
  monitor : BitVec 11 → Word

/-- Two addresses of the same word of a memory. -/
def SameWord (adr adr' : Word) : Prop :=
  select adr = select adr' ∧
    (select adr = ramBlk ∧ word 13 adr = word 13 adr' ∨
      select adr = monitorBlk ∧ word 11 adr = word 11 adr')

instance (adr adr' : Word) : Decidable (SameWord adr adr') := inferInstanceAs (Decidable (_ ∧ _))

namespace Memory

variable (m : Memory)

/-- The memories after a transfer. -/
def store (t : Access) : Memory where
  ram i :=
    if t.we = true ∧ select t.adr = ramBlk ∧ word 13 t.adr = i then merge t.sel t.dat (m.ram i)
    else m.ram i
  monitor i :=
    if t.we = true ∧ select t.adr = monitorBlk ∧ word 11 t.adr = i then
      merge t.sel t.dat (m.monitor i)
    else m.monitor i

/-- The word at an address, if a memory is there. -/
def load (adr : Word) : Option Word :=
  if select adr = ramBlk then some (m.ram (word 13 adr))
  else if select adr = monitorBlk then some (m.monitor (word 11 adr))
  else none

/-- A word that a transfer does not store to. -/
theorem load_store {t : Access} {adr : Word} (h : t.we = true → ¬ SameWord t.adr adr) :
    (m.store t).load adr = m.load adr := by
  have hram : select adr = ramBlk →
      ¬ (t.we = true ∧ select t.adr = ramBlk ∧ word 13 t.adr = word 13 adr) :=
    fun hadr ⟨hwe, hselect, hword⟩ => h hwe ⟨hselect.trans hadr.symm, .inl ⟨hselect, hword⟩⟩
  have hmonitor : select adr = monitorBlk →
      ¬ (t.we = true ∧ select t.adr = monitorBlk ∧ word 11 t.adr = word 11 adr) :=
    fun hadr ⟨hwe, hselect, hword⟩ => h hwe ⟨hselect.trans hadr.symm, .inr ⟨hselect, hword⟩⟩
  rw [load, load]
  split
  · rename_i hadr
    exact congrArg some (if_neg (hram hadr))
  · split
    · rename_i hadr
      exact congrArg some (if_neg (hmonitor hadr))
    · rfl

/-- A word that no transfer stores to. -/
theorem load_stores {ts : List Access} {adr : Word}
    (h : ∀ t ∈ ts, t.we = true → ¬ SameWord t.adr adr) :
    (ts.foldl store m).load adr = m.load adr := by
  induction ts generalizing m with
  | nil => rfl
  | cons t ts ih =>
      rw [List.foldl_cons, ih (m.store t) fun t ht => h t (List.mem_cons_of_mem _ ht)]
      exact m.load_store (h t List.mem_cons_self)

/-- The lowest two bits of an address do not matter. -/
theorem load_aligned (adr : Word) : m.load (adr.extractLsb' 2 30 ++ 0#2) = m.load adr := by
  have hslice : ∀ start n, 2 ≤ start → start + n ≤ 32 →
      (adr.extractLsb' 2 30 ++ 0#2).extractLsb' start n = adr.extractLsb' start n := by
    intro start n hstart hn
    apply BitVec.eq_of_getLsbD_eq
    intro i hi
    have hlow : ¬ start + i < 2 := by omega
    have hinside : start + i - 2 < 30 := by omega
    rw [BitVec.getLsbD_extractLsb', BitVec.getLsbD_extractLsb', BitVec.getLsbD_append, if_neg hlow,
      BitVec.getLsbD_extractLsb', decide_eq_true hinside, Bool.true_and,
      show 2 + (start + i - 2) = start + i by omega]
  have hselect : select (adr.extractLsb' 2 30 ++ 0#2) = select adr := by
    rw [select, select, hslice 29 2 (by decide) (by decide), hslice 28 3 (by decide) (by decide)]
  rw [load, load, hselect, Ebr.word_eq, Ebr.word_eq, Ebr.word_eq, Ebr.word_eq,
    hslice 2 13 (by decide) (by decide), hslice 2 11 (by decide) (by decide)]

end Memory

section Slaves

variable {w : Nat} {bus : Bus} {slave : Slave w} {k : Fin 6} {c : Conbus.Cycle} {e : Ebr.Cycle}

/-- A word of a memory after a cycle. -/
theorem cells_next (h : slave.Serving) (hholds : slave.Holds e) (i : BitVec w) :
    (slave.next e).ctrl.ram.cells i =
      if slave.ctrl.ebrAckO = true ∧ presents e.wb = true ∧ e.wb.we = true ∧
          word w e.wb.adr = i then
        merge e.wb.sel e.wb.dat (slave.ctrl.ram.cells i)
      else slave.ctrl.ram.cells i := by
  refine Library.eq_of_lanes fun k hk => ?_
  have hbyte := h.byte_next hholds (i := i) hk
  change Library.lane _ k = _ at hbyte
  rw [hbyte, Slave.written]
  by_cases hwrite : slave.ctrl.ebrAckO = true ∧ presents e.wb = true ∧ e.wb.we = true ∧
      word w e.wb.adr = i
  · rw [if_pos hwrite, Library.lane_merge _ _ _ hk]
    obtain ⟨hack, hpresents, hwe, hword⟩ := hwrite
    by_cases hsel : e.wb.sel.getLsbD k = true
    · rw [if_pos hsel, if_pos ⟨hack, hpresents, hwe, hword, hsel⟩, Option.getD_some]
    · rw [if_neg hsel, if_neg fun hall => hsel hall.2.2.2.2, Option.getD_none]
      rfl
  · rw [if_neg hwrite, if_neg fun hall => hwrite ⟨hall.1, hall.2.1, hall.2.2.1, hall.2.2.2.1⟩,
      Option.getD_none]
    rfl

/-- A master that is answered by a memory sees the word it asks for. -/
theorem Attached.datO_eq (h : Attached bus slave k) (hbus : bus.Serving) (hallowed : bus.Allowed c)
    (hack : bus.slaveAck c k = slave.ctrl.ebrAckO) (hdat : bus.slaveDat c k = slave.ctrl.data)
    {m : Fin 5} (hseen : bus.ackO c m = true) (hselect : select (c.master m).adr = k) :
    bus.datO c = slave.ctrl.ram.cells (word w (c.master m).adr) := by
  have hanswered := hbus.answered hallowed
  have hready : slave.ctrl.ebrAckO = true := by
    rw [← hack]
    exact (hanswered.selected m hseen k).2 hselect.symm
  obtain rfl := (Bus.of_ackO hseen).1
  rw [hanswered.data _ hseen, hselect, hdat]
  cases h.serving with
  | idle _ hnot => exact absurd (hnot.symm.trans hready) Bool.false_ne_true
  | ending _ _ hpresents hacked hdata =>
      rw [hdata, (h.held hallowed hpresents hacked).1.2.2.1]

end Slaves

namespace Lm32TestTop

variable {s : Lm32TestTop} {c : Cycle}

/-- What the two memories hold. -/
def memory (s : Lm32TestTop) : Memory := ⟨s.ram.ctrl.ram.cells, s.monitor.ctrl.ram.cells⟩

/-- What the data bus of the processor ends in a cycle. -/
def transfer (s : Lm32TestTop) (c : Cycle) : Option Access :=
  s.cpu.core.lsu.transfer (s.cpu.core.loadStoreIn (s.cpuPins c))

/-- A transfer ends when master 1 sees ack. -/
theorem Wired.transfer_eq (h : s.Wired) (c : Cycle) : s.transfer c =
    if s.wbswitch.ackO (s.busCycle c) dbus then
      some ⟨s.cpudbus.adr, s.cpudbus.sel, s.cpudbus.we,
        if s.cpudbus.we then s.cpudbus.dat else s.wbswitch.datO (s.busCycle c)⟩
    else none := by
  have hdone : s.cpu.core.lsu.completes (s.cpu.core.loadStoreIn (s.cpuPins c)) =
      s.wbswitch.ackO (s.busCycle c) dbus := by
    change (s.cpu.core.lsu.dCycO && (s.wbswitch.ackO (s.busCycle c) dbus || false)) = _
    cases hack : s.wbswitch.ackO (s.busCycle c) dbus with
    | false => simp
    | true =>
        have hcyc : s.cpu.core.lsu.dCycO = true :=
          ((h.serving.answered (h.allowed c)).outstanding 1 hack).1
        rw [hcyc]
        rfl
  rw [transfer, Lm32.LoadStoreUnit.transfer, hdone]
  rfl

/-- What a memory of the board writes in a cycle is the transfer that ends in it. -/
theorem Wired.cells_eq (h : s.Wired) {w : Nat} {slave : Slave w} {k : Fin 6} {e : Ebr.Cycle}
    (hat : Attached s.wbswitch slave k) (hin : Held (s.wbswitch.slaveIn (s.busCycle c) k) e.wb)
    (hclassic : presents e.wb = true → classic e.wb.cti = true)
    (hack : s.wbswitch.slaveAck (s.busCycle c) k = slave.ctrl.ebrAckO) (i : BitVec w) :
    (slave.next e).ctrl.ram.cells i =
      (s.transfer c).elim (slave.ctrl.ram.cells i) fun t =>
        if t.we = true ∧ select t.adr = k ∧ word w t.adr = i then
          merge t.sel t.dat (slave.ctrl.ram.cells i)
        else slave.ctrl.ram.cells i := by
  have hallowed := h.allowed c
  have hanswered := h.serving.answered hallowed
  rw [cells_next hat.serving (hat.holds hallowed hin hclassic), h.transfer_eq]
  -- the memory is written for master 1 only
  have hmaster : slave.ctrl.ebrAckO = true → presents e.wb = true → e.wb.we = true →
      s.wbswitch.ackO (s.busCycle c) dbus = true ∧ select s.cpudbus.adr = k ∧
        Held s.cpudbus e.wb := by
    intro hready hpresents hwe
    obtain ⟨hcyc, -, hselect⟩ := select_of_presents hin hpresents
    rw [slaveIn_of_select hselect] at hin
    have hseen : s.wbswitch.ackO (s.busCycle c) s.wbswitch.gnt = true := by
      rw [Bus.ackO, Bus.iBusAck_iff.2 ⟨k, hack.trans hready⟩]
      simp
    rw [hin.2.2.2.1] at hwe
    rcases master_of_cyc hcyc with hgnt | hgnt
    · rw [hgnt] at hwe
      exact absurd hwe Bool.false_ne_true
    · rw [hgnt] at hseen hselect hin
      exact ⟨hseen, hselect, hin⟩
  by_cases hwrite : slave.ctrl.ebrAckO = true ∧ presents e.wb = true ∧ e.wb.we = true ∧
      word w e.wb.adr = i
  · obtain ⟨hready, hpresents, hwe, hword⟩ := hwrite
    obtain ⟨hseen, hselect, -, -, hadr, hwe', hsel, hdat⟩ := hmaster hready hpresents hwe
    rw [hadr] at hword
    rw [hwe'] at hwe
    rw [if_pos ⟨hready, hpresents, hwe'.trans hwe, by rw [hadr, hword]⟩, hseen, if_pos rfl,
      Option.elim_some]
    rw [if_pos ⟨hwe, hselect, hword⟩, hsel, hdat, if_pos hwe]
  · rw [if_neg hwrite]
    cases hseen : s.wbswitch.ackO (s.busCycle c) dbus with
    | false => rfl
    | true =>
        rw [if_pos rfl, Option.elim_some]
        refine (if_neg fun hstores => hwrite ?_).symm
        obtain ⟨hwe, hselect, hword⟩ := hstores
        have hgnt : 1 = s.wbswitch.gnt := (Bus.of_ackO hseen).1
        have hmaster1 : (s.busCycle c).master s.wbswitch.gnt = s.cpudbus := by
          rw [← hgnt]
          rfl
        have hready := (hanswered.selected 1 hseen k).2 hselect.symm
        obtain ⟨hcyc, hstb⟩ := hanswered.outstanding 1 hseen
        rw [slaveIn_of_select (by rw [hmaster1]; exact hselect), hmaster1] at hin
        refine ⟨hack.symm.trans hready, ?_, hin.2.2.2.1.trans hwe, by rw [hin.2.2.1]; exact hword⟩
        rw [presents, hin.1, hin.2.1]
        exact Bool.and_eq_true_iff.2 ⟨hcyc, hstb⟩

/-- The memories hold what the processor stores. -/
theorem Wired.memory_next (h : s.Wired) (c : Cycle) :
    (s.next c).memory = (s.transfer c).toList.foldl Memory.store s.memory := by
  have hram := h.cells_eq (c := c) (e := s.ramCycle c) h.ram ⟨rfl, rfl, rfl, rfl, rfl, rfl⟩
    classic_of_presents rfl
  have hmonitor := h.cells_eq (c := c) (e := (s.monitorCycle c).ramBlk) h.monitor
    ⟨rfl, rfl, rfl, rfl, rfl, rfl⟩ (fun _ => rfl) rfl
  change Memory.mk (s.ram.next (s.ramCycle c)).ctrl.ram.cells
    (s.monitor.next (s.monitorCycle c).ramBlk).ctrl.ram.cells = _
  rw [funext hram, funext hmonitor]
  cases s.transfer c <;> rfl

/-- What the processor reads from a memory is what the memory holds. -/
theorem Wired.load_eq (h : s.Wired) {m : Fin 5}
    (hseen : s.wbswitch.ackO (s.busCycle c) m = true) {v : Word}
    (hload : s.memory.load ((s.busCycle c).master m).adr = some v) :
    s.wbswitch.datO (s.busCycle c) = v := by
  rw [Memory.load] at hload
  split at hload
  · rename_i hselect
    exact (h.ram.datO_eq h.serving (h.allowed c) rfl rfl hseen hselect).trans
      (Option.some.inj hload)
  · split at hload
    · rename_i hselect
      exact (h.monitor.datO_eq h.serving (h.allowed c) rfl rfl hseen hselect).trans
        (Option.some.inj hload)
    · exact absurd hload (Option.some_ne_none v).symm

/-- An instruction is carried out or an exception taken. -/
def leaves (s : Lm32TestTop) (c : Cycle) : Bool :=
  s.cpu.core.validM && !s.cpu.core.stallM (s.cpuPins c)

/-- What the processor sees in a run. -/
def runPins : Lm32TestTop → List Cycle → List Pins
  | _, [] => []
  | s, c :: cs => s.cpuPins c :: runPins (s.next c) cs

/-- What it sees in a run that goes on. -/
theorem runPins_append (s : Lm32TestTop) (cs cs' : List Cycle) :
    s.runPins (cs ++ cs') = s.runPins cs ++ (lm32TestTop.run s cs).runPins cs' := by
  induction cs generalizing s with
  | nil => rfl
  | cons c cs ih => exact congrArg (s.cpuPins c :: ·) (ih (s.next c))

/-- The processor in a run of the system. -/
theorem run_cpu (env : Outside) (s : Lm32TestTop) (cs : List Cycle) :
    (lm32TestTop.run s cs).cpu = (lm32 env).run s.cpu (s.runPins cs) := by
  induction cs generalizing s with
  | nil => rfl
  | cons c cs ih => exact ih (s.next c)

/-- An event of the processor is an instruction or an exception. -/
theorem length_events_cpu (env : Outside) (s : Lm32TestTop) (cs : List Cycle) :
    ((lm32 env).events (Running.event env) s.cpu (s.runPins cs)).length =
      lm32TestTop.count leaves s cs := by
  rw [Machine.length_events]
  induction cs generalizing s with
  | nil => rfl
  | cons c cs ih =>
      have hevent : (Running.event env s.cpu (s.cpuPins c)).isSome = s.leaves c := by
        rw [Running.event]
        change Option.isSome (if s.leaves c then _ else none) = s.leaves c
        cases s.leaves c <;> rfl
      rw [runPins, Machine.count, Machine.count, hevent]
      exact congrArg ((s.leaves c).toNat + ·) (ih (s.next c))

/-- The transfers after a cycle. -/
theorem transfers_next (s : Lm32TestTop) (c : Cycle) :
    (s.next c).cpu.transfers = s.cpu.transfers ++ (s.transfer c).toList := rfl

/-- Transfers are only added. -/
theorem transfers_grow (s : Lm32TestTop) (cs : List Cycle) :
    s.cpu.transfers <+: (lm32TestTop.run s cs).cpu.transfers := by
  induction cs generalizing s with
  | nil => exact List.prefix_refl _
  | cons c cs ih =>
      exact (List.prefix_append s.cpu.transfers (s.transfer c).toList).trans (ih (s.next c))

end Lm32TestTop

/-- What the processor finds on its buses: at `code`, the words that the memories hold at first; as
data, the words that they hold after the transfers so far. -/
structure Hosts (m : Memory) (code : Pc → Prop) (env : Outside) : Prop where
  text : ∀ pc, code pc → env.imem pc = m.load (pc ++ 0#2)
  data : ∀ earlier adr sel v, (earlier.foldl Memory.store m).load adr = some v →
    env.answer earlier adr sel = v

/-- What is outside of the processor in a run with these transfers. A peripheral answers what it
answers in the run. -/
def outside (m : Memory) (code : Pc → Prop) [DecidablePred code] (transfers : List Access) :
    Outside where
  imem pc := if code pc then m.load (pc ++ 0#2) else none
  answer earlier adr _ :=
    ((earlier.foldl Memory.store m).load adr).getD ((transfers[earlier.length]?).elim 0 (·.dat))

/-- The memories are found there. -/
theorem hosts_outside (m : Memory) (code : Pc → Prop) [DecidablePred code]
    (transfers : List Access) : Hosts m code (outside m code transfers) where
  text _ hcode := if_pos hcode
  data earlier adr sel v hload := by
    change ((earlier.foldl Memory.store m).load adr).getD _ = v
    rw [hload, Option.getD_some]

namespace Lm32TestTop

variable {s : Lm32TestTop} {c : Cycle} {m : Memory} {code : Pc → Prop} [DecidablePred code]

/-- No transfer stores to the program. -/
def Spares (code : Pc → Prop) (transfers : List Access) : Prop :=
  ∀ t ∈ transfers, t.we = true → ∀ pc, code pc → ¬ SameWord t.adr (pc ++ 0#2)

/-- A cycle brings the processor what is outside of it. -/
theorem Wired.allowed_cpu (h : s.Wired) (hmem : s.memory = s.cpu.transfers.foldl Memory.store m)
    {later : List Access} (hspares : Spares code s.cpu.transfers)
    (hlater : (s.next c).cpu.transfers <+: later) :
    (lm32 (outside m code later)).Allowed s.cpu (s.cpuPins c) := by
  refine ⟨fun _ hack known hknown => ?_, fun hdone hread => ?_⟩
  · -- a word of the program has not changed
    change (if code _ then m.load _ else none) = some known at hknown
    split at hknown
    · rename_i hcode
      refine h.load_eq (m := 0) hack ?_
      change s.memory.load s.cpu.core.iu.iAdrO = some known
      rw [← hknown, ← Memory.load_aligned, hmem]
      exact m.load_stores fun t ht hwe => hspares t ht hwe _ hcode
    · exact absurd hknown (Option.some_ne_none known).symm
  · have hseen : s.wbswitch.ackO (s.busCycle c) dbus = true := by
      rw [Lm32.LoadStoreUnit.completes, Bool.and_eq_true] at hdone
      exact (Bool.or_false _).symm.trans hdone.2
    change s.wbswitch.datO (s.busCycle c) =
      ((s.cpu.transfers.foldl Memory.store m).load s.cpudbus.adr).getD _
    rw [← hmem]
    cases hload : s.memory.load s.cpudbus.adr with
    | some v => exact h.load_eq hseen hload
    | none =>
        -- a peripheral answers
        have hwe : s.cpudbus.we = false := hread
        obtain ⟨rest, hrest⟩ := hlater
        rw [transfers_next, h.transfer_eq, hseen, if_pos rfl, hwe] at hrest
        rw [← hrest]
        simp

/-- A run brings the processor what is outside of it. -/
theorem Wired.allowedRun_cpu (h : s.Wired) (hmem : s.memory = s.cpu.transfers.foldl Memory.store m)
    {cs : List Cycle} (hspares : Spares code (lm32TestTop.run s cs).cpu.transfers) :
    (lm32 (outside m code (lm32TestTop.run s cs).cpu.transfers)).AllowedRun s.cpu
      (s.runPins cs) ∧
    (lm32TestTop.run s cs).memory =
      (lm32TestTop.run s cs).cpu.transfers.foldl Memory.store m := by
  induction cs generalizing s with
  | nil => exact ⟨trivial, hmem⟩
  | cons c cs ih =>
      have hmem' : (s.next c).memory = (s.next c).cpu.transfers.foldl Memory.store m := by
        rw [h.memory_next, transfers_next, List.foldl_append, hmem]
      have hprefix := (s.next c).transfers_grow cs
      obtain ⟨hrest, hend⟩ := ih (h.next c) hmem' hspares
      refine ⟨⟨h.allowed_cpu hmem (fun t ht => hspares t ?_) hprefix, hrest⟩, hend⟩
      exact (s.transfers_grow (c :: cs)).subset ht

end Lm32TestTop

/-- A program in the memories of the board is carried out as the instruction set says. Whatever the
peripherals, the interrupts and the debugger do: if in a run nothing is stored to the program, then
what it sees is what the instruction set gives for the instructions and exceptions that have left
the M stage, one after the other, over memories that hold what was stored last; and the memories of
the board do hold that. -/
theorem program_run {s : Lm32TestTop} (hinit : lm32TestTop.Initial s) (code : Pc → Prop)
    [DecidablePred code] (cs : List Cycle)
    (hspares : Lm32TestTop.Spares code (lm32TestTop.run s cs).cpu.transfers) :
    ∃ env events, Hosts s.memory code env ∧ (isa env).Initial s.cpu.arch ∧
      (isa env).AllowedRun s.cpu.arch events ∧
      events.length = lm32TestTop.count Lm32TestTop.leaves s cs ∧
      (lm32TestTop.run s cs).cpu.arch = (isa env).run s.cpu.arch events ∧
      (lm32TestTop.run s cs).memory =
        (lm32TestTop.run s cs).cpu.transfers.foldl Memory.store s.memory := by
  have hnone : s.cpu.transfers = [] := hinit.2.1
  have hmem : s.memory = s.cpu.transfers.foldl Memory.store s.memory := by
    rw [hnone]
    rfl
  obtain ⟨hrun, hend⟩ := (Lm32TestTop.Wired.of_initial hinit).allowedRun_cpu hmem hspares
  obtain ⟨hisa, hallowed, heq⟩ := lm32_run ⟨hinit.1, hnone⟩ hrun
  refine ⟨_, _, hosts_outside _ _ _, hisa, hallowed,
    Lm32TestTop.length_events_cpu _ _ _, ?_, hend⟩
  rw [← heq, ← Lm32TestTop.run_cpu]

/-- A board whose RAM holds a program that counts, stores the count at 0x100 and loads it again. -/
def counting : Lm32TestTop where
  cpu := ⟨.reset, []⟩
  wbswitch := Conbus.afterReset
  ram := ⟨⟨false, 0, 0, .idle, 0, 0, false, ⟨fun i =>
    -- addi r1, r1, 1; sw (r0+0x100), r1; lw r2, (r0+0x100); bi -12
    if i = 0 then 0x34210001 else if i = 1 then 0x58010100
    else if i = 2 then 0x28020100 else if i = 3 then 0xE3FFFFFD else 0, 0, 0⟩⟩,
    Conbus.quiet, false⟩
  monitor := ⟨⟨false, 0, 0, .idle, 0, 0, false, ⟨fun _ => 0, 0, 0⟩⟩, Conbus.quiet, false⟩

/-- A cycle without interrupts, debugging or peripherals. -/
def calm : Cycle where
  pins := ⟨0, false, false, 0, false, false, false, false, 0, false, false, false, false, 0⟩
  bus := ⟨fun _ => Conbus.quiet, fun _ => false, fun _ => 0, 0, ⟨0, 0, 0⟩⟩
  ram := ⟨0, 0, 0⟩
  monitor := ⟨0, 0, 0⟩

/-- The board is in reset. -/
theorem counting_initial : lm32TestTop.Initial counting :=
  ⟨Lm32.Core.afterReset_reset, rfl,
    ⟨rfl, rfl, rfl, fun _ => ⟨rfl, rfl, rfl⟩, fun _ => ⟨rfl, rfl, rfl⟩⟩,
    ⟨⟨rfl, rfl, rfl, rfl, rfl, rfl, rfl⟩, rfl⟩, ⟨⟨rfl, rfl, rfl, rfl, rfl, rfl, rfl⟩, rfl⟩⟩

/-- The program stores its count at 0x100 only. -/
theorem counting_transfers : ((lm32TestTop.run counting (List.replicate 80 calm)).cpu.transfers.all
    fun t => t.adr == 0x100) = true := by decide +kernel

/-- After 80 cycles of the program the RAM holds its count. -/
theorem program_run_counting :
    (lm32TestTop.run counting (List.replicate 80 calm)).memory.load 0x100 = some 3 := by
  have hapart : (([0, 1, 2, 3] : List Pc).all fun pc =>
      !decide (SameWord 0x100 (pc ++ 0#2))) = true := by decide +kernel
  have hspares : Lm32TestTop.Spares (· ∈ ([0, 1, 2, 3] : List Pc))
      (lm32TestTop.run counting (List.replicate 80 calm)).cpu.transfers := by
    intro t ht _ pc hpc
    rw [eq_of_beq (List.all_eq_true.1 counting_transfers t ht)]
    exact of_decide_eq_false ((Bool.not_eq_true' _).mp (List.all_eq_true.1 hapart pc hpc))
  obtain ⟨env, events, -, -, -, -, -, hmemory⟩ := program_run counting_initial
    (· ∈ ([0, 1, 2, 3] : List Pc)) (List.replicate 80 calm) hspares
  rw [hmemory]
  decide +kernel

end Soc.Top
