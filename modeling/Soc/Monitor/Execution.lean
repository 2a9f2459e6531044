import Soc.Lm32.Progress
import Soc.Monitor.Commands
import Soc.Monitor.Rom

/-!
# The ROM monitor on the LM32

The monitor as the instruction set carries it out: the words of the image are fetched, and the data
bus leads to a memory and to the mailbox. `Represents` relates what a program sees of the core to a
state of the monitor, and an instruction that is carried out keeps it. So does the core, since it
refines the instruction set: whatever the monitor does as a program, the core with `monitor.rom`
does.
-/

namespace Soc.Monitor

open Lm32 (Access Arch Event InReach Mode Outcome Outside Pc Reg Running Size address_toNat
  apply_store carries_put execute execute_branch execute_formatI execute_formatR execute_load
  execute_store extract_high extract_low formatI formatR isa lm32 lm32_progress offset part_wordAt
  shift_distance split_address wordAt)
open Library (Machine)
open Library.Region (store)

/-- What is at the other end of the data bus: a memory, what the host lets the monitor poll, and the
bytes it has got. -/
structure Board where
  mem : Word → Byte
  polls : List Word
  sent : List Byte

namespace Board

variable (b : Board)

/-- The word that a read is answered with. -/
def answer (adr : Word) : Word :=
  if adr = rxData ∨ adr = txAck then b.polls.headD 0 else wordAt b.mem adr

/-- The board after a transfer. -/
def access (t : Access) : Board :=
  if t.we then
    if t.adr = rxAck then b
    else if t.adr = txData then
      { b with sent := if t.dat = 0 then b.sent else b.sent ++ [t.dat.extractLsb' 0 8] }
    else { b with mem := t.apply b.mem }
  else if t.adr = rxData ∨ t.adr = txAck then { b with polls := b.polls.tail }
  else b

variable {b} {a dat : Word} {sel : BitVec 4}

/-- A write to memory. -/
theorem access_memory (hrx : a ≠ rxAck) (htx : a ≠ txData) :
    b.access ⟨a, sel, true, dat⟩ = { b with mem := Access.apply ⟨a, sel, true, dat⟩ b.mem } := by
  rw [access, if_pos rfl, if_neg hrx, if_neg htx]

/-- An acknowledgement. -/
theorem access_ack (h : a = rxAck) : b.access ⟨a, sel, true, dat⟩ = b := by
  rw [access, if_pos rfl, if_pos h]

/-- A write to `tx_data`. -/
theorem access_send (hrx : a ≠ rxAck) (htx : a = txData) : b.access ⟨a, sel, true, dat⟩ =
    { b with sent := if dat = 0 then b.sent else b.sent ++ [dat.extractLsb' 0 8] } := by
  rw [access, if_pos rfl, if_neg hrx, if_pos htx]

/-- A poll. -/
theorem access_poll (h : a = rxData ∨ a = txAck) :
    b.access ⟨a, sel, false, dat⟩ = { b with polls := b.polls.tail } := by
  rw [access, if_neg Bool.false_ne_true, if_pos h]

/-- A read from memory. -/
theorem access_read (h : ¬ (a = rxData ∨ a = txAck)) : b.access ⟨a, sel, false, dat⟩ = b := by
  rw [access, if_neg Bool.false_ne_true, if_neg h]

end Board

/-- The core fetches the monitor from its image, and its data bus leads to a board. -/
structure Hosts (env : Outside) (start : Board) : Prop where
  text : ∀ k < size, env.imem ((label k).extractLsb' 2 30) = rom[k]?
  answers : ∀ earlier adr sel, env.answer earlier adr sel =
    (earlier.foldl Board.access start).answer adr

/-- The board as the monitor sees it. -/
def State.board (s : State) : Board := ⟨s.cpu.mem, s.polls, s.sent⟩

/-- What a program sees of the core is a state of the monitor. -/
structure Represents (start : Board) (s : State) (a : Arch) : Prop where
  pc : s.cpu.pc = a.pc ++ 0#2
  regs : s.cpu.regs = a.regs
  board : a.accesses.foldl Board.access start = s.board

/-- An outcome is that of a step of the monitor. -/
structure Carries (o : Outcome) (s s' : State) : Prop where
  pc : s'.cpu.pc = o.pc ++ 0#2
  regs : s'.cpu.regs = o.regs s.cpu.regs
  board : o.access.elim s.board s.board.access = s'.board

section Instructions

variable {s s' : State} {pc : Pc} {csr data : Word} {op : Op}

/-- A result that is written to a register. -/
theorem Carries.put (hpc : s.cpu.pc = pc ++ 0#2) (x : Reg) (value : Word) :
    Carries (.mk (some (x, value)) (pc + 1) none) s { s with cpu := s.cpu.put x value } where
  pc := (carries_put hpc x value).pc
  regs := rfl
  board := rfl

/-- A conditional branch. -/
theorem Carries.branch (hpc : s.cpu.pc = pc ++ 0#2) {target : Word}
    (hreach : InReach 16 s.cpu.pc target) {taken : Prop} [Decidable taken] {met : Bool}
    (hmet : met = true ↔ taken) :
    Carries
      (.mk none (if met then pc + (offset 16 s.cpu.pc target).signExtend 30 else pc + 1) none) s
      (s.branch taken target) := by
  rw [State.branch]
  by_cases ht : taken
  · rw [if_pos ht, if_pos (hmet.2 ht)]
    rw [hpc] at hreach ⊢
    exact ⟨hreach.target_eq, rfl, rfl⟩
  · rw [if_neg ht, if_neg (fun hm => ht (hmet.1 hm))]
    exact ⟨(carries_put hpc 0 0).pc, rfl, rfl⟩

/-- A multiple of 2 or 4. -/
theorem Plain.aligned {a : Word} {n : Nat} (h : Plain a n) (size : Size) (hn : n = size.width) :
    size.Aligned a := by
  subst hn
  obtain ⟨g, l, rfl⟩ := split_address a
  have hmod := h.1
  rw [address_toNat] at hmod
  cases size with
  | byte => trivial
  | hword =>
      change (g ++ l).getLsbD 0 = false
      have hl : l.toNat % 2 = 0 := by
        change (4 * g.toNat + l.toNat) % 2 = 0 at hmod
        omega
      rw [BitVec.getLsbD_append, if_pos (by decide), BitVec.getLsbD, Nat.testBit_zero, hl]
      rfl
  | word =>
      rw [Size.Aligned, extract_low]
      apply BitVec.eq_of_toNat_eq
      have hlt := l.isLt
      change (4 * g.toNat + l.toNat) % 4 = 0 at hmod
      change l.toNat = 0
      omega

/-- A load from memory. -/
theorem Carries.load (hpc : s.cpu.pc = pc ++ 0#2) (size : Size) {a : Word} {x : Reg} {data : Word}
    (h : s.load a size.width x (size.value false s.cpu.mem a) = some s')
    (hdata : data = s.board.answer a) :
    Carries (.mk (some (x, size.part false a data)) (pc + 1)
      (some ⟨a, size.lanes a, false, data⟩)) s s' := by
  rw [State.load] at h
  split_ifs at h with hplain
  obtain rfl := Option.some.inj h
  obtain ⟨hrx, -, -, htx⟩ := hplain.ne
  have hanswer : s.board.answer a = wordAt s.cpu.mem a := if_neg (not_or.2 ⟨hrx, htx⟩)
  rw [hdata, hanswer, part_wordAt (hplain.aligned size rfl)]
  exact ⟨(carries_put hpc x _).pc, rfl, Board.access_read (not_or.2 ⟨hrx, htx⟩)⟩

/-- A store to memory. -/
theorem Carries.store (hpc : s.cpu.pc = pc ++ 0#2) (size : Size) {a value : Word}
    (h : s.store a (size.bytes value) = some s') :
    Carries (.mk none (pc + 1) (some ⟨a, size.lanes a, true, size.spread value⟩)) s s' := by
  rw [State.store] at h
  split_ifs at h with hplain
  obtain rfl := Option.some.inj h
  obtain ⟨-, hrx, htx, -⟩ := hplain.1.ne
  have hwidth : (size.bytes value).length = size.width := by cases size <;> rfl
  refine ⟨(carries_put hpc 0 0).pc, rfl, ?_⟩
  change s.board.access _ = _
  rw [Board.access_memory hrx htx, apply_store (hplain.1.aligned size hwidth)]
  rfl

/-- A `lw`, which can be a poll. -/
theorem Carries.lw (hpc : s.cpu.pc = pc ++ 0#2) {x y : Reg} {d : BitVec 16} {data : Word}
    (h : s.lw x y d = some s') (hdata : data = s.board.answer (s.cpu.address y d)) :
    Carries (.mk (some (x, Size.word.part false (s.cpu.address y d) data)) (pc + 1)
      (some ⟨s.cpu.address y d, Size.word.lanes (s.cpu.address y d), false, data⟩)) s s' := by
  rw [State.lw] at h
  split_ifs at h with hpoll
  · cases hpolls : s.polls with
    | nil =>
        rw [hpolls] at h
        cases h
    | cons value polls =>
        rw [hpolls] at h
        obtain rfl := Option.some.inj h
        have hanswer : s.board.answer (s.cpu.address y d) = value := by
          rw [Board.answer, if_pos hpoll]
          change s.polls.headD 0 = value
          rw [hpolls]
          rfl
        rw [hdata, hanswer]
        refine ⟨(carries_put hpc x value).pc, rfl, ?_⟩
        refine (Board.access_poll hpoll).trans ?_
        change Board.mk s.cpu.mem s.polls.tail s.sent = _
        rw [hpolls]
        rfl
  · exact Carries.load hpc .word h hdata

/-- A `sw`, which can go to the mailbox. -/
theorem Carries.sw (hpc : s.cpu.pc = pc ++ 0#2) {x y : Reg} {d : BitVec 16}
    (h : s.sw y d x = some s') :
    Carries (.mk none (pc + 1) (some ⟨s.cpu.address y d, Size.word.lanes (s.cpu.address y d), true,
      Size.word.spread (s.cpu.regs x)⟩)) s s' := by
  simp only [State.sw] at h
  split_ifs at h with hack hdat hzero
  · obtain rfl := Option.some.inj h
    exact ⟨(carries_put hpc 0 0).pc, rfl, Board.access_ack hack⟩
  · obtain rfl := Option.some.inj h
    refine ⟨(carries_put hpc 0 0).pc, rfl, (Board.access_send hack hdat).trans ?_⟩
    change Board.mk s.cpu.mem s.polls (if s.cpu.regs x = 0 then _ else _) = _
    rw [if_pos hzero]
    rfl
  · obtain rfl := Option.some.inj h
    refine ⟨(carries_put hpc 0 0).pc, rfl, (Board.access_send hack hdat).trans ?_⟩
    change Board.mk s.cpu.mem s.polls (if s.cpu.regs x = 0 then _ else _) = _
    rw [if_neg hzero]
    rfl
  · exact Carries.store hpc .word h

/-- The instruction set does with the word of an instruction what the monitor means by it. -/
theorem exec_carries (hpc : s.cpu.pc = pc ++ 0#2) (hreach : op.Reaches s.cpu.pc)
    (hcsr : ¬ op.ReadsCsr) (hexec : s.exec op = some s')
    (hdata : ∀ t, (execute (op.encode s.cpu.pc) pc s.cpu.regs csr data).access = some t →
      t.we = false → data = s.board.answer t.adr) :
    Carries (execute (op.encode s.cpu.pc) pc s.cpu.regs csr data) s s' := by
  cases op with
  | base i =>
      by_cases hi : i.Accesses
      · cases i with
        | lw x y d =>
            rw [Op.encode, Lm32.Instr.encode, execute_load .word false rfl] at hdata ⊢
            exact Carries.lw hpc hexec (hdata _ rfl rfl)
        | sw y d x =>
            rw [Op.encode, Lm32.Instr.encode, execute_store .word rfl]
            exact Carries.sw hpc hexec
        | _ => exact absurd hi id
      · have hnone : (execute (i.encode s.cpu.pc) pc s.cpu.regs csr data).access = none :=
          i.execute_encode_access hi s.cpu.pc
        have hcpu : (execute (i.encode s.cpu.pc) pc s.cpu.regs csr data).Carries s.cpu
            (i.exec s.cpu) := by
          refine i.execute_encode hpc hreach ?_ ?_
          · cases i <;> trivial
          · cases i <;> trivial
        have hs' : s' = { s with cpu := i.exec s.cpu } := by
          cases i <;> first | exact (Option.some.inj hexec).symm | exact absurd trivial hi
        subst hs'
        refine ⟨hcpu.pc, hcpu.regs, ?_⟩
        have hmem := hcpu.mem
        change Option.elim (execute (i.encode s.cpu.pc) pc s.cpu.regs csr data).access _ _ = _
        rw [hnone] at hmem ⊢
        change s.board = Board.mk (i.exec s.cpu).mem s.polls s.sent
        rw [hmem]
        rfl
  | add x y z =>
      obtain rfl := Option.some.inj hexec
      rw [Op.encode, execute_formatR (f := .add) rfl]
      exact Carries.put hpc x _
  | sli x y n =>
      obtain rfl := Option.some.inj hexec
      rw [Op.encode, execute_formatI (f := .sl) rfl (by decide)]
      have hdistance : Lm32.Alu.sl.eval (s.cpu.regs y) (Mode.signed.value (n.setWidth 16)) =
          s.cpu.regs y <<< n := congrArg (s.cpu.regs y <<< ·) (shift_distance n)
      rw [hdistance]
      exact Carries.put hpc x _
  | lbu x y d =>
      rw [Op.encode, execute_load .byte false rfl] at hdata ⊢
      exact Carries.load hpc .byte hexec (hdata _ rfl rfl)
  | lhu x y d =>
      rw [Op.encode, execute_load .hword false rfl] at hdata ⊢
      exact Carries.load hpc .hword hexec (hdata _ rfl rfl)
  | sb y d x =>
      rw [Op.encode, execute_store .byte rfl]
      exact Carries.store hpc .byte hexec
  | sh y d x =>
      have hbytes : halfwordBytes ((s.cpu.regs x).extractLsb' 0 16) =
          Size.hword.bytes (s.cpu.regs x) := by
        rw [halfwordBytes, BitVec.extractLsb'_extractLsb'_of_le (by decide),
          BitVec.extractLsb'_extractLsb'_of_le (by decide)]
        rfl
      rw [State.exec, hbytes] at hexec
      rw [Op.encode, execute_store .hword rfl]
      exact Carries.store hpc .hword hexec
  | be x y target =>
      obtain rfl := Option.some.inj hexec
      rw [Op.encode, execute_branch .e rfl]
      exact Carries.branch hpc hreach beq_iff_eq
  | bne x y target =>
      obtain rfl := Option.some.inj hexec
      rw [Op.encode, execute_branch .ne rfl]
      exact Carries.branch hpc hreach bne_iff_ne
  | bg x y target =>
      obtain rfl := Option.some.inj hexec
      rw [Op.encode, execute_branch .g rfl]
      exact Carries.branch hpc hreach BitVec.slt_iff_toInt_lt

end Instructions

section Runs

variable {env : Outside} {start : Board} {s s' : State} {a : Arch}

/-- The modelled text ends with the image. -/
theorem instr_lt {k : Nat} {op : Op} (h : instr k = some op) : k < size := by
  obtain ⟨⟨first, ops⟩, hmem, hop⟩ := List.exists_of_findSome?_eq_some h
  have hend : first + ops.length ≤ size := by
    have hall : ∀ r ∈ Text.routines, r.1 + r.2.length ≤ size := by decide
    exact hall _ hmem
  change (if first ≤ k then ops[k - first]? else none) = some op at hop
  split_ifs at hop with hfirst
  have hlt := (List.getElem?_eq_some_iff.1 hop).1
  omega

/-- An instruction is at its label. -/
theorem fetch_eq {pc : Pc} {op : Op} (h : fetch (pc ++ 0#2) = some op) :
    ∃ k < size, pc ++ 0#2 = label k ∧ instr k = some op := by
  have hlt := instr_lt h
  refine ⟨_, hlt, BitVec.eq_of_toNat_eq ?_, h⟩
  have hpc := pc.isLt
  have hram : (pc ++ 0#2 - ram).toNat = (4026531840 + 4 * pc.toNat) % 4294967296 := by
    rw [BitVec.toNat_sub, address_toNat]
    rfl
  rw [hram] at hlt ⊢
  rw [label, Lm32.after, BitVec.toNat_add, BitVec.toNat_ofNat, address_toNat]
  change 4 * pc.toNat + 0 = (268435456 + _ % 4294967296) % 4294967296
  omega

/-- The core is at the instruction the monitor is at. -/
theorem Represents.imem_eq (h : Represents start s a) (henv : Hosts env start) {op : Op}
    (hop : fetch s.cpu.pc = some op) : env.imem a.pc = some (op.encode s.cpu.pc) ∧
      op.Reaches s.cpu.pc ∧ ¬ op.ReadsCsr := by
  rw [h.pc] at hop
  obtain ⟨k, hk, hlabel, hinstr⟩ := fetch_eq hop
  obtain ⟨hword, hreach, hcsr⟩ := rom_encodes k hk op hinstr
  have htext := henv.text k hk
  rw [hword, ← hlabel, extract_high] at htext
  rw [← hlabel] at hreach
  rw [h.pc]
  exact ⟨htext, hreach, hcsr⟩

/-- The core carries out the instruction the monitor is at. -/
theorem Represents.next (h : Represents start s a) (henv : Hosts env start)
    (hnext : Monitor.next s = some s') {csr data : Word} {seen : Bool}
    (hallowed : (isa env).Allowed a (.instruction csr data seen)) :
    Represents start s' ((isa env).next a (.instruction csr data seen)) := by
  obtain ⟨op, hop, hexec⟩ := Option.bind_eq_some_iff.1 hnext
  obtain ⟨himem, hreach, hcsr⟩ := h.imem_eq henv hop
  obtain ⟨i, hi, -, hanswer⟩ := hallowed
  obtain rfl : i = op.encode s.cpu.pc := Option.some.inj (hi.symm.trans himem)
  have hcarries : Carries (execute (op.encode s.cpu.pc) a.pc s.cpu.regs csr data) s s' := by
    refine exec_carries h.pc hreach hcsr hexec fun t ht hread => ?_
    rw [h.regs] at ht
    rw [hanswer t ht hread, henv.answers, h.board]
  rw [h.regs] at hcarries
  have hafter : (isa env).next a (.instruction csr data seen) =
      a.carryOut (execute (op.encode s.cpu.pc) a.pc a.regs csr data) seen := by
    rw [isa]
    dsimp only
    rw [himem]
  rw [hafter]
  refine ⟨hcarries.pc, ?_, ?_⟩
  · rw [hcarries.regs, h.regs]
    rfl
  · change (a.accesses ++ _).foldl Board.access start = _
    rw [List.foldl_append, h.board, ← hcarries.board]
    cases (execute (op.encode s.cpu.pc) a.pc a.regs csr data).access <;> rfl

/-- A number of steps of the monitor. -/
def steps : Nat → State → Option State
  | 0, s => some s
  | n + 1, s => (Monitor.next s).bind (steps n)

/-- The event is no exception. -/
def NoException (e : Event) : Prop :=
  match e with
  | .exception .. => False
  | .instruction .. | .unknown _ => True

/-- So it does with a number of instructions, when no exception comes between. -/
theorem Represents.run {events : List Event} (h : Represents start s a) (henv : Hosts env start)
    (hallowed : (isa env).AllowedRun a events) (hquiet : ∀ e ∈ events, NoException e)
    (hsteps : steps events.length s = some s') :
    Represents start s' ((isa env).run a events) := by
  induction events generalizing s a with
  | nil =>
      obtain rfl := Option.some.inj hsteps
      exact h
  | cons e events ih =>
      obtain ⟨mid, hnext, hrest⟩ := Option.bind_eq_some_iff.1 hsteps
      have he := hquiet e List.mem_cons_self
      cases e with
      | exception link vector busError => exact absurd he id
      | unknown after =>
          obtain ⟨op, hop, -⟩ := Option.bind_eq_some_iff.1 hnext
          have hnone : env.imem a.pc = none := hallowed.1
          exact absurd (hnone.symm.trans (h.imem_eq henv hop).1) (Option.some_ne_none _).symm
      | instruction csr data seen =>
          exact ih (h.next henv hnext hallowed.1) hallowed.2
            (fun e he => hquiet e (List.mem_cons_of_mem _ he)) hrest

/-- The core with `monitor.rom` behaves as the monitor while this is in the routines of the memory
commands, which are those of `instr`. From any state it can be in, after any number of cycles in
which no exception is taken and its data bus leads to the memory and the mailbox, what a program
sees of it is the state of the monitor after as many steps as instructions have been carried out. -/
theorem monitor_run {r : Running} (hreach : (lm32 env).Reachable r) (henv : Hosts env start)
    (h : Represents start s r.arch) {inputs : List Lm32.Pins}
    (hrun : (lm32 env).AllowedRun r inputs)
    (hquiet : ∀ e ∈ (lm32 env).events (Running.event env) r inputs, NoException e)
    (hsteps : steps ((lm32 env).events (Running.event env) r inputs).length s = some s') :
    Represents start s' ((lm32 env).run r inputs).arch := by
  have hvalid := ((Running.simulates env).reachable hreach).1
  obtain ⟨hallowed, heq⟩ := (Running.simulates env).run hvalid hrun
  rw [heq]
  exact h.run henv hallowed hquiet hsteps

/-- A run of the monitor takes a number of steps. -/
theorem Runs.steps {f : State} (h : Runs s f) : ∃ n, steps n s = some f := by
  induction h using Relation.ReflTransGen.head_induction_on with
  | refl => exact ⟨0, rfl⟩
  | head hnext _ ih =>
      obtain ⟨n, hn⟩ := ih
      refine ⟨n + 1, ?_⟩
      rw [Monitor.steps, hnext]
      exact hn

/-- The core with `monitor.rom` performs the memory commands of the host as the monitor takes them
(`Command.taken`): for each of them there is a number of instructions after which the memory on the
bus and the bytes sent are those of the command it takes, and if no exception comes between, every
run in which the buses let the core go on for long enough gets there. -/
theorem core_performs {r : Running} {c : Command} {rest : List Word}
    (hreach : (lm32 env).Reachable r) (henv : Hosts env start) (h : Represents start s r.arch)
    (hready : Ready s) (hpc : s.cpu.pc = label GET_SELECTION) (hproper : c.Proper)
    (hexchange : Exchange c.transfers s.polls rest) :
    ∃ n f, Performed c.taken rest s f ∧ ∀ inputs, (lm32 env).AllowedRun r inputs →
      (∀ e ∈ (lm32 env).events (Running.event env) r inputs, NoException e) →
      190 * n ≤ (lm32 env).count (fun r p => r.core.served p) r inputs →
      ∃ first, first <+: inputs ∧ Represents start f ((lm32 env).run r first).arch := by
  obtain ⟨f, hruns, hperformed⟩ := perform_spec hready hpc hproper hexchange
  obtain ⟨n, hsteps⟩ := hruns.steps
  refine ⟨n, f, hperformed, fun inputs hrun hquiet hcount => ?_⟩
  have hprogress := lm32_progress hreach hrun
  obtain ⟨first, hfirst, hlen, hevents⟩ := Machine.exists_beginning (M := lm32 env)
    (show n ≤ ((lm32 env).events (Running.event env) r inputs).length by omega)
  obtain ⟨later, rfl⟩ := hfirst
  exact ⟨first, List.prefix_append first later, monitor_run hreach henv h
    (Machine.allowedRun_append.1 hrun).1 (fun e he => hquiet e (hevents.subset he))
    (hlen ▸ hsteps)⟩

end Runs

section Boot

open Lm32 (drive drive_allowed)

instance : DecidablePred NoException := fun e =>
  match e with
  | .exception .. => isFalse id
  | .instruction .. | .unknown _ => isTrue trivial

/-- A program at 0 that sets up the registers of the monitor and jumps to `_get_selection`. -/
def boot : List Word :=
  [formatI 0b011110 0 28 (top.extractLsb' 16 16), formatI 0b001110 28 28 (top.extractLsb' 0 16),
    formatI 0b011110 0 25 (hi T_FUNC), formatI 0b001110 25 25 (lo T_FUNC),
    formatI 0b011110 0 1 (hi GET_SELECTION), formatI 0b001110 1 1 (lo GET_SELECTION),
    formatR 0b110000 1 0 0]

/-- A host that sends a command to load the word at 0x40000000. -/
def host : Board where
  mem := fun _ => 0x2a
  polls := [0, 9, 0, 0x100, 0, 0x100, 0, 0x100, 0, 0x140, 0, 1, 0, 1, 0, 1, 0, 1]
  sent := []

/-- The core with `boot` and the image, and the host. -/
def hosted : Outside where
  imem pc := if pc.toNat < 7 then boot[pc.toNat]? else rom[pc.toNat - 67108864]?
  answer earlier adr _ := (earlier.foldl Board.access host).answer adr

theorem hosted_hosts : Hosts hosted host where
  text := by decide +kernel
  answers _ _ _ := rfl

/-- The core when it has come to `_get_selection`. -/
@[irreducible] def booted : Running := (lm32 hosted).run ⟨.reset, []⟩ (drive hosted 21 ⟨.reset, []⟩)

theorem booted_reachable : (lm32 hosted).Reachable booted := by
  have hinit : (lm32 hosted).Initial ⟨.reset, []⟩ := ⟨Lm32.Core.afterReset_reset, rfl⟩
  unfold booted
  exact (Machine.Reachable.initial hinit).run (drive_allowed hosted 21 _)

/-- The monitor at `_get_selection`. -/
def selecting : State where
  cpu :=
    { pc := label GET_SELECTION
      regs := booted.arch.regs
      csrs := ⟨0, 0, false, false, false, 0, 0⟩
      mem := host.mem }
  polls := host.polls
  sent := []

theorem booted_represents : Represents host selecting booted.arch where
  pc := by decide +kernel
  regs := rfl
  board := by
    have hnone : booted.arch.accesses = [] := by decide +kernel
    rw [hnone]
    rfl

/-- Sixty cycles, in which the core gets the number of the command. -/
theorem monitor_run_selection :
    ((lm32 hosted).run booted (drive hosted 60 booted)).arch.pc ++ 0#2 = label 180 := by
  have hsome : (steps ((lm32 hosted).events (Running.event hosted) booted
      (drive hosted 60 booted)).length selecting).map (·.cpu.pc) = some (label 180) := by
    decide +kernel
  obtain ⟨f, hsteps, hpc⟩ := Option.map_eq_some_iff.1 hsome
  exact (monitor_run booted_reachable hosted_hosts booted_represents (drive_allowed hosted 60 _)
    (by decide +kernel) hsteps).pc.symm.trans hpc

/-- A transfer in which the host does not keep the monitor waiting. -/
theorem exchange_prompt {t : Transfer} {ts : List Transfer} {v : Word} {polls rest : List Word}
    (hv : v ≠ 0) (hends : t.Ends v) (h : Exchange ts polls rest) :
    Exchange (t :: ts) (0 :: v :: polls) rest :=
  ⟨v, [0, v], polls, ⟨hv, [], [], by simp, by simp, rfl⟩, hends, rfl, h⟩

/-- The word at 0x40000000 may be loaded. -/
theorem proper_loadWord : (Command.loadWord 0x40000000).Proper := by
  refine ⟨show (0x40000000 : Word).toNat % 4 = 0 by decide, show 4 < 4294967296 by decide,
    fun a ha => ⟨fun h => ?_, fun h => ?_, fun h => absurd rfl h⟩⟩
  all_goals change (a - 0x40000000).toNat < 4 at ha
  · change (a - 0x10000764).toNat < 12 at h
    bv_omega
  · change (a - 0x60002000).toNat < 16 at h
    bv_omega

/-- The host gets its word. -/
theorem core_performs_loadWord :
    ∃ n f, Performed (.loadWord 0x40000000) [] selecting f ∧
      ∀ inputs, (lm32 hosted).AllowedRun booted inputs →
        (∀ e ∈ (lm32 hosted).events (Running.event hosted) booted inputs, NoException e) →
        190 * n ≤ (lm32 hosted).count (fun r p => r.core.served p) booted inputs →
        ∃ first, first <+: inputs ∧ Represents host f ((lm32 hosted).run booted first).arch := by
  have hready : Ready selecting := ⟨by decide +kernel, by decide +kernel, by decide +kernel⟩
  refine core_performs booted_reachable hosted_hosts booted_represents hready rfl proper_loadWord ?_
  refine exchange_prompt (by decide) rfl ?_
  refine exchange_prompt (by decide) rfl (exchange_prompt (by decide) rfl ?_)
  refine exchange_prompt (by decide) rfl (exchange_prompt (by decide) rfl ?_)
  refine exchange_prompt (by decide) trivial (exchange_prompt (by decide) trivial ?_)
  exact exchange_prompt (by decide) trivial (exchange_prompt (by decide) trivial rfl)

end Boot

end Soc.Monitor
