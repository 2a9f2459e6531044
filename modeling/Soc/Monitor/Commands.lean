import Soc.Monitor.Words

/-!
# The memory commands of the monitor

What the host asks for, what a byte-addressed big-endian memory makes of it, and what the monitor
does: the dispatch of a command, and the six commands that read and write memory.
-/

namespace Soc.Monitor

open Lm32 (Cpu Reg Instr SP RA_REG loadWord wordBytes)
open Library.Region (Covers store load)

/-- The memory commands. -/
inductive Command where
  | readMemory (base length : Word)
  | writeMemory (base : Word) (data : List Byte)
  | storeHalfword (base : Word) (value : BitVec 16)
  | storeWord (base value : Word)
  | loadHalfword (base : Word)
  | loadWord (base : Word)

namespace Command

/-- The number of a command in `_T_func`. -/
def selection : Command → Nat
  | readMemory .. => 4
  | writeMemory .. => 5
  | storeHalfword .. => 6
  | storeWord .. => 7
  | loadHalfword .. => 8
  | loadWord .. => 9

/-- Its arguments as the host sends them, least significant byte first. -/
def arguments : Command → List Byte
  | readMemory base length => (wordBytes base).reverse ++ (wordBytes length).reverse
  | writeMemory base data =>
      (wordBytes base).reverse ++ ((wordBytes (.ofNat 32 data.length)).reverse ++ data)
  | storeHalfword base value => (wordBytes base).reverse ++ (halfwordBytes value).reverse
  | storeWord base value => (wordBytes base).reverse ++ (wordBytes value).reverse
  | loadHalfword base => (wordBytes base).reverse
  | loadWord base => (wordBytes base).reverse

/-- Where it goes. -/
def base : Command → Word
  | readMemory base _ | writeMemory base _ | storeHalfword base _ | storeWord base _
  | loadHalfword base | loadWord base => base

/-- The number of bytes of memory it goes to. -/
def size : Command → Nat
  | readMemory _ length => length.toNat
  | writeMemory _ data => data.length
  | storeHalfword .. | loadHalfword .. => 2
  | storeWord .. | loadWord .. => 4

/-- The number of bytes in one access. -/
def width : Command → Nat
  | readMemory .. | writeMemory .. => 1
  | storeHalfword .. | loadHalfword .. => 2
  | storeWord .. | loadWord .. => 4

/-- What it stores, in the order of addresses: the most significant byte of a value comes first. -/
def stored : Command → List Byte
  | writeMemory _ data => data
  | storeHalfword _ value => halfwordBytes value
  | storeWord _ value => wordBytes value
  | readMemory .. | loadHalfword .. | loadWord .. => []

/-- A big-endian memory after a command. -/
def apply (c : Command) (mem : Word → Byte) : Word → Byte := store mem c.base c.stored

/-- What a big-endian memory returns, least significant byte first. -/
def answer (mem : Word → Byte) : Command → List Byte
  | readMemory base length => load mem base length.toNat
  | loadHalfword base => (halfwordBytes (halfwordAt mem base)).reverse
  | loadWord base => (wordBytes (Lm32.loadWord mem base)).reverse
  | writeMemory .. | storeHalfword .. | storeWord .. => []

/-- The number of bytes the host waits for. -/
def answered : Command → Nat
  | readMemory _ length => length.toNat
  | loadHalfword _ => 2
  | loadWord _ => 4
  | writeMemory .. | storeHalfword .. | storeWord .. => 0

/-- The transfers of a command. -/
def transfers (c : Command) : List Transfer :=
  .get (.ofNat 8 c.selection) :: (c.arguments.map .get ++ .replicate c.answered .put)

/-- A command to the memory of the host: aligned, and to addresses that are neither on the stack of
the monitor nor in its mailbox. The text of the monitor is not overwritten. -/
structure Proper (c : Command) : Prop where
  aligned : c.base.toNat % c.width = 0
  size : c.size < 4294967296
  apart : ∀ a, Covers c.base c.size a →
    ¬ OnStack a ∧ ¬ InMailbox a ∧ (c.stored ≠ [] → ¬ InText a)

/-- A command as the monitor takes it: `jtag_get_halfword` drops the lower half of the value. -/
def taken : Command → Command
  | storeHalfword base value => storeHalfword base (value >>> 8)
  | c => c

end Command

/-- What the registers hold between the commands. -/
structure Ready (s : State) : Prop where
  zero : s.cpu.regs 0 = 0
  sp : s.cpu.regs SP = top
  func : s.cpu.regs 25 = label T_FUNC

/-- A command has been performed. -/
structure Performed (c : Command) (rest : List Word) (s f : State) : Prop where
  pc : f.cpu.pc = label GET_SELECTION
  ready : Ready f
  mem : ∀ a, ¬ OnStack a → f.cpu.mem a = c.apply s.cpu.mem a
  polls : f.polls = rest
  sent : f.sent = s.sent ++ c.answer s.cpu.mem

section Calls

variable {s f : State} {k : Nat} {rest : List Word}

theorem Ready.reaches (h : Ready s) (h' : Reaches k s f) : Ready f :=
  ⟨(h'.regs 0 (by decide) (by decide) (by decide)).trans h.zero,
    (h'.regs SP (by decide) (by decide) (by decide)).trans h.sp,
    (h'.regs 25 (by decide) (by decide) (by decide)).trans h.func⟩

theorem Ready.goto (h : Ready s) (k : Nat) : Ready (s.goto k) := ⟨h.zero, h.sp, h.func⟩

/-- The registers of the commands are their own. -/
theorem Ready.sets {x : Reg} {value : Word} (h : Ready s) (h' : Sets x value s f)
    (hx : 0 ≠ x ∧ SP ≠ x ∧ 25 ≠ x) : Ready f :=
  ⟨(h'.others 0 hx.1).trans h.zero, (h'.others SP hx.2.1).trans h.sp,
    (h'.others 25 hx.2.2).trans h.func⟩

/-- A call of `jtag_get_word`. -/
theorem callGetWord {w : Word} (h : Ready s) (hpc : s.cpu.pc = label k)
    (hi : Monitor.instr k = some (calli JTAG_GET_WORD)) (hk : k + 1 < size)
    (hexchange : Exchange ((wordBytes w).reverse.map .get) s.polls rest) :
    ∃ f, Runs s f ∧ Reaches (k + 1) s f ∧ f.cpu.regs 1 = w ∧
      (∀ a, ¬ OnStack a → f.cpu.mem a = s.cpu.mem a) ∧ f.polls = rest ∧ f.sent = s.sent := by
  obtain ⟨f, hruns, hreturned, hvalue, hpolls, hsent⟩ := getWord_spec (s := s.call k JTAG_GET_WORD)
    rfl ((call_regs (by decide)).trans h.zero) ((call_regs (by decide)).trans h.sp) call_ra hk
    hexchange
  exact ⟨f, (Runs.call hpc hi (Nat.lt_of_succ_lt hk)).trans hruns, hreturned.reaches,
    hvalue.trans (word_of_bytes w), hreturned.mem, hpolls, hsent⟩

/-- A call of `jtag_get_halfword`. -/
theorem callGetHalfword {v : BitVec 16} (h : Ready s) (hpc : s.cpu.pc = label k)
    (hi : Monitor.instr k = some (calli JTAG_GET_HALFWORD)) (hk : k + 1 < size)
    (hexchange : Exchange ((halfwordBytes v).reverse.map .get) s.polls rest) :
    ∃ f, Runs s f ∧ Reaches (k + 1) s f ∧ f.cpu.regs 1 = (v >>> 8).setWidth 32 ∧
      (∀ a, ¬ OnStack a → f.cpu.mem a = s.cpu.mem a) ∧ f.polls = rest ∧ f.sent = s.sent := by
  obtain ⟨f, hruns, hreturned, hvalue, hpolls, hsent⟩ := getHalfword_spec
    (s := s.call k JTAG_GET_HALFWORD) rfl ((call_regs (by decide)).trans h.zero)
    ((call_regs (by decide)).trans h.sp) call_ra hk hexchange
  refine ⟨f, (Runs.call hpc hi (Nat.lt_of_succ_lt hk)).trans hruns, hreturned.reaches,
    hvalue.trans ?_, hreturned.mem, hpolls, hsent⟩
  apply BitVec.eq_of_getLsbD_eq
  intro i hi
  simp only [BitVec.getLsbD_setWidth, BitVec.getLsbD_extractLsb', BitVec.getLsbD_ushiftRight]
  by_cases hlow : i < 8
  · simp [hlow]
  · have hout : v.getLsbD (8 + i) = false := BitVec.getLsbD_of_ge v _ (by omega)
    simp [hlow, hout]

/-- A call of `jtag_put_halfword`. -/
theorem callPutHalfword (h : Ready s) (hpc : s.cpu.pc = label k)
    (hi : Monitor.instr k = some (calli JTAG_PUT_HALFWORD)) (hk : k + 1 < size)
    (hexchange : Exchange (.replicate 2 .put) s.polls rest) :
    ∃ f, Runs s f ∧ Reaches (k + 1) s f ∧ (∀ a, ¬ OnStack a → f.cpu.mem a = s.cpu.mem a) ∧
      f.polls = rest ∧
      f.sent = s.sent ++ (halfwordBytes ((s.cpu.regs 1).extractLsb' 0 16)).reverse := by
  obtain ⟨f, hruns, hreturned, hpolls, hsent⟩ := putHalfword_spec
    (s := s.call k JTAG_PUT_HALFWORD) rfl ((call_regs (by decide)).trans h.zero)
    ((call_regs (by decide)).trans h.sp) call_ra hk hexchange
  rw [call_regs (by decide)] at hsent
  exact ⟨f, (Runs.call hpc hi (Nat.lt_of_succ_lt hk)).trans hruns, hreturned.reaches, hreturned.mem,
    hpolls, hsent⟩

/-- A call of `jtag_put_word`. -/
theorem callPutWord (h : Ready s) (hpc : s.cpu.pc = label k)
    (hi : Monitor.instr k = some (calli JTAG_PUT_WORD)) (hk : k + 1 < size)
    (hexchange : Exchange (.replicate 4 .put) s.polls rest) :
    ∃ f, Runs s f ∧ Reaches (k + 1) s f ∧ (∀ a, ¬ OnStack a → f.cpu.mem a = s.cpu.mem a) ∧
      f.polls = rest ∧ f.sent = s.sent ++ (wordBytes (s.cpu.regs 1)).reverse := by
  obtain ⟨f, hruns, hreturned, hpolls, hsent⟩ := putWord_spec
    (s := s.call k JTAG_PUT_WORD) rfl ((call_regs (by decide)).trans h.zero)
    ((call_regs (by decide)).trans h.sp) call_ra hk hexchange
  rw [call_regs (by decide)] at hsent
  exact ⟨f, (Runs.call hpc hi (Nat.lt_of_succ_lt hk)).trans hruns, hreturned.reaches, hreturned.mem,
    hpolls, hsent⟩

end Calls

section Dispatch

variable {s : State} {n j : Nat} {rest : List Word}

/-- A command is entered through `_T_func`. -/
theorem dispatch (h : Ready s) (hpc : s.cpu.pc = label GET_SELECTION) (hn : n ≤ 10)
    (hi : Monitor.instr (T_FUNC + n) = some (bi j))
    (hexchange : Exchange [.get (.ofNat 8 n)] s.polls rest) :
    ∃ f, Runs s f ∧ f.cpu.pc = label j ∧ Ready f ∧ f.cpu.mem = s.cpu.mem ∧ f.polls = rest ∧
      f.sent = s.sent := by
  obtain ⟨s1, hruns1, hreach, h1, hmem1, hpolls1, hsent1⟩ :=
    callGetByte hpc rfl (by decide) h.zero hexchange
  obtain ⟨s2, hruns2, hpc2, hsets2⟩ := Runs.sets hreach.pc rfl (by decide) rfl
  have hready2 : Ready s2 := (h.reaches hreach).sets hsets2 (by decide)
  have h2 : s2.cpu.regs 2 = 10 := by
    rw [hsets2.value, (h.reaches hreach).zero]
    decide
  have h1' : s2.cpu.regs 1 = (BitVec.ofNat 8 n).setWidth 32 := by
    rw [hsets2.others 1 (by decide), h1]
  -- no selection above 10
  have hbound : ∀ n ≤ 10, ¬ (10 : Word).toInt < ((BitVec.ofNat 8 n).setWidth 32 : Word).toInt := by
    decide
  have hruns3 := Runs.bg_next hpc2 rfl (by decide) (h1' ▸ h2 ▸ hbound n hn)
  obtain ⟨s4, hruns4, hpc4, hsets4⟩ :=
    Runs.sets (s := s2.goto 182) (k := 182) rfl rfl (by decide) rfl
  obtain ⟨s5, hruns5, hpc5, hsets5⟩ := Runs.sets hpc4 rfl (by decide) rfl
  have hready5 : Ready s5 :=
    ((hready2.goto _).sets hsets4 (by decide)).sets hsets5 (by decide)
  have hplace : ∀ n ≤ 10, (((BitVec.ofNat 8 n).setWidth 32 : Word) <<< (2 : BitVec 5) +
      label T_FUNC) &&& ~~~3 = label (T_FUNC + n) := by
    decide
  have h5 : s5.cpu.regs 1 &&& ~~~3 = label (T_FUNC + n) := by
    rw [hsets5.value, hsets4.value, hsets4.others 25 (by decide), State.goto_regs, h1',
      hready2.func, hplace n hn]
  have hjump := Runs.instr (f := s5.goto (T_FUNC + n)) hpc5 rfl (by decide) (by
    rw [State.goto, ← h5]
    rfl)
  have htable := Runs.bi (s := s5.goto (T_FUNC + n)) rfl hi
    (show T_FUNC + n < size by simp only [T_FUNC, size]; omega)
  refine ⟨_, ((((hruns1.trans hruns2).trans hruns3).trans hruns4).trans hruns5).trans
    (hjump.trans htable), rfl, (hready5.goto _).goto _, ?_, ?_, ?_⟩
  · rw [State.goto_mem, State.goto_mem, hsets5.mem, hsets4.mem, State.goto_mem, hsets2.mem, hmem1]
  · rw [State.goto_polls, State.goto_polls, hsets5.polls, hsets4.polls, State.goto_polls,
      hsets2.polls, hpolls1]
  · rw [State.goto_sent, State.goto_sent, hsets5.sent, hsets4.sent, State.goto_sent, hsets2.sent,
      hsent1]

end Dispatch

section Loops

variable {s : State} {base : Word} {n : Nat} {rest : List Word}

/-- The first address of a region. -/
theorem covers_self (a : Word) (n : Nat) : Covers a (n + 1) a := by
  simp [Covers]

/-- The counter of a loop is not 0 before the last turn. -/
theorem count_ne {n : Nat} (hn : n + 1 < 4294967296) : BitVec.ofNat 32 (n + 1) ≠ 0 := by
  intro hzero
  have htoNat := congrArg BitVec.toNat hzero
  simp at htoNat
  omega

/-- The counter of a loop after a turn. -/
theorem count_pred (n : Nat) :
    BitVec.ofNat 32 (n + 1) + (-1 : BitVec 16).signExtend 32 = .ofNat 32 n := by
  have hone : (-1 : BitVec 16).signExtend 32 = -1#32 := by decide
  rw [hone, ← BitVec.sub_eq_add_neg, BitVec.ofNat_add, BitVec.add_sub_cancel]

/-- A turn of a loop that is not the last one. -/
theorem loopHead {j k : Nat} (hready : Ready s) (hpc : s.cpu.pc = label k)
    (hi : Monitor.instr k = some (.be 12 0 (label j))) (hk : k < size)
    (h11 : s.cpu.regs 11 = base) (h12 : s.cpu.regs 12 = .ofNat 32 (n + 1))
    (hn : n + 1 < 4294967296) :
    Runs s (s.goto (k + 1)) ∧ (s.goto (k + 1)).cpu.address 11 0 = base := by
  have hne : s.cpu.regs 12 ≠ s.cpu.regs 0 := by
    rw [h12, hready.zero]
    exact count_ne hn
  refine ⟨Runs.be_next hpc hi hk hne, ?_⟩
  rw [Cpu.address, State.goto_regs, h11]
  exact BitVec.add_zero base

/-- The end of a turn: the next address, one byte less, and back to the head of the loop. -/
theorem loopBack {j k : Nat} (hready : Ready s) (hpc : s.cpu.pc = label k)
    (hi : Monitor.instr k = some (addi 11 11 1))
    (hi' : Monitor.instr (k + 1) = some (addi 12 12 (-1)))
    (hi'' : Monitor.instr (k + 2) = some (bi j)) (hk : k + 2 < size)
    (h11 : s.cpu.regs 11 = base) (h12 : s.cpu.regs 12 = .ofNat 32 (n + 1)) :
    ∃ f, Runs s f ∧ f.cpu.pc = label j ∧ Ready f ∧ f.cpu.regs 11 = base + 1 ∧
      f.cpu.regs 12 = .ofNat 32 n ∧ f.cpu.mem = s.cpu.mem ∧ f.polls = s.polls ∧
      f.sent = s.sent := by
  obtain ⟨s1, hruns1, hpc1, hsets1⟩ := Runs.sets hpc hi (by omega) rfl
  obtain ⟨s2, hruns2, hpc2, hsets2⟩ := Runs.sets hpc1 hi' (by omega) rfl
  have hready2 := (hready.sets hsets1 (by decide)).sets hsets2 (by decide)
  refine ⟨_, (hruns1.trans hruns2).trans (Runs.bi hpc2 hi'' hk), rfl, hready2.goto _, ?_, ?_,
    hsets2.mem.trans hsets1.mem, hsets2.polls.trans hsets1.polls, hsets2.sent.trans hsets1.sent⟩
  · rw [State.goto_regs, hsets2.others 11 (by decide), hsets1.value, h11]
    rfl
  · rw [State.goto_regs, hsets2.value, hsets1.others 12 (by decide), h12, count_pred]

/-- `_read_mem` sends the bytes of memory one after the other. -/
theorem readLoop (hready : Ready s) (hpc : s.cpu.pc = label READ_MEM) (h11 : s.cpu.regs 11 = base)
    (h12 : s.cpu.regs 12 = .ofNat 32 n) (hn : n < 4294967296)
    (hplain : ∀ a, Covers base n a → ¬ InMailbox a)
    (hexchange : Exchange (.replicate n .put) s.polls rest) :
    ∃ f, Runs s f ∧ f.cpu.pc = label READ_END ∧ Ready f ∧ f.cpu.mem = s.cpu.mem ∧ f.polls = rest ∧
      f.sent = s.sent ++ load s.cpu.mem base n := by
  induction n generalizing s base with
  | zero =>
      have hend := Runs.be hpc rfl (by decide) (h12.trans hready.zero.symm)
      exact ⟨_, hend, rfl, hready.goto _, rfl, hexchange, (List.append_nil _).symm⟩
  | succ n ih =>
      obtain ⟨hruns1, haddress⟩ := loopHead hready hpc rfl (by decide) h11 h12 hn
      obtain ⟨mid, hput, hexchange⟩ := exchange_cons hexchange
      obtain ⟨s2, hruns2, hreach2, hmem2, hpolls2, hsent2⟩ :=
        giveByte (s := s.goto (READ_MEM + 1)) rfl rfl rfl (by decide) haddress
          ⟨Nat.mod_one _, hplain base (covers_self base n)⟩ hready.zero hput
      have hkept : ∀ r, r ≠ 1 → r ≠ 2 → r ≠ RA_REG → s2.cpu.regs r = s.cpu.regs r := hreach2.regs
      obtain ⟨s3, hruns3, hpc3, hready3, hbase, hcount, hmem3, hpolls3, hsent3⟩ :=
        loopBack ((hready.goto _).reaches hreach2) hreach2.pc rfl rfl rfl (by decide)
          ((hkept 11 (by decide) (by decide) (by decide)).trans h11)
          ((hkept 12 (by decide) (by decide) (by decide)).trans h12)
      have hrest : ∀ a, Covers (base + 1) n a → ¬ InMailbox a := by
        intro a ha
        obtain rfl | ha := ha.succ
        · exact hplain _ (covers_self _ n)
        · exact hplain a ha
      obtain ⟨f, hmore, hend, hreadyf, hmemf, hpollsf, hsentf⟩ :=
        ih hready3 hpc3 hbase hcount (by omega) hrest ((hpolls3.trans hpolls2) ▸ hexchange)
      refine ⟨f, ((hruns1.trans hruns2).trans hruns3).trans hmore, hend, hreadyf, ?_, hpollsf, ?_⟩
      · rw [hmemf, hmem3, hmem2, State.goto_mem]
      · rw [hsentf, hsent3, hsent2, hmem3, hmem2, State.goto_sent, State.goto_mem,
          List.append_assoc]
        rfl

/-- `_write_mem` stores the bytes it gets one after the other. -/
theorem writeLoop {data : List Byte} (hready : Ready s) (hpc : s.cpu.pc = label WRITE_MEM)
    (h11 : s.cpu.regs 11 = base) (h12 : s.cpu.regs 12 = .ofNat 32 data.length)
    (hn : data.length < 4294967296)
    (hplain : ∀ a, Covers base data.length a → ¬ InMailbox a ∧ ¬ InText a)
    (hexchange : Exchange (data.map .get) s.polls rest) :
    ∃ f, Runs s f ∧ f.cpu.pc = label WRITE_END ∧ Ready f ∧
      f.cpu.mem = store s.cpu.mem base data ∧ f.polls = rest ∧ f.sent = s.sent := by
  induction data generalizing s base with
  | nil =>
      have hend := Runs.be hpc rfl (by decide) (h12.trans hready.zero.symm)
      exact ⟨_, hend, rfl, hready.goto _, rfl, hexchange, rfl⟩
  | cons b data ih =>
      obtain ⟨hruns1, haddress⟩ := loopHead hready hpc rfl (by decide) h11 h12 hn
      obtain ⟨mid, hget, hexchange⟩ := exchange_cons hexchange
      have hfirst := hplain base (covers_self base data.length)
      obtain ⟨s2, hruns2, hreach2, hmem2, hpolls2, hsent2⟩ :=
        takeByte (s := s.goto (WRITE_MEM + 1)) rfl rfl rfl (by decide) (by decide) haddress
          ⟨⟨Nat.mod_one _, hfirst.1⟩, hfirst.2⟩ hready.zero hget
      have hkept : ∀ r, r ≠ 1 → r ≠ 2 → r ≠ RA_REG → s2.cpu.regs r = s.cpu.regs r := hreach2.regs
      obtain ⟨s3, hruns3, hpc3, hready3, hbase, hcount, hmem3, hpolls3, hsent3⟩ :=
        loopBack ((hready.goto _).reaches hreach2) hreach2.pc rfl rfl rfl (by decide)
          ((hkept 11 (by decide) (by decide) (by decide)).trans h11)
          ((hkept 12 (by decide) (by decide) (by decide)).trans h12)
      have hrest : ∀ a, Covers (base + 1) data.length a → ¬ InMailbox a ∧ ¬ InText a := by
        intro a ha
        obtain rfl | ha := ha.succ
        · exact hplain _ (covers_self _ data.length)
        · exact hplain a ha
      obtain ⟨f, hmore, hend, hreadyf, hmemf, hpollsf, hsentf⟩ :=
        ih hready3 hpc3 hbase hcount (Nat.lt_of_succ_lt hn) hrest
          ((hpolls3.trans hpolls2) ▸ hexchange)
      refine ⟨f, ((hruns1.trans hruns2).trans hruns3).trans hmore, hend, hreadyf, ?_, hpollsf, ?_⟩
      · rw [hmemf, hmem3, hmem2]
        rfl
      · rw [hsentf, hsent3, hsent2, State.goto_sent]

end Loops

section Performs

variable {s s' : State} {k : Nat} {c : Command} {rest : List Word} {base : Word}

/-- Where a command goes is memory. -/
theorem Command.Proper.plain (h : c.Proper) (hsize : 0 < c.size) : Plain c.base c.width :=
  ⟨h.aligned, (h.apart c.base (by simpa [Covers] using hsize)).2.1⟩

/-- What a command stores does not go to the text. -/
theorem Command.Proper.outside (h : c.Proper) (hsize : 0 < c.size) (hstored : c.stored ≠ []) :
    ¬ InText c.base :=
  (h.apart c.base (by simpa [Covers] using hsize)).2.2 hstored

/-- A word is got into a register of the command. -/
theorem getInto {w : Word} {x : Reg} (h : Ready s) (hpc : s.cpu.pc = label k)
    (hi : Monitor.instr k = some (calli JTAG_GET_WORD))
    (hi' : Monitor.instr (k + 1) = some (mv x 1)) (hk : k + 1 < size) (hx : 0 ≠ x ∧ SP ≠ x ∧ 25 ≠ x)
    (hexchange : Exchange ((wordBytes w).reverse.map .get) s.polls rest) :
    ∃ f, Runs s f ∧ f.cpu.pc = label (k + 2) ∧ Ready f ∧ f.cpu.regs x = w ∧
      (∀ r, r ≠ 1 → r ≠ 2 → r ≠ RA_REG → r ≠ x → f.cpu.regs r = s.cpu.regs r) ∧
      (∀ a, ¬ OnStack a → f.cpu.mem a = s.cpu.mem a) ∧ f.polls = rest ∧ f.sent = s.sent := by
  obtain ⟨s1, hruns1, hreach, h1, hmem, hpolls, hsent⟩ := callGetWord h hpc hi hk hexchange
  obtain ⟨f, hruns2, hpc2, hsets⟩ := Runs.sets hreach.pc hi' hk rfl
  refine ⟨f, hruns1.trans hruns2, hpc2, (h.reaches hreach).sets hsets hx, ?_,
    fun r hr1 hr2 hra hr => (hsets.others r hr).trans (hreach.regs r hr1 hr2 hra),
    fun a ha => (congrFun hsets.mem a).trans (hmem a ha), hsets.polls.trans hpolls,
    hsets.sent.trans hsent⟩
  rw [hsets.value, h1, (h.reaches hreach).zero]
  exact BitVec.or_zero

/-- A command is entered, and its first argument is got into r11. -/
theorem takeBase {n j : Nat} {mid : List Word} (h : Ready s)
    (hpc : s.cpu.pc = label GET_SELECTION) (hn : n ≤ 10)
    (hi : Monitor.instr (T_FUNC + n) = some (bi j))
    (hi' : Monitor.instr j = some (calli JTAG_GET_WORD))
    (hi'' : Monitor.instr (j + 1) = some (mv 11 1)) (hj : j + 1 < size)
    (hselect : Exchange [.get (.ofNat 8 n)] s.polls mid)
    (hbase : Exchange ((wordBytes base).reverse.map .get) mid rest) :
    ∃ f, Runs s f ∧ f.cpu.pc = label (j + 2) ∧ Ready f ∧ f.cpu.regs 11 = base ∧
      (∀ a, ¬ OnStack a → f.cpu.mem a = s.cpu.mem a) ∧ f.polls = rest ∧ f.sent = s.sent := by
  obtain ⟨s1, hruns1, hpc1, h1, hmem1, hpolls1, hsent1⟩ := dispatch h hpc hn hi hselect
  obtain ⟨f, hruns2, hpc2, h2, h11, -, hmem2, hpolls2, hsent2⟩ :=
    getInto h1 hpc1 hi' hi'' hj (by decide) (hpolls1 ▸ hbase)
  exact ⟨f, hruns1.trans hruns2, hpc2, h2, h11,
    fun a ha => (hmem2 a ha).trans (congrFun hmem1 a), hpolls2, hsent2.trans hsent1⟩

/-- A command is entered, and its only argument is got into r1. -/
theorem takeAddress {n j : Nat} {mid : List Word} (h : Ready s)
    (hpc : s.cpu.pc = label GET_SELECTION) (hn : n ≤ 10)
    (hi : Monitor.instr (T_FUNC + n) = some (bi j))
    (hi' : Monitor.instr j = some (calli JTAG_GET_WORD)) (hj : j + 1 < size)
    (hselect : Exchange [.get (.ofNat 8 n)] s.polls mid)
    (hbase : Exchange ((wordBytes base).reverse.map .get) mid rest) :
    ∃ f, Runs s f ∧ f.cpu.pc = label (j + 1) ∧ Ready f ∧ f.cpu.address 1 0 = base ∧
      (∀ a, ¬ OnStack a → f.cpu.mem a = s.cpu.mem a) ∧ f.polls = rest ∧ f.sent = s.sent := by
  obtain ⟨s1, hruns1, hpc1, h1, hmem1, hpolls1, hsent1⟩ := dispatch h hpc hn hi hselect
  obtain ⟨f, hruns2, hreach, hr1, hmem2, hpolls2, hsent2⟩ :=
    callGetWord h1 hpc1 hi' hj (hpolls1 ▸ hbase)
  refine ⟨f, hruns1.trans hruns2, hreach.pc, h1.reaches hreach, ?_,
    fun a ha => (hmem2 a ha).trans (congrFun hmem1 a), hpolls2, hsent2.trans hsent1⟩
  rw [Cpu.address, hr1]
  exact BitVec.add_zero base

/-- A command ends by a store. -/
theorem storeEnd {op : Op} {bytes : List Byte} (h : Ready s') (hpc : s'.cpu.pc = label k)
    (hi : Monitor.instr k = some op) (hi' : Monitor.instr (k + 1) = some (bi GET_SELECTION))
    (hk : k + 1 < size)
    (hexec : s'.exec op = some { s'.skip with cpu.mem := store s'.cpu.mem base bytes })
    (hmem : ∀ a, ¬ OnStack a → s'.cpu.mem a = s.cpu.mem a) :
    ∃ f, Runs s' f ∧ f.cpu.pc = label GET_SELECTION ∧ Ready f ∧
      (∀ a, ¬ OnStack a → f.cpu.mem a = store s.cpu.mem base bytes a) ∧ f.polls = s'.polls ∧
      f.sent = s'.sent := by
  have hstore := Runs.instr hpc hi (Nat.lt_of_succ_lt hk) hexec
  have hnext : s'.skip.cpu.pc = label (k + 1) := by
    rw [← label_succ, ← hpc]
    rfl
  have hback := Runs.bi (s := { s'.skip with cpu.mem := store s'.cpu.mem base bytes }) hnext hi' hk
  exact ⟨_, hstore.trans hback, rfl, ⟨h.zero, h.sp, h.func⟩,
    fun a ha => Library.Region.store_congr (hmem a ha), rfl, rfl⟩

/-- `store_word`. -/
theorem storeWord_spec {value : Word} (h : Ready s) (hpc : s.cpu.pc = label GET_SELECTION)
    (hproper : (Command.storeWord base value).Proper)
    (hexchange : Exchange (Command.storeWord base value).transfers s.polls rest) :
    ∃ f, Runs s f ∧ Performed (.storeWord base value) rest s f := by
  obtain ⟨mid1, hselect, hargs⟩ := exchange_cons hexchange
  rw [Command.answered, List.replicate_zero, List.append_nil, Command.arguments, List.map_append]
    at hargs
  obtain ⟨mid2, hbase, hvalue⟩ := exchange_append.1 hargs
  obtain ⟨s1, hruns1, hpc1, h1, h11, hmem1, hpolls1, hsent1⟩ :=
    takeBase h hpc (show 7 ≤ 10 by decide) rfl rfl rfl (by decide) hselect hbase
  obtain ⟨s2, hruns2, hreach2, hr1, hmem2, hpolls2, hsent2⟩ :=
    callGetWord h1 hpc1 rfl (by decide) (hpolls1 ▸ hvalue)
  have haddress : s2.cpu.address 11 0 = base := by
    rw [Cpu.address, hreach2.regs 11 (by decide) (by decide) (by decide), h11]
    exact BitVec.add_zero base
  have hsize : 0 < (Command.storeWord base value).size := show 0 < 4 by decide
  have hexec := exec_sw (x := 1) haddress
    ⟨hproper.plain hsize, hproper.outside hsize (List.cons_ne_nil _ _)⟩
  rw [hr1] at hexec
  have hmem : ∀ a, ¬ OnStack a → s2.cpu.mem a = s.cpu.mem a :=
    fun a ha => (hmem2 a ha).trans (hmem1 a ha)
  obtain ⟨f, hruns3, hend, hready, hmemf, hpollsf, hsentf⟩ :=
    storeEnd (h1.reaches hreach2) hreach2.pc rfl rfl (by decide) hexec hmem
  refine ⟨f, (hruns1.trans hruns2).trans hruns3, hend, hready, hmemf, hpollsf.trans hpolls2, ?_⟩
  rw [hsentf, hsent2, hsent1]
  exact (List.append_nil _).symm

/-- `store_halfword` stores the upper half of the value. -/
theorem storeHalfword_spec {value : BitVec 16} (h : Ready s)
    (hpc : s.cpu.pc = label GET_SELECTION) (hproper : (Command.storeHalfword base value).Proper)
    (hexchange : Exchange (Command.storeHalfword base value).transfers s.polls rest) :
    ∃ f, Runs s f ∧ Performed (.storeHalfword base (value >>> 8)) rest s f := by
  obtain ⟨mid1, hselect, hargs⟩ := exchange_cons hexchange
  rw [Command.answered, List.replicate_zero, List.append_nil, Command.arguments, List.map_append]
    at hargs
  obtain ⟨mid2, hbase, hvalue⟩ := exchange_append.1 hargs
  obtain ⟨s1, hruns1, hpc1, h1, h11, hmem1, hpolls1, hsent1⟩ :=
    takeBase h hpc (show 6 ≤ 10 by decide) rfl rfl rfl (by decide) hselect hbase
  obtain ⟨s2, hruns2, hreach2, hr1, hmem2, hpolls2, hsent2⟩ :=
    callGetHalfword h1 hpc1 rfl (by decide) (hpolls1 ▸ hvalue)
  have haddress : s2.cpu.address 11 0 = base := by
    rw [Cpu.address, hreach2.regs 11 (by decide) (by decide) (by decide), h11]
    exact BitVec.add_zero base
  have hsize : 0 < (Command.storeHalfword base value).size := show 0 < 2 by decide
  have hexec : s2.exec (.sh 11 0 1) = some { s2.skip with
      cpu.mem := store s2.cpu.mem base (halfwordBytes (value >>> 8)) } := by
    rw [State.exec, haddress, hr1, low_bits (by decide)]
    exact if_pos ⟨hproper.plain hsize, hproper.outside hsize (List.cons_ne_nil _ _)⟩
  have hmem : ∀ a, ¬ OnStack a → s2.cpu.mem a = s.cpu.mem a :=
    fun a ha => (hmem2 a ha).trans (hmem1 a ha)
  obtain ⟨f, hruns3, hend, hready, hmemf, hpollsf, hsentf⟩ :=
    storeEnd (h1.reaches hreach2) hreach2.pc rfl rfl (by decide) hexec hmem
  refine ⟨f, (hruns1.trans hruns2).trans hruns3, hend, hready, hmemf, hpollsf.trans hpolls2, ?_⟩
  rw [hsentf, hsent2, hsent1]
  exact (List.append_nil _).symm

/-- What a proper command loads is not on the stack. -/
theorem Command.Proper.answer_eq {mem mem' : Word → Byte} (h : c.Proper)
    (hmem : ∀ a, ¬ OnStack a → mem a = mem' a) : c.answer mem = c.answer mem' := by
  have hload : load mem c.base c.size = load mem' c.base c.size :=
    Library.Region.load_congr (fun a ha => hmem a (h.apart a ha).1) (Nat.le_of_lt h.size)
  cases c with
  | readMemory base length => exact hload
  | loadHalfword base =>
      obtain ⟨hhigh, hrest⟩ := List.cons.inj hload
      obtain ⟨hlow, -⟩ := List.cons.inj hrest
      change mem base = mem' base at hhigh
      change mem (base + 1) = mem' (base + 1) at hlow
      rw [answer, answer, halfwordAt, halfwordAt, hhigh, hlow]
  | loadWord base =>
      have hword := Lm32.loadWord_of_load (show load mem base 4 = load mem' base 4 from hload)
      rw [answer, hword]
      rfl
  | writeMemory base data => rfl
  | storeHalfword base value => rfl
  | storeWord base value => rfl

/-- `load_word`. -/
theorem loadWord_spec (h : Ready s) (hpc : s.cpu.pc = label GET_SELECTION)
    (hproper : (Command.loadWord base).Proper)
    (hexchange : Exchange (Command.loadWord base).transfers s.polls rest) :
    ∃ f, Runs s f ∧ Performed (.loadWord base) rest s f := by
  obtain ⟨mid1, hselect, hrest⟩ := exchange_cons hexchange
  obtain ⟨mid2, hbase, hputs⟩ := exchange_append.1 hrest
  obtain ⟨s1, hruns1, hpc1, h1, haddress, hmem1, hpolls1, hsent1⟩ :=
    takeAddress h hpc (show 9 ≤ 10 by decide) rfl rfl (by decide) hselect hbase
  obtain ⟨s2, hruns2, hpc2, hsets2⟩ := Runs.sets hpc1 rfl (by decide)
    (exec_lw (x := 1) haddress (hproper.plain (show 0 < 4 by decide)))
  have h2 := h1.sets hsets2 (by decide)
  obtain ⟨s3, hruns3, hreach3, hmem3, hpolls3, hsent3⟩ :=
    callPutWord h2 hpc2 rfl (by decide) ((hsets2.polls.trans hpolls1) ▸ hputs)
  have hback := Runs.bi hreach3.pc rfl (by decide)
  refine ⟨_, (hruns1.trans hruns2).trans (hruns3.trans hback), rfl, (h2.reaches hreach3).goto _,
    fun a ha => ?_, hpolls3, ?_⟩
  · rw [State.goto_mem, hmem3 a ha, hsets2.mem, hmem1 a ha]
    rfl
  · rw [State.goto_sent, hsent3, hsets2.sent, hsets2.value, hsent1,
      ← hproper.answer_eq hmem1]
    rfl

/-- `load_halfword`. -/
theorem loadHalfword_spec (h : Ready s) (hpc : s.cpu.pc = label GET_SELECTION)
    (hproper : (Command.loadHalfword base).Proper)
    (hexchange : Exchange (Command.loadHalfword base).transfers s.polls rest) :
    ∃ f, Runs s f ∧ Performed (.loadHalfword base) rest s f := by
  obtain ⟨mid1, hselect, hrest⟩ := exchange_cons hexchange
  obtain ⟨mid2, hbase, hputs⟩ := exchange_append.1 hrest
  obtain ⟨s1, hruns1, hpc1, h1, haddress, hmem1, hpolls1, hsent1⟩ :=
    takeAddress h hpc (show 8 ≤ 10 by decide) rfl rfl (by decide) hselect hbase
  have hexec : s1.exec (.lhu 1 1 0) =
      some { s1 with cpu := s1.cpu.put 1 ((halfwordAt s1.cpu.mem base).setWidth 32) } := by
    rw [State.exec, haddress]
    exact if_pos (hproper.plain (show 0 < 2 by decide))
  obtain ⟨s2, hruns2, hpc2, hsets2⟩ := Runs.sets hpc1 rfl (by decide) hexec
  have h2 := h1.sets hsets2 (by decide)
  obtain ⟨s3, hruns3, hreach3, hmem3, hpolls3, hsent3⟩ :=
    callPutHalfword h2 hpc2 rfl (by decide) ((hsets2.polls.trans hpolls1) ▸ hputs)
  have hback := Runs.bi hreach3.pc rfl (by decide)
  refine ⟨_, (hruns1.trans hruns2).trans (hruns3.trans hback), rfl, (h2.reaches hreach3).goto _,
    fun a ha => ?_, hpolls3, ?_⟩
  · rw [State.goto_mem, hmem3 a ha, hsets2.mem, hmem1 a ha]
    rfl
  · rw [State.goto_sent, hsent3, hsets2.sent, hsets2.value, hsent1, low_bits (by decide),
      ← hproper.answer_eq hmem1]
    rfl

/-- `read_memory`. -/
theorem readMemory_spec {length : Word} (h : Ready s) (hpc : s.cpu.pc = label GET_SELECTION)
    (hproper : (Command.readMemory base length).Proper)
    (hexchange : Exchange (Command.readMemory base length).transfers s.polls rest) :
    ∃ f, Runs s f ∧ Performed (.readMemory base length) rest s f := by
  obtain ⟨mid1, hselect, hrest⟩ := exchange_cons hexchange
  obtain ⟨mid2, hargs, hputs⟩ := exchange_append.1 hrest
  rw [Command.arguments, List.map_append] at hargs
  obtain ⟨mid3, hbase, hlength⟩ := exchange_append.1 hargs
  obtain ⟨s1, hruns1, hpc1, h1, h11, hmem1, hpolls1, hsent1⟩ :=
    takeBase h hpc (show 4 ≤ 10 by decide) rfl rfl rfl (by decide) hselect hbase
  obtain ⟨s2, hruns2, hpc2, h2, h12, hkept2, hmem2, hpolls2, hsent2⟩ :=
    getInto h1 hpc1 rfl rfl (by decide) (by decide) (hpolls1 ▸ hlength)
  have h11' : s2.cpu.regs 11 = base :=
    (hkept2 11 (by decide) (by decide) (by decide) (by decide)).trans h11
  have h12' : s2.cpu.regs 12 = .ofNat 32 length.toNat := by
    rw [h12, BitVec.ofNat_toNat, BitVec.setWidth_eq]
  obtain ⟨s3, hruns3, hpc3, h3, hmem3, hpolls3, hsent3⟩ := readLoop h2 hpc2 h11' h12' hproper.size
    (fun a ha => (hproper.apart a ha).2.1) (hpolls2 ▸ hputs)
  have hback := Runs.bi hpc3 rfl (by decide)
  have hmem : ∀ a, ¬ OnStack a → s2.cpu.mem a = s.cpu.mem a :=
    fun a ha => (hmem2 a ha).trans (hmem1 a ha)
  refine ⟨_, (hruns1.trans hruns2).trans (hruns3.trans hback), rfl, h3.goto _, fun a ha => ?_,
    hpolls3, ?_⟩
  · rw [State.goto_mem, hmem3, hmem a ha]
    rfl
  · rw [State.goto_sent, hsent3, hsent2, hsent1, ← hproper.answer_eq hmem]
    rfl

/-- `write_memory`. -/
theorem writeMemory_spec {data : List Byte} (h : Ready s) (hpc : s.cpu.pc = label GET_SELECTION)
    (hproper : (Command.writeMemory base data).Proper)
    (hexchange : Exchange (Command.writeMemory base data).transfers s.polls rest) :
    ∃ f, Runs s f ∧ Performed (.writeMemory base data) rest s f := by
  obtain ⟨mid1, hselect, hargs⟩ := exchange_cons hexchange
  rw [Command.answered, List.replicate_zero, List.append_nil, Command.arguments, List.map_append,
    List.map_append] at hargs
  obtain ⟨mid2, hbase, hargs⟩ := exchange_append.1 hargs
  obtain ⟨mid3, hlength, hdata⟩ := exchange_append.1 hargs
  obtain ⟨s1, hruns1, hpc1, h1, h11, hmem1, hpolls1, hsent1⟩ :=
    takeBase h hpc (show 5 ≤ 10 by decide) rfl rfl rfl (by decide) hselect hbase
  obtain ⟨s2, hruns2, hpc2, h2, h12, hkept2, hmem2, hpolls2, hsent2⟩ :=
    getInto h1 hpc1 rfl rfl (by decide) (by decide) (hpolls1 ▸ hlength)
  have h11' : s2.cpu.regs 11 = base :=
    (hkept2 11 (by decide) (by decide) (by decide) (by decide)).trans h11
  have hplain : ∀ a, Covers base data.length a → ¬ InMailbox a ∧ ¬ InText a := by
    intro a ha
    have hplace := hproper.apart a ha
    refine ⟨hplace.2.1, hplace.2.2 ?_⟩
    rintro (rfl : data = [])
    exact Nat.not_lt_zero _ ha
  obtain ⟨s3, hruns3, hpc3, h3, hmem3, hpolls3, hsent3⟩ := writeLoop h2 hpc2 h11' h12 hproper.size
    hplain (hpolls2 ▸ hdata)
  have hback := Runs.bi hpc3 rfl (by decide)
  refine ⟨_, (hruns1.trans hruns2).trans (hruns3.trans hback), rfl, h3.goto _, fun a ha => ?_,
    hpolls3, ?_⟩
  · rw [State.goto_mem, hmem3]
    exact Library.Region.store_congr ((hmem2 a ha).trans (hmem1 a ha))
  · rw [State.goto_sent, hsent3, hsent2, hsent1]
    exact (List.append_nil _).symm

/-- A command is performed as the monitor takes it. -/
theorem perform_spec (h : Ready s) (hpc : s.cpu.pc = label GET_SELECTION) (hproper : c.Proper)
    (hexchange : Exchange c.transfers s.polls rest) :
    ∃ f, Runs s f ∧ Performed c.taken rest s f := by
  cases c with
  | readMemory base length => exact readMemory_spec h hpc hproper hexchange
  | writeMemory base data => exact writeMemory_spec h hpc hproper hexchange
  | storeHalfword base value => exact storeHalfword_spec h hpc hproper hexchange
  | storeWord base value => exact storeWord_spec h hpc hproper hexchange
  | loadHalfword base => exact loadHalfword_spec h hpc hproper hexchange
  | loadWord base => exact loadWord_spec h hpc hproper hexchange

end Performs

end Soc.Monitor
