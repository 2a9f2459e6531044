import Mathlib.Data.List.Basic
import Soc.Lm32.Isa

/-!
# The ROM monitor

The commands of `monitor.S` that go through memory, instruction by instruction, at the addresses
`linker.ld` gives them. The monitor talks to the host through a mailbox of four registers: it polls
`rx_data` and `tx_ack`, and writes `rx_ack` and `tx_data`. What it polls is up to the host.
-/

namespace Soc.Monitor

open Lm32 (Cpu Reg Instr SP RA_REG after loadWord wordBytes)
open Library.Region (Covers store)

/-- `ORIGIN(ram)`, where `_start` is linked. -/
def ram : Word := 0x10000000

/-- The number of instructions in `monitor.S`. -/
def size : Nat := 293

/-- The address of an instruction of `monitor.S` by its number. -/
def label (k : Nat) : Word := after ram k

/-- `rx_data`, the first register of the mailbox. -/
def rxData : Word := 0x60002000

/-- `rx_ack`. -/
def rxAck : Word := 0x60002004

/-- `tx_data`. -/
def txData : Word := 0x60002008

/-- `tx_ack`. -/
def txAck : Word := 0x6000200c

/-- The address is in the mailbox. -/
def InMailbox (a : Word) : Prop := Covers rxData 16 a

instance : DecidablePred InMailbox := fun a => inferInstanceAs (Decidable (Covers rxData 16 a))

/-- The address is in the text of the monitor. -/
def InText (a : Word) : Prop := Covers ram (4 * size) a

instance : DecidablePred InText := fun a => inferInstanceAs (Decidable (Covers ram (4 * size) a))

/-- The instructions of `monitor.S`, with those of `crt0.S` among them. -/
inductive Op where
  | base (i : Instr)
  | add (x y z : Reg)
  | sli (x y : Reg) (n : BitVec 5)
  | lbu (x y : Reg) (offset : BitVec 16)
  | lhu (x y : Reg) (offset : BitVec 16)
  | sb (y : Reg) (offset : BitVec 16) (x : Reg)
  | sh (y : Reg) (offset : BitVec 16) (x : Reg)
  | be (x y : Reg) (target : Word)
  | bne (x y : Reg) (target : Word)
  | bg (x y : Reg) (target : Word)
  deriving DecidableEq

/-- The CPU, what the host lets the monitor poll from now on, and the bytes the monitor has sent. -/
structure State where
  cpu : Cpu
  polls : List Word
  sent : List Byte

/-- The halfword at an address. -/
def halfwordAt (mem : Word → Byte) (a : Word) : BitVec 16 := mem a ++ mem (a + 1)

/-- The bytes of a halfword. -/
def halfwordBytes (value : BitVec 16) : List Byte :=
  [value.extractLsb' 8 8, value.extractLsb' 0 8]

/-- An access of `n` bytes to memory: aligned, and outside the mailbox. -/
def Plain (a : Word) (n : Nat) : Prop := a.toNat % n = 0 ∧ ¬ InMailbox a

instance (a : Word) (n : Nat) : Decidable (Plain a n) := inferInstanceAs (Decidable (_ ∧ _))

namespace State

variable (s : State)

/-- The next instruction follows. -/
def skip : State := { s with cpu.pc := s.cpu.pc + 4 }

/-- A load of `n` bytes from memory into a register. -/
def load (a : Word) (n : Nat) (x : Reg) (value : Word) : Option State :=
  if Plain a n then some { s with cpu := s.cpu.put x value } else none

/-- A store to memory. The text of the monitor is not to be written. -/
def store (a : Word) (bytes : List Byte) : Option State :=
  if Plain a bytes.length ∧ ¬ InText a then
    some { s.skip with cpu.mem := Library.Region.store s.cpu.mem a bytes }
  else none

/-- `lw`: the next poll, or a load from memory. -/
def lw (x y : Reg) (offset : BitVec 16) : Option State :=
  let a := s.cpu.address y offset
  if a = rxData ∨ a = txAck then
    match s.polls with
    | [] => none
    | value :: polls => some { s with cpu := s.cpu.put x value, polls := polls }
  else s.load a 4 x (loadWord s.cpu.mem a)

/-- `sw`: a write to the mailbox, or a store to memory. A byte is sent with bit 8 set, and the host
answers an acknowledgement by what it lets the monitor poll. -/
def sw (y : Reg) (offset : BitVec 16) (x : Reg) : Option State :=
  let a := s.cpu.address y offset
  let value := s.cpu.regs x
  if a = rxAck then some s.skip
  else if a = txData then
    some { s.skip with
      sent := if value = 0 then s.sent else s.sent ++ [value.extractLsb' 0 8] }
  else s.store a (wordBytes value)

/-- A conditional branch. -/
def branch (taken : Prop) [Decidable taken] (target : Word) : State :=
  if taken then { s with cpu.pc := target } else s.skip

/-- The state after an instruction; `none` where the monitor waits for the next poll, and for what
is no access to memory. -/
def exec : Op → Option State
  | .base (.lw x y offset) => s.lw x y offset
  | .base (.sw y offset x) => s.sw y offset x
  | .base i => some { s with cpu := i.exec s.cpu }
  | .add x y z => some { s with cpu := s.cpu.put x (s.cpu.regs y + s.cpu.regs z) }
  | .sli x y n => some { s with cpu := s.cpu.put x (s.cpu.regs y <<< n) }
  | .lbu x y offset =>
      let a := s.cpu.address y offset
      s.load a 1 x ((s.cpu.mem a).setWidth 32)
  | .lhu x y offset =>
      let a := s.cpu.address y offset
      s.load a 2 x ((halfwordAt s.cpu.mem a).setWidth 32)
  | .sb y offset x => s.store (s.cpu.address y offset) [(s.cpu.regs x).extractLsb' 0 8]
  | .sh y offset x =>
      s.store (s.cpu.address y offset) (halfwordBytes ((s.cpu.regs x).extractLsb' 0 16))
  | .be x y target => some (s.branch (s.cpu.regs x = s.cpu.regs y) target)
  | .bne x y target => some (s.branch (s.cpu.regs x ≠ s.cpu.regs y) target)
  | .bg x y target => some (s.branch ((s.cpu.regs y).toInt < (s.cpu.regs x).toInt) target)

end State

section Mnemonics

/-- `mvhi`. -/
def mvhi (x : Reg) (imm : BitVec 16) : Op := .base (.orhi x 0 imm)

/-- `mvi`. -/
def mvi (x : Reg) (imm : BitVec 16) : Op := .base (.addi x 0 imm)

/-- `mv`. -/
def mv (x y : Reg) : Op := .base (.or x y 0)

/-- `ret`. -/
def ret : Op := .base (.b RA_REG)

/-- `lw`. -/
def lw (x y : Reg) (offset : BitVec 16) : Op := .base (.lw x y offset)

/-- `sw`. -/
def sw (y : Reg) (offset : BitVec 16) (x : Reg) : Op := .base (.sw y offset x)

/-- `addi`. -/
def addi (x y : Reg) (imm : BitVec 16) : Op := .base (.addi x y imm)

/-- `calli`. -/
def calli (k : Nat) : Op := .base (.calli (label k))

/-- `bi`. -/
def bi (k : Nat) : Op := .base (.bi (label k))

end Mnemonics

section Labels

/-- `jtag_get_byte`. -/
def JTAG_GET_BYTE : Nat := 100

/-- `jtag_get_byte1`. -/
def JTAG_GET_BYTE1 : Nat := 104

/-- `jtag_put_byte`. -/
def JTAG_PUT_BYTE : Nat := 109

/-- `jtag_put_byte1`. -/
def JTAG_PUT_BYTE1 : Nat := 117

/-- `jtag_get_halfword`. -/
def JTAG_GET_HALFWORD : Nat := 121

/-- `jtag_get_word`. -/
def JTAG_GET_WORD : Nat := 131

/-- `jtag_put_halfword`. -/
def JTAG_PUT_HALFWORD : Nat := 145

/-- `jtag_put_word`. -/
def JTAG_PUT_WORD : Nat := 155

/-- `handle_exception`. -/
def HANDLE_EXCEPTION : Nat := 169

/-- `_get_selection`. -/
def GET_SELECTION : Nat := 179

/-- `_continue`. -/
def CONTINUE : Nat := 185

/-- `get_version`. -/
def GET_VERSION : Nat := 196

/-- `put_registers_address`. -/
def PUT_REGISTERS_ADDRESS : Nat := 199

/-- `read_csr`. -/
def READ_CSR : Nat := 202

/-- `write_csr`. -/
def WRITE_CSR : Nat := 210

/-- `read_memory`. -/
def READ_MEMORY : Nat := 218

/-- `_read_mem`. -/
def READ_MEM : Nat := 222

/-- `_read_end`. -/
def READ_END : Nat := 228

/-- `write_memory`. -/
def WRITE_MEMORY : Nat := 229

/-- `_write_mem`. -/
def WRITE_MEM : Nat := 233

/-- `_write_end`. -/
def WRITE_END : Nat := 239

/-- `store_halfword`. -/
def STORE_HALFWORD : Nat := 240

/-- `store_word`. -/
def STORE_WORD : Nat := 245

/-- `load_halfword`. -/
def LOAD_HALFWORD : Nat := 250

/-- `load_word`. -/
def LOAD_WORD : Nat := 254

/-- `_T_func`. -/
def T_FUNC : Nat := 258

/-- `_T_csr_read`. -/
def T_CSR_READ : Nat := 269

/-- `_T_csr_write`. -/
def T_CSR_WRITE : Nat := 271

/-- `hi()` of a label. -/
def hi (k : Nat) : BitVec 16 := (label k).extractLsb' 16 16

/-- `lo()` of a label. -/
def lo (k : Nat) : BitVec 16 := (label k).extractLsb' 0 16

end Labels

namespace Text

/-- `jtag_get_byte`. -/
def jtagGetByte : List Op :=
  [mvhi 2 0x6000,
    lw 1 2 0x2000,
    .bne 1 0 (label JTAG_GET_BYTE),
    sw 2 0x2004 0,
    -- `jtag_get_byte1`
    lw 1 2 0x2000,
    .be 1 0 (label JTAG_GET_BYTE1),
    sw 2 0x2004 1,
    .base (.andi 1 1 0xff),
    ret]

/-- `jtag_put_byte`. -/
def jtagPutByte : List Op :=
  [mvhi 2 0x6000,
    sw 2 0x2008 0,
    lw 2 2 0x200c,
    .bne 2 0 (label JTAG_PUT_BYTE),
    mvhi 2 0x6000,
    .base (.andi 1 1 0xff),
    .base (.ori 1 1 0x100),
    sw 2 0x2008 1,
    -- `jtag_put_byte1`
    mvhi 2 0x6000,
    lw 2 2 0x200c,
    .be 2 0 (label JTAG_PUT_BYTE1),
    ret]

/-- `jtag_get_halfword`. The result is loaded by `lbu`. -/
def jtagGetHalfword : List Op :=
  [addi SP SP (-8),
    sw SP 4 RA_REG,
    calli JTAG_GET_BYTE,
    .sb SP 9 1,
    calli JTAG_GET_BYTE,
    .sb SP 8 1,
    .lbu 1 SP 8,
    lw RA_REG SP 4,
    addi SP SP 8,
    ret]

/-- `jtag_get_word`. -/
def jtagGetWord : List Op :=
  [addi SP SP (-8),
    sw SP 4 RA_REG,
    calli JTAG_GET_BYTE,
    .sb SP 11 1,
    calli JTAG_GET_BYTE,
    .sb SP 10 1,
    calli JTAG_GET_BYTE,
    .sb SP 9 1,
    calli JTAG_GET_BYTE,
    .sb SP 8 1,
    lw 1 SP 8,
    lw RA_REG SP 4,
    addi SP SP 8,
    ret]

/-- `jtag_put_halfword`. -/
def jtagPutHalfword : List Op :=
  [addi SP SP (-8),
    sw SP 4 RA_REG,
    .sh SP 8 1,
    .lbu 1 SP 9,
    calli JTAG_PUT_BYTE,
    .lbu 1 SP 8,
    calli JTAG_PUT_BYTE,
    lw RA_REG SP 4,
    addi SP SP 8,
    ret]

/-- `jtag_put_word`. -/
def jtagPutWord : List Op :=
  [addi SP SP (-8),
    sw SP 4 RA_REG,
    sw SP 8 1,
    .lbu 1 SP 11,
    calli JTAG_PUT_BYTE,
    .lbu 1 SP 10,
    calli JTAG_PUT_BYTE,
    .lbu 1 SP 9,
    calli JTAG_PUT_BYTE,
    .lbu 1 SP 8,
    calli JTAG_PUT_BYTE,
    lw RA_REG SP 4,
    addi SP SP 8,
    ret]

/-- `handle_exception`, up to the dispatch of a command. -/
def handleException : List Op :=
  [addi SP SP (-4),
    sw SP 4 RA_REG,
    mvhi 23 (hi T_CSR_WRITE),
    .base (.ori 23 23 (lo T_CSR_WRITE)),
    mvhi 24 (hi T_CSR_READ),
    .base (.ori 24 24 (lo T_CSR_READ)),
    mvhi 25 (hi T_FUNC),
    .base (.ori 25 25 (lo T_FUNC)),
    mvi 1 0x54,
    calli JTAG_PUT_BYTE,
    -- `_get_selection`
    calli JTAG_GET_BYTE,
    mvi 2 10,
    .bg 1 2 (label GET_SELECTION),
    .sli 1 1 2,
    .add 1 1 25,
    .base (.b 1)]

/-- `read_memory`. -/
def readMemory : List Op :=
  [calli JTAG_GET_WORD,
    mv 11 1,
    calli JTAG_GET_WORD,
    mv 12 1,
    -- `_read_mem`
    .be 12 0 (label READ_END),
    .lbu 1 11 0,
    calli JTAG_PUT_BYTE,
    addi 11 11 1,
    addi 12 12 (-1),
    bi READ_MEM,
    -- `_read_end`
    bi GET_SELECTION]

/-- `write_memory`. -/
def writeMemory : List Op :=
  [calli JTAG_GET_WORD,
    mv 11 1,
    calli JTAG_GET_WORD,
    mv 12 1,
    -- `_write_mem`
    .be 12 0 (label WRITE_END),
    calli JTAG_GET_BYTE,
    .sb 11 0 1,
    addi 11 11 1,
    addi 12 12 (-1),
    bi WRITE_MEM,
    -- `_write_end`
    bi GET_SELECTION]

/-- `store_halfword`. -/
def storeHalfword : List Op :=
  [calli JTAG_GET_WORD,
    mv 11 1,
    calli JTAG_GET_HALFWORD,
    .sh 11 0 1,
    bi GET_SELECTION]

/-- `store_word`. -/
def storeWord : List Op :=
  [calli JTAG_GET_WORD,
    mv 11 1,
    calli JTAG_GET_WORD,
    sw 11 0 1,
    bi GET_SELECTION]

/-- `load_halfword`. -/
def loadHalfword : List Op :=
  [calli JTAG_GET_WORD,
    .lhu 1 1 0,
    calli JTAG_PUT_HALFWORD,
    bi GET_SELECTION]

/-- `load_word`. -/
def loadWord : List Op :=
  [calli JTAG_GET_WORD,
    lw 1 1 0,
    calli JTAG_PUT_WORD,
    bi GET_SELECTION]

/-- `_T_func`: where the commands are, by their numbers. -/
def tFunc : List Op :=
  [GET_VERSION, PUT_REGISTERS_ADDRESS, READ_CSR, WRITE_CSR, READ_MEMORY, WRITE_MEMORY,
    STORE_HALFWORD, STORE_WORD, LOAD_HALFWORD, LOAD_WORD, CONTINUE].map bi

/-- The routines, each with the number of its first instruction. -/
def routines : List (Nat × List Op) :=
  [(JTAG_GET_BYTE, jtagGetByte), (JTAG_PUT_BYTE, jtagPutByte),
    (JTAG_GET_HALFWORD, jtagGetHalfword), (JTAG_GET_WORD, jtagGetWord),
    (JTAG_PUT_HALFWORD, jtagPutHalfword), (JTAG_PUT_WORD, jtagPutWord),
    (HANDLE_EXCEPTION, handleException), (READ_MEMORY, readMemory),
    (WRITE_MEMORY, writeMemory), (STORE_HALFWORD, storeHalfword), (STORE_WORD, storeWord),
    (LOAD_HALFWORD, loadHalfword), (LOAD_WORD, loadWord), (T_FUNC, tFunc)]

end Text

/-- The instruction with a number. -/
def instr (k : Nat) : Option Op :=
  Text.routines.findSome? fun (first, ops) => if first ≤ k then ops[k - first]? else none

/-- The instruction at an address. -/
def fetch (a : Word) : Option Op := instr ((a - ram).toNat / 4)

/-- One step of the monitor. -/
def next (s : State) : Option State := (fetch s.cpu.pc).bind s.exec

/-- Runs of the monitor. -/
def Runs : State → State → Prop := Relation.ReflTransGen fun s s' => next s = some s'

/-- The instruction is followed by the next one. -/
def Op.Straight : Op → Prop
  | .base i => i.Straight
  | .be .. | .bne .. | .bg .. => False
  | _ => True

instance : DecidablePred Op.Straight := fun op =>
  match op with
  | .base i => inferInstanceAs (Decidable i.Straight)
  | .be .. | .bne .. | .bg .. => .isFalse id
  | .add .. | .sli .. | .lbu .. | .lhu .. | .sb .. | .sh .. => .isTrue trivial

/-- The state after instructions that follow each other. -/
def State.block : List Op → State → Option State
  | [], s => some s
  | op :: ops, s => (s.exec op).bind (block ops)

section Runs

variable {s s' f : State} {k : Nat} {op : Op} {ops : List Op}

/-- The instruction at a label. -/
theorem fetch_label (hk : k < 512) : fetch (label k) = instr k := by
  rw [fetch, label, Lm32.after_sub ram hk]

/-- The next label. -/
theorem label_succ (k : Nat) : label k + 4 = label (k + 1) := Lm32.after_add ram k 1

/-- A label is the target of a branch as it is. -/
theorem label_aligned : ∀ k < size, label k &&& ~~~3 = label k := by
  decide +kernel

/-- One instruction. -/
theorem Runs.instr (hpc : s.cpu.pc = label k) (hi : instr k = some op) (hk : k < size)
    (hexec : s.exec op = some f) : Runs s f := by
  refine .single ?_
  rw [next, hpc, fetch_label (Nat.lt_trans hk (by decide)), hi]
  exact hexec

/-- A load from memory is followed by the next instruction. -/
theorem State.load_pc {a : Word} {n : Nat} {x : Reg} {value : Word}
    (h : s.load a n x value = some f) : f.cpu.pc = s.cpu.pc + 4 := by
  rw [load] at h
  split_ifs at h
  cases h
  rfl

/-- A store to memory is followed by the next instruction. -/
theorem State.store_pc {a : Word} {bytes : List Byte} (h : s.store a bytes = some f) :
    f.cpu.pc = s.cpu.pc + 4 := by
  rw [store] at h
  split_ifs at h
  cases h
  rfl

/-- So is a `lw` of any kind. -/
theorem State.lw_pc {x y : Reg} {offset : BitVec 16} (h : s.lw x y offset = some f) :
    f.cpu.pc = s.cpu.pc + 4 := by
  rw [State.lw] at h
  split_ifs at h
  · cases hpolls : s.polls with
    | nil =>
        rw [hpolls] at h
        cases h
    | cons value polls =>
        rw [hpolls] at h
        cases h
        rfl
  · exact load_pc h

/-- So is a `sw` of any kind. -/
theorem State.sw_pc {x y : Reg} {offset : BitVec 16} (h : s.sw y offset x = some f) :
    f.cpu.pc = s.cpu.pc + 4 := by
  simp only [State.sw] at h
  split_ifs at h
  · cases h
    rfl
  · cases h
    rfl
  · cases h
    rfl
  · exact store_pc h

/-- A straight instruction is followed by the next one. -/
theorem Op.Straight.pc (hop : op.Straight) (h : s.exec op = some f) :
    f.cpu.pc = s.cpu.pc + 4 := by
  cases op with
  | base i =>
      cases i with
      | lw x y offset => exact State.lw_pc h
      | sw y offset x => exact State.sw_pc h
      | calli target => cases hop
      | bi target => cases hop
      | b x => cases hop
      | _ =>
          cases h
          rfl
  | add x y z =>
      cases h
      rfl
  | sli x y n =>
      cases h
      rfl
  | lbu x y offset => exact State.load_pc h
  | lhu x y offset => exact State.load_pc h
  | sb y offset x => exact State.store_pc h
  | sh y offset x => exact State.store_pc h
  | be x y target => cases hop
  | bne x y target => cases hop
  | bg x y target => cases hop

/-- A straight piece of code runs through. -/
theorem Runs.block (hpc : s.cpu.pc = label k) (hk : k + ops.length ≤ size)
    (htext : ∀ j < ops.length, Monitor.instr (k + j) = ops[j]?) (hops : ∀ op ∈ ops, op.Straight)
    (hblock : s.block ops = some f) : Runs s f ∧ f.cpu.pc = label (k + ops.length) := by
  induction ops generalizing s k with
  | nil =>
      cases hblock
      exact ⟨.refl, hpc⟩
  | cons op ops ih =>
      obtain ⟨s', hexec, hrest⟩ := Option.bind_eq_some_iff.1 hblock
      rw [List.length_cons] at hk
      have hpc' : s'.cpu.pc = label (k + 1) := by
        rw [(hops op List.mem_cons_self).pc hexec, hpc, label_succ]
      have hfirst := Runs.instr hpc (htext 0 (Nat.succ_pos _)) (by omega) hexec
      have htext' : ∀ j < ops.length, Monitor.instr (k + 1 + j) = ops[j]? := by
        intro j hj
        rw [Nat.add_assoc, Nat.add_comm 1]
        exact htext (j + 1) (Nat.succ_lt_succ hj)
      obtain ⟨hruns, hend⟩ := ih hpc' (by omega) htext'
        (fun op hop => hops op (List.mem_cons_of_mem _ hop)) hrest
      refine ⟨hfirst.trans hruns, ?_⟩
      rw [hend, List.length_cons, Nat.add_right_comm, Nat.add_assoc]

end Runs

end Soc.Monitor
