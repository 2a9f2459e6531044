import Soc.Lm32.Bytes

/-!
# How instructions are encoded

The three formats of the LM32 and the instructions of programs in them. Branches are relative, so a
word depends on the address it stands at, and a target has to be in reach.
-/

namespace Soc.Lm32

section Formats

variable (op : BitVec 6) (a b x : Reg) (imm : BitVec 16) (offset : BitVec 26)

/-- An instruction with an immediate value. -/
def formatI : Word := op ++ a ++ b ++ imm

/-- An instruction on registers. -/
def formatR : Word := formatI op a b (x ++ 0#11)

/-- A jump. -/
def formatJ : Word := op ++ offset

@[simp] theorem kind_formatI : kind (formatI op a b imm) = Kind.ofOpcode op := by
  rw [kind, formatI, BitVec.extractLsb'_append_eq_of_le (by decide),
    BitVec.extractLsb'_append_eq_of_le (by decide)]
  exact congrArg Kind.ofOpcode BitVec.extractLsb'_append_eq_left

@[simp] theorem reg0_formatI : reg0 (formatI op a b imm) = a := by
  rw [reg0, formatI, BitVec.extractLsb'_append_eq_of_le (by decide),
    BitVec.extractLsb'_append_eq_of_le (by decide)]
  exact BitVec.extractLsb'_append_eq_right

@[simp] theorem reg1_formatI : reg1 (formatI op a b imm) = b := by
  rw [reg1, formatI, BitVec.extractLsb'_append_eq_of_le (by decide)]
  exact BitVec.extractLsb'_append_eq_right

@[simp] theorem imm16_formatI : imm16 (formatI op a b imm) = imm :=
  BitVec.extractLsb'_append_eq_right

@[simp] theorem kind_formatR : kind (formatR op a b x) = Kind.ofOpcode op := kind_formatI ..

@[simp] theorem reg0_formatR : reg0 (formatR op a b x) = a := reg0_formatI ..

@[simp] theorem reg1_formatR : reg1 (formatR op a b x) = b := reg1_formatI ..

@[simp] theorem reg2_formatR : reg2 (formatR op a b x) = x := by
  rw [reg2, formatR, formatI]
  have hlow : (op ++ a ++ b ++ (x ++ 0#11)).extractLsb' 11 5 = (x ++ 0#11).extractLsb' 11 5 :=
    BitVec.extractLsb'_append_eq_of_add_le (by decide)
  exact hlow.trans BitVec.extractLsb'_append_eq_left

@[simp] theorem kind_formatJ : kind (formatJ op offset) = Kind.ofOpcode op :=
  congrArg Kind.ofOpcode BitVec.extractLsb'_append_eq_left

@[simp] theorem imm26_formatJ : imm26 (formatJ op offset) = offset :=
  BitVec.extractLsb'_append_eq_right

end Formats

section Targets

/-- The offset of a branch, in words. -/
def offset (n : Nat) (pc target : Word) : BitVec n := ((target - pc).extractLsb' 2 30).setWidth n

/-- The target is the address of an instruction and `n` bits of offset are enough for it. -/
def InReach (n : Nat) (pc target : Word) : Prop :=
  target.extractLsb' 0 2 = 0 ∧
    (offset n pc target).signExtend 30 = (target - pc).extractLsb' 2 30

instance (n : Nat) (pc target : Word) : Decidable (InReach n pc target) :=
  inferInstanceAs (Decidable (_ ∧ _))

variable {n : Nat} {pc : Pc} {target : Word}

/-- The distance of two instructions. -/
theorem sub_address (a b : BitVec 30) : (a ++ 0#2) - (b ++ 0#2) = (a - b) ++ 0#2 := by
  apply BitVec.eq_of_toNat_eq
  have ha := a.isLt
  have hb := b.isLt
  rw [BitVec.toNat_sub, address_toNat, address_toNat, address_toNat, BitVec.toNat_sub]
  change (4294967296 - (4 * b.toNat + 0) + (4 * a.toNat + 0)) % 4294967296 =
    4 * ((1073741824 - b.toNat + a.toNat) % 1073741824) + 0
  omega

/-- A branch goes to its target. -/
theorem InReach.target_eq (h : InReach n (pc ++ 0#2) target) :
    target = (pc + (offset n (pc ++ 0#2) target).signExtend 30) ++ 0#2 := by
  obtain ⟨t, l, rfl⟩ := split_address target
  obtain ⟨hlow, hreach⟩ := h
  rw [extract_low] at hlow
  subst hlow
  rw [hreach]
  change t ++ 0#2 = (pc + ((t ++ 0#2) - (pc ++ 0#2)).extractLsb' 2 30) ++ 0#2
  rw [sub_address, extract_high, BitVec.add_comm, BitVec.sub_add_cancel]

/-- The address of the next instruction. -/
theorem address_next (pc : Pc) : (pc ++ 0#2 : Word) + 4 = (pc + 1) ++ 0#2 := by
  apply BitVec.eq_of_toNat_eq
  have hpc := pc.isLt
  rw [BitVec.toNat_add, address_toNat, address_toNat, BitVec.toNat_add]
  change (4 * pc.toNat + 0 + 4) % 4294967296 = 4 * ((pc.toNat + 1) % 1073741824) + 0
  omega

/-- The address a register branches to. -/
theorem clear_low (v : Word) : v &&& ~~~3 = v.extractLsb' 2 30 ++ 0#2 := by
  apply BitVec.eq_of_getLsbD_eq
  intro i hi
  have hmask : (~~~3 : Word).getLsbD i = decide (2 ≤ i) := by
    revert i
    decide
  rw [BitVec.getLsbD_and, hmask, BitVec.getLsbD_append]
  by_cases hlow : i < 2
  · rw [if_pos hlow, decide_eq_false (by omega), Bool.and_false, BitVec.getLsbD_zero]
  · rw [if_neg hlow, decide_eq_true (by omega), Bool.and_true, BitVec.getLsbD_extractLsb',
      decide_eq_true (by omega), Bool.true_and, show 2 + (i - 2) = i by omega]

end Targets

section Instructions

/-- The number of a CSR. -/
def Csr.code (csr : Csr) : BitVec 5 :=
  match csr with
  | .IE => 0x0
  | .IM => 0x1
  | .IP => 0x2
  | .EBA => 0x7
  | .DEBA => 0x9

/-- The word of an instruction at an address. -/
def Instr.encode (i : Instr) (pc : Word) : Word :=
  match i with
  | .xor x y z => formatR 0b100110 y z x
  | .or x y z => formatR 0b101110 y z x
  | .ori x y imm => formatI 0b001110 y x imm
  | .orhi x y imm => formatI 0b011110 y x imm
  | .andi x y imm => formatI 0b001000 y x imm
  | .addi x y imm => formatI 0b001101 y x imm
  | .srui x y n => formatI 0b000000 y x (n.setWidth 16)
  | .lw x y offset => formatI 0b001010 y x offset
  | .sw y offset x => formatI 0b010110 y x offset
  | .rcsr x csr => formatR 0b100100 csr.code 0 x
  | .wcsr csr x => formatR 0b110100 csr.code x 0
  | .calli target => formatJ 0b111110 (offset 26 pc target)
  | .bi target => formatJ 0b111000 (offset 26 pc target)
  | .b x => formatR 0b110000 x 0 0

/-- The target of a jump is in reach. -/
def Instr.Reaches (i : Instr) (pc : Word) : Prop :=
  match i with
  | .calli target | .bi target => InReach 26 pc target
  | _ => True

instance (i : Instr) (pc : Word) : Decidable (i.Reaches pc) := by
  cases i <;> unfold Instr.Reaches <;> infer_instance

/-- Words are at addresses that are multiples of 4. -/
def Instr.Aligned (i : Instr) (c : Cpu) : Prop :=
  match i with
  | .lw _ y offset | .sw y offset _ => Size.word.Aligned (c.address y offset)
  | _ => True

/-- What comes from outside for an instruction: the value of a CSR, or the word a load is about. -/
def Instr.Given (i : Instr) (c : Cpu) (csr data : Word) : Prop :=
  match i with
  | .rcsr _ r => csr = c.csrs.read r
  | .lw _ y offset => data = wordAt c.mem (c.address y offset)
  | _ => True

/-- An outcome is that of a step of a program. -/
structure Outcome.Carries (o : Outcome) (c c' : Cpu) : Prop where
  pc : c'.pc = o.pc ++ 0#2
  regs : c'.regs = o.regs c.regs
  mem : c'.mem = o.access.elim c.mem fun t => t.apply c.mem

variable {c : Cpu} {pc : Pc} {csr data : Word}

/-- A result that is written to a register. -/
theorem carries_put (hpc : c.pc = pc ++ 0#2) (x : Reg) (value : Word) :
    (Outcome.mk (some (x, value)) (pc + 1) none).Carries c (c.put x value) where
  pc := by rw [Cpu.put, hpc, address_next]
  regs := rfl
  mem := rfl

/-- The distance of a shift. -/
theorem shift_distance (n : BitVec 5) :
    ((n.setWidth 16).signExtend 32).extractLsb' 0 5 = n := by
  revert n
  decide

/-- The value of an immediate. -/
def Mode.value (mode : Mode) (imm : BitVec 16) : Word :=
  match mode with
  | .unsigned => imm.setWidth 32
  | .high => imm ++ 0#16
  | _ => imm.signExtend 32

variable {op : BitVec 6} {f : Alu} {mode : Mode} {a b x : Reg} {imm : BitVec 16}
  {regs : Reg → Word}

/-- An operation on two registers. -/
theorem execute_formatR (h : Kind.ofOpcode op = .alu f .reg) :
    execute (formatR op a b x) pc regs csr data =
      ⟨some (x, f.eval (regs a) (regs b)), pc + 1, none⟩ := by
  rw [execute, kind_formatR, h, reg0_formatR]
  simp [Mode.dest, Mode.operand]

/-- An operation on a register and an immediate value. -/
theorem execute_formatI (h : Kind.ofOpcode op = .alu f mode) (hmode : mode ≠ .reg) :
    execute (formatI op a x imm) pc regs csr data =
      ⟨some (x, f.eval (regs a) (mode.value imm)), pc + 1, none⟩ := by
  rw [execute, kind_formatI, h, reg0_formatI]
  cases mode with
  | reg => exact absurd rfl hmode
  | signed => simp [Mode.dest, Mode.operand, Mode.value]
  | unsigned => simp [Mode.dest, Mode.operand, Mode.value]
  | high => simp [Mode.dest, Mode.operand, Mode.value]

/-- A load. -/
theorem execute_load (size : Size) (signed : Bool) (h : Kind.ofOpcode op = .load size signed) :
    execute (formatI op a x imm) pc regs csr data =
      ⟨some (x, size.part signed (regs a + imm.signExtend 32) data), pc + 1,
        some ⟨regs a + imm.signExtend 32, size.lanes (regs a + imm.signExtend 32), false,
          data⟩⟩ := by
  rw [execute, kind_formatI, h, reg0_formatI, reg1_formatI, imm16_formatI]

/-- A store. -/
theorem execute_store (size : Size) (h : Kind.ofOpcode op = .store size) :
    execute (formatI op a x imm) pc regs csr data =
      ⟨none, pc + 1,
        some ⟨regs a + imm.signExtend 32, size.lanes (regs a + imm.signExtend 32), true,
          size.spread (regs x)⟩⟩ := by
  rw [execute, kind_formatI, h, reg0_formatI, reg1_formatI, imm16_formatI]

/-- A conditional branch. -/
theorem execute_branch (cond : Cond) (h : Kind.ofOpcode op = .branch cond) :
    execute (formatI op a b imm) pc regs csr data =
      ⟨none, if cond.holds (regs a) (regs b) then pc + imm.signExtend 30 else pc + 1, none⟩ := by
  rw [execute, kind_formatI, h, reg0_formatI, reg1_formatI, imm16_formatI]

/-- The instruction set does with the word of an instruction what the program means by it. -/
theorem Instr.execute_encode (i : Instr) (hpc : c.pc = pc ++ 0#2) (hreach : i.Reaches c.pc)
    (haligned : i.Aligned c) (hgiven : i.Given c csr data) :
    (execute (i.encode c.pc) pc c.regs csr data).Carries c (i.exec c) := by
  cases i with
  | xor x y z =>
      rw [Instr.encode, execute_formatR (f := .xor) rfl]
      exact carries_put hpc x _
  | or x y z =>
      rw [Instr.encode, execute_formatR (f := .or) rfl]
      exact carries_put hpc x _
  | ori x y imm =>
      rw [Instr.encode, execute_formatI (f := .or) rfl (by decide)]
      exact carries_put hpc x _
  | orhi x y imm =>
      rw [Instr.encode, execute_formatI (f := .or) rfl (by decide)]
      exact carries_put hpc x _
  | andi x y imm =>
      rw [Instr.encode, execute_formatI (f := .and) rfl (by decide)]
      exact carries_put hpc x _
  | addi x y imm =>
      rw [Instr.encode, execute_formatI (f := .add) rfl (by decide)]
      exact carries_put hpc x _
  | srui x y n =>
      rw [Instr.encode, execute_formatI (f := .sru) rfl (by decide)]
      have hdistance : Alu.sru.eval (c.regs y) (Mode.signed.value (n.setWidth 16)) =
          c.regs y >>> n := congrArg (c.regs y >>> ·) (shift_distance n)
      rw [hdistance]
      exact carries_put hpc x _
  | lw x y offset =>
      obtain rfl := hgiven
      rw [Instr.encode, execute_load .word false rfl]
      change Size.word.Aligned (c.address y offset) at haligned
      have hvalue := part_wordAt haligned false c.mem
      rw [Cpu.address] at hvalue
      rw [Cpu.address, hvalue]
      exact ⟨(carries_put hpc x (Size.word.value false c.mem _)).pc, rfl, rfl⟩
  | sw y offset x =>
      rw [Instr.encode, execute_store .word rfl]
      change Size.word.Aligned (c.address y offset) at haligned
      refine ⟨(carries_put hpc x 0).pc, rfl, ?_⟩
      exact (apply_store haligned c.mem (c.regs x)).symm
  | rcsr x r =>
      obtain rfl := hgiven
      rw [Instr.encode, execute, kind_formatR, reg2_formatR]
      exact carries_put hpc x _
  | wcsr r x =>
      rw [Instr.encode, execute, kind_formatR]
      exact ⟨(carries_put hpc x 0).pc, rfl, rfl⟩
  | calli target =>
      rw [Instr.encode, execute, kind_formatJ, imm26_formatJ]
      rw [Instr.Reaches, hpc] at hreach
      refine ⟨?_, ?_, rfl⟩
      · rw [hpc]
        exact hreach.target_eq
      · change Function.update c.regs RA_REG (c.pc + 4) =
          Function.update c.regs RA_REG ((pc + 1) ++ 0#2)
        rw [hpc, address_next]
  | bi target =>
      rw [Instr.encode, execute, kind_formatJ, imm26_formatJ]
      rw [Instr.Reaches, hpc] at hreach
      refine ⟨?_, rfl, rfl⟩
      rw [hpc]
      exact hreach.target_eq
  | b x =>
      rw [Instr.encode, execute, kind_formatR, reg0_formatR]
      exact ⟨clear_low (c.regs x), rfl, rfl⟩

/-- The instruction is about memory. -/
def Instr.Accesses (i : Instr) : Prop :=
  match i with
  | .lw .. | .sw .. => True
  | _ => False

/-- The other instructions have no transfer. -/
theorem Instr.execute_encode_access (i : Instr) (h : ¬ i.Accesses) (a : Word) :
    (execute (i.encode a) pc regs csr data).access = none := by
  cases i with
  | xor x y z => rw [Instr.encode, execute_formatR (f := .xor) rfl]
  | or x y z => rw [Instr.encode, execute_formatR (f := .or) rfl]
  | ori x y imm => rw [Instr.encode, execute_formatI (f := .or) rfl (by decide)]
  | orhi x y imm => rw [Instr.encode, execute_formatI (f := .or) rfl (by decide)]
  | andi x y imm => rw [Instr.encode, execute_formatI (f := .and) rfl (by decide)]
  | addi x y imm => rw [Instr.encode, execute_formatI (f := .add) rfl (by decide)]
  | srui x y n => rw [Instr.encode, execute_formatI (f := .sru) rfl (by decide)]
  | lw x y offset => exact absurd trivial h
  | sw y offset x => exact absurd trivial h
  | rcsr x r =>
      rw [Instr.encode, execute, kind_formatR]
      rfl
  | wcsr r x =>
      rw [Instr.encode, execute, kind_formatR]
      rfl
  | calli target =>
      rw [Instr.encode, execute, kind_formatJ]
      rfl
  | bi target =>
      rw [Instr.encode, execute, kind_formatJ]
      rfl
  | b x =>
      rw [Instr.encode, execute, kind_formatR]
      rfl

end Instructions

end Soc.Lm32
