import Soc.Lm32.Isa

/-!
# The instruction set of the LM32

All instructions, by opcode, and what one of them does to the program counter, the registers and
the data bus. This is the architecture a program is written for: nothing here knows of a pipeline.
A word that is read from the bus or from a CSR is an argument. The program counter counts words.
-/

namespace Soc.Lm32

/-- The index of an instruction in memory. -/
abbrev Pc := BitVec 30

/-- The comparisons of branches and of compare instructions. -/
inductive Cond where
  | e
  | ne
  | g
  | ge
  | gu
  | geu
  deriving DecidableEq

/-- The comparison of two words. -/
def Cond.holds (c : Cond) (a b : Word) : Bool :=
  match c with
  | .e => a == b
  | .ne => a != b
  | .g => b.slt a
  | .ge => b.sle a
  | .gu => b.ult a
  | .geu => b.ule a

/-- The operations on two words. -/
inductive Alu where
  | add
  | sub
  | mul
  | divu
  | modu
  | and
  | or
  | xor
  | nor
  | xnor
  | sl
  | sr
  | sru
  | sextb
  | sexth
  | cmp (c : Cond)
  deriving DecidableEq

/-- The quotient. For a divisor of 0, which raises an exception, it has all bits set. -/
def quotient (n d : Word) : Word := if d = 0 then BitVec.allOnes 32 else n / d

/-- The remainder. For a divisor of 0 it is the dividend. -/
def remainder (n d : Word) : Word := n % d

/-- The result of an operation. Shifts look at five bits of the distance. -/
def Alu.eval (op : Alu) (a b : Word) : Word :=
  match op with
  | .add => a + b
  | .sub => a - b
  | .mul => a * b
  | .divu => quotient a b
  | .modu => remainder a b
  | .and => a &&& b
  | .or => a ||| b
  | .xor => a ^^^ b
  | .nor => ~~~(a ||| b)
  | .xnor => ~~~(a ^^^ b)
  | .sl => a <<< b.extractLsb' 0 5
  | .sr => a.sshiftRight' (b.extractLsb' 0 5)
  | .sru => a >>> b.extractLsb' 0 5
  | .sextb => (a.extractLsb' 0 8).signExtend 32
  | .sexth => (a.extractLsb' 0 16).signExtend 32
  | .cmp c => (BitVec.ofBool (c.holds a b)).setWidth 32

/-- Where the second operand comes from: a register, or the immediate value extended with its sign,
extended with zeros or moved to the upper half. -/
inductive Mode where
  | reg
  | signed
  | unsigned
  | high
  deriving DecidableEq

/-- The sizes of loads and stores. -/
inductive Size where
  | byte
  | hword
  | word
  deriving DecidableEq

/-- The kinds of instructions. -/
inductive Kind where
  | alu (op : Alu) (mode : Mode)
  | load (size : Size) (signed : Bool)
  | store (size : Size)
  | branch (c : Cond)
  | b
  | bi
  | call
  | calli
  | raise
  | rcsr
  | wcsr
  deriving DecidableEq

/-- The opcodes. The four that are not assigned add two registers. -/
def Kind.ofOpcode (op : BitVec 6) : Kind :=
  match op with
  | 0b000000 => .alu .sru .signed
  | 0b000001 => .alu .nor .unsigned
  | 0b000010 => .alu .mul .signed
  | 0b000011 => .store .hword
  | 0b000100 => .load .byte true
  | 0b000101 => .alu .sr .signed
  | 0b000110 => .alu .xor .unsigned
  | 0b000111 => .load .hword true
  | 0b001000 => .alu .and .unsigned
  | 0b001001 => .alu .xnor .unsigned
  | 0b001010 => .load .word false
  | 0b001011 => .load .hword false
  | 0b001100 => .store .byte
  | 0b001101 => .alu .add .signed
  | 0b001110 => .alu .or .unsigned
  | 0b001111 => .alu .sl .signed
  | 0b010000 => .load .byte false
  | 0b010001 => .branch .e
  | 0b010010 => .branch .g
  | 0b010011 => .branch .ge
  | 0b010100 => .branch .geu
  | 0b010101 => .branch .gu
  | 0b010110 => .store .word
  | 0b010111 => .branch .ne
  | 0b011000 => .alu .and .high
  | 0b011001 => .alu (.cmp .e) .signed
  | 0b011010 => .alu (.cmp .g) .signed
  | 0b011011 => .alu (.cmp .ge) .signed
  | 0b011100 => .alu (.cmp .geu) .unsigned
  | 0b011101 => .alu (.cmp .gu) .unsigned
  | 0b011110 => .alu .or .high
  | 0b011111 => .alu (.cmp .ne) .signed
  | 0b100000 => .alu .sru .reg
  | 0b100001 => .alu .nor .reg
  | 0b100010 => .alu .mul .reg
  | 0b100011 => .alu .divu .reg
  | 0b100100 => .rcsr
  | 0b100101 => .alu .sr .reg
  | 0b100110 => .alu .xor .reg
  | 0b101000 => .alu .and .reg
  | 0b101001 => .alu .xnor .reg
  | 0b101011 => .raise
  | 0b101100 => .alu .sextb .reg
  | 0b101101 => .alu .add .reg
  | 0b101110 => .alu .or .reg
  | 0b101111 => .alu .sl .reg
  | 0b110000 => .b
  | 0b110001 => .alu .modu .reg
  | 0b110010 => .alu .sub .reg
  | 0b110100 => .wcsr
  | 0b110110 => .call
  | 0b110111 => .alu .sexth .reg
  | 0b111000 => .bi
  | 0b111001 => .alu (.cmp .e) .reg
  | 0b111010 => .alu (.cmp .g) .reg
  | 0b111011 => .alu (.cmp .ge) .reg
  | 0b111100 => .alu (.cmp .geu) .reg
  | 0b111101 => .alu (.cmp .gu) .reg
  | 0b111110 => .calli
  | 0b111111 => .alu (.cmp .ne) .reg
  | _ => .alu .add .reg

section Fields

variable (w : Word)

/-- The kind of an instruction. -/
def kind : Kind := .ofOpcode (w.extractLsb' 26 6)

/-- The first register that is read, or the CSR. -/
def reg0 : Reg := w.extractLsb' 21 5

/-- The second register that is read, or the destination of an immediate instruction. -/
def reg1 : Reg := w.extractLsb' 16 5

/-- The destination of a register instruction. -/
def reg2 : Reg := w.extractLsb' 11 5

/-- The immediate value of an instruction. -/
def imm16 : BitVec 16 := w.extractLsb' 0 16

/-- The offset of `bi` and `calli`. -/
def imm26 : BitVec 26 := w.extractLsb' 0 26

/-- The value of a second operand. -/
def Mode.operand (mode : Mode) (regs : Reg → Word) : Word :=
  match mode with
  | .reg => regs (reg1 w)
  | .signed => (imm16 w).signExtend 32
  | .unsigned => (imm16 w).setWidth 32
  | .high => imm16 w ++ 0#16

/-- The destination of an operation. -/
def Mode.dest (mode : Mode) : Reg := if mode = .reg then reg2 w else reg1 w

end Fields

/-- The values of two bits. -/
theorem two_bits (low : BitVec 2) : low = 0b00 ∨ low = 0b01 ∨ low = 0b10 ∨ low = 0b11 := by
  revert low
  decide

/-- A transfer on the data bus: the address, the byte lanes and the word on them. -/
structure Access where
  adr : Word
  sel : BitVec 4
  we : Bool
  dat : Word
  deriving DecidableEq

namespace Size

/-- The byte lanes of an access. A word takes all lanes and a half-word one of the halves, whatever
the lower bits of the address are. -/
def lanes (size : Size) (adr : Word) : BitVec 4 :=
  match size with
  | .byte => 0b1000#4 >>> adr.extractLsb' 0 2
  | .hword => if adr.getLsbD 1 then 0b0011 else 0b1100
  | .word => 0b1111

/-- The word a store puts on the bus, with the datum in each lane it fits into. -/
def spread (size : Size) (value : Word) : Word :=
  match size with
  | .byte =>
      value.extractLsb' 0 8 ++ value.extractLsb' 0 8 ++ value.extractLsb' 0 8 ++
        value.extractLsb' 0 8
  | .hword => value.extractLsb' 0 16 ++ value.extractLsb' 0 16
  | .word => value

/-- The part of a word that a load is after. -/
def part (size : Size) (signed : Bool) (adr data : Word) : Word :=
  let extend {w : Nat} (v : BitVec w) : Word := if signed then v.signExtend 32 else v.setWidth 32
  match size with
  | .byte => extend (data.extractLsb' (8 * (3 - (adr.extractLsb' 0 2).toNat)) 8)
  | .hword => extend (data.extractLsb' (if adr.getLsbD 1 then 0 else 16) 16)
  | .word => data

end Size

/-- What an instruction does: the register it writes, the instruction that follows and the transfer
on the data bus. -/
structure Outcome where
  write : Option (Reg × Word)
  pc : Pc
  access : Option Access

/-- The outcome of the instruction `w` at `pc`. `csr` is the value of the CSR that is read and
`data` the word that is on the bus when a load is answered. -/
def execute (w : Word) (pc : Pc) (regs : Reg → Word) (csr data : Word) : Outcome :=
  let adr := regs (reg0 w) + (imm16 w).signExtend 32
  match kind w with
  | .alu op mode =>
      { write := some (mode.dest w, op.eval (regs (reg0 w)) (mode.operand w regs))
        pc := pc + 1
        access := none }
  | .load size signed =>
      { write := some (reg1 w, size.part signed adr data)
        pc := pc + 1
        access := some ⟨adr, size.lanes adr, false, data⟩ }
  | .store size =>
      { write := none
        pc := pc + 1
        access := some ⟨adr, size.lanes adr, true, size.spread (regs (reg1 w))⟩ }
  | .branch c =>
      { write := none
        pc :=
          if c.holds (regs (reg0 w)) (regs (reg1 w)) then pc + (imm16 w).signExtend 30 else pc + 1
        access := none }
  | .b => { write := none, pc := (regs (reg0 w)).extractLsb' 2 30, access := none }
  | .bi => { write := none, pc := pc + (imm26 w).signExtend 30, access := none }
  | .call =>
      { write := some (RA_REG, (pc + 1) ++ 0#2)
        pc := (regs (reg0 w)).extractLsb' 2 30
        access := none }
  | .calli =>
      { write := some (RA_REG, (pc + 1) ++ 0#2)
        pc := pc + (imm26 w).signExtend 30
        access := none }
  | .rcsr => { write := some (reg2 w, csr), pc := pc + 1, access := none }
  | .wcsr | .raise => { write := none, pc := pc + 1, access := none }

/-- The registers after an instruction. -/
def Outcome.regs (o : Outcome) (regs : Reg → Word) : Reg → Word :=
  match o.write with
  | none => regs
  | some (x, value) => Function.update regs x value

end Soc.Lm32
