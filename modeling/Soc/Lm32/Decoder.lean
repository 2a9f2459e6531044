import Soc.Lm32.Units

/-!
# The instruction decoder of the LM32

`lm32_decoder.v`. Most of its outputs depend on the opcode alone: they are the fields of `Control`.
`Decodes` says for each kind of instruction which of them matter and what they must be, and
`decodes_ofOpcode` checks all opcodes.
-/

namespace Soc.Lm32

/-- `LM32_D_RESULT_SEL_1_RNG`. -/
inductive DResultSel1 where
  | ZERO
  | REG_1
  | IMMEDIATE
  deriving DecidableEq

/-- The outputs of `lm32_decoder` that depend on the opcode alone. `dResultSel0` is set for
`LM32_D_RESULT_SEL_0_NEXT_PC`. The last six are wires of the decoder. -/
structure Control where
  dResultSel0 : Bool
  dResultSel1 : DResultSel1
  xResultSelCsr : Bool
  xResultSelMcArith : Bool
  xResultSelSext : Bool
  xResultSelLogic : Bool
  xResultSelAdd : Bool
  mResultSelCompare : Bool
  mResultSelShift : Bool
  wResultSelLoad : Bool
  wResultSelMul : Bool
  xBypassEnable : Bool
  mBypassEnable : Bool
  readEnable0 : Bool
  readEnable1 : Bool
  writeEnable : Bool
  load : Bool
  store : Bool
  size : BitVec 2
  signExtend : Bool
  adderOp : Bool
  logicOp : BitVec 4
  direction : Bool
  divide : Bool
  modulus : Bool
  branch : Bool
  branchReg : Bool
  condition : BitVec 3
  biConditional : Bool
  biUnconditional : Bool
  csrWriteEnable : Bool
  call : Bool
  opB : Bool
  opRaise : Bool
  register : Bool
  signExtendImmediate : Bool
  selectHighImmediate : Bool

/-- `lm32_decoder` on the opcode, `instruction[31:26]`. Opcodes of five bits are compared with
`LM32_OP_RNG`, the lower five. `register` is `instruction[31]`. -/
def control (opcode : BitVec 6) : Control :=
  let op := opcode.extractLsb' 0 5
  let register := opcode.getLsbD 5
  let opAdd := op == 0b01101
  let opAnd := op == 0b01000
  let opAndhi := opcode == 0b011000
  let opB := opcode == 0b110000
  let opBi := opcode == 0b111000
  let opBe := opcode == 0b010001
  let opBg := opcode == 0b010010
  let opBge := opcode == 0b010011
  let opBgeu := opcode == 0b010100
  let opBgu := opcode == 0b010101
  let opBne := opcode == 0b010111
  let opCall := opcode == 0b110110
  let opCalli := opcode == 0b111110
  let opCmpe := op == 0b11001
  let opCmpg := op == 0b11010
  let opCmpge := op == 0b11011
  let opCmpgeu := op == 0b11100
  let opCmpgu := op == 0b11101
  let opCmpne := op == 0b11111
  let opDivu := opcode == 0b100011
  let opLb := opcode == 0b000100
  let opLbu := opcode == 0b010000
  let opLh := opcode == 0b000111
  let opLhu := opcode == 0b001011
  let opLw := opcode == 0b001010
  let opModu := opcode == 0b110001
  let opMul := op == 0b00010
  let opNor := op == 0b00001
  let opOr := op == 0b01110
  let opOrhi := opcode == 0b011110
  let opRaise := opcode == 0b101011
  let opRcsr := opcode == 0b100100
  let opSb := opcode == 0b001100
  let opSextb := opcode == 0b101100
  let opSexth := opcode == 0b110111
  let opSh := opcode == 0b000011
  let opSl := op == 0b01111
  let opSr := op == 0b00101
  let opSru := op == 0b00000
  let opSub := opcode == 0b110010
  let opSw := opcode == 0b010110
  let opWcsr := opcode == 0b110100
  let opXnor := op == 0b01001
  let opXor := op == 0b00110
  let arith := opAdd || opSub
  let logical := opAnd || opAndhi || opNor || opOr || opOrhi || opXor || opXnor
  let cmp := opCmpe || opCmpg || opCmpge || opCmpgeu || opCmpgu || opCmpne
  let biConditional := opBe || opBg || opBge || opBgeu || opBgu || opBne
  let bra := opB || opBi || biConditional
  let call := opCall || opCalli
  let shift := opSl || opSr || opSru
  let sext := opSextb || opSexth
  let load := opLb || opLbu || opLh || opLhu || opLw
  let store := opSb || opSh || opSw
  let mcArith := opDivu || opModu
  let xBypassEnable := arith || logical || opDivu || opModu || sext || opRcsr
  { dResultSel0 := call
    dResultSel1 :=
      if call then .ZERO
      else if register = false && !bra then .IMMEDIATE
      else .REG_1
    xResultSelCsr := opRcsr
    xResultSelMcArith := !opRcsr && mcArith
    xResultSelSext := !opRcsr && !mcArith && sext
    xResultSelLogic := !opRcsr && !mcArith && !sext && logical
    xResultSelAdd := !opRcsr && !mcArith && !sext && !logical
    mResultSelCompare := cmp
    mResultSelShift := shift
    wResultSelLoad := load
    wResultSelMul := opMul
    xBypassEnable := xBypassEnable
    mBypassEnable := xBypassEnable || shift || cmp
    readEnable0 := !(opBi || opCalli)
    readEnable1 := !(opBi || opCalli || load)
    writeEnable := !(bra || opRaise || store || opWcsr)
    load := load
    store := store
    size := opcode.extractLsb' 0 2
    signExtend := opcode.getLsbD 2
    adderOp := opSub || opCmpe || opCmpg || opCmpge || opCmpgeu || opCmpgu || opCmpne || bra
    logicOp := opcode.extractLsb' 0 4
    direction := opcode.getLsbD 3
    divide := opDivu
    modulus := opModu
    branch := bra || call
    branchReg := opCall || opB
    condition := opcode.extractLsb' 0 3
    biConditional := biConditional
    biUnconditional := opBi
    csrWriteEnable := opWcsr
    call := call
    opB := opB
    opRaise := opRaise
    register := register
    signExtendImmediate := !(opAnd || opCmpgeu || opCmpgu || opNor || opOr || opXnor || opXor)
    selectHighImmediate := opAndhi || opOrhi }

/-- The outputs of `lm32_decoder`. -/
structure Decoded extends Control where
  readIdx0 : Reg
  readIdx1 : Reg
  writeIdx : Reg
  immediate : Word
  branchOffset : Pc
  breakOpcode : Bool
  scall : Bool
  eret : Bool
  bret : Bool

/-- `lm32_decoder`. -/
def decoder (instruction : Word) : Decoded :=
  let c := control (instruction.extractLsb' 26 6)
  let highImmediate := instruction.extractLsb' 0 16 ++ 0#16
  let extendedImmediate :=
    (if c.signExtendImmediate && instruction.getLsbD 15 then BitVec.allOnes 16 else 0) ++
      instruction.extractLsb' 0 16
  let callImmediate :=
    (if instruction.getLsbD 25 then BitVec.allOnes 6 else 0) ++ instruction.extractLsb' 0 26
  let branchImmediate :=
    (if instruction.getLsbD 15 then BitVec.allOnes 16 else 0) ++ instruction.extractLsb' 0 16
  { toControl := c
    readIdx0 := instruction.extractLsb' 21 5
    readIdx1 := instruction.extractLsb' 16 5
    writeIdx :=
      if c.call then 29
      else if c.register = false then instruction.extractLsb' 16 5
      else instruction.extractLsb' 11 5
    immediate := if c.selectHighImmediate then highImmediate else extendedImmediate
    branchOffset :=
      if c.register then callImmediate.extractLsb' 0 30 else branchImmediate.extractLsb' 0 30
    breakOpcode := c.opRaise && !instruction.getLsbD 2
    scall := c.opRaise && instruction.getLsbD 2
    eret := c.opB && instruction.extractLsb' 21 5 == 30
    bret := c.opB && instruction.extractLsb' 21 5 == 31 }

/-- The units a result can come from. -/
inductive Source where
  | adder
  | csr
  | sext
  | mcArith
  | logic
  | compare
  | shift
  | load
  | mul
  deriving DecidableEq

/-- The unit the result comes from, in the order of the multiplexers: the W stage decides first. -/
def Control.source (c : Control) : Source :=
  if c.wResultSelLoad then .load
  else if c.wResultSelMul then .mul
  else if c.mResultSelCompare then .compare
  else if c.mResultSelShift then .shift
  else if c.xResultSelAdd then .adder
  else if c.xResultSelCsr then .csr
  else if c.xResultSelSext then .sext
  else if c.xResultSelMcArith then .mcArith
  else .logic

/-- The code of a size. -/
def Size.code (size : Size) : BitVec 2 :=
  match size with
  | .byte => 0b00
  | .hword => 0b11
  | .word => 0b10

/-- The unit an operation is sent to, and what it is told. -/
def Alu.Selects (op : Alu) (c : Control) : Prop :=
  match op with
  | .add => c.source = .adder ∧ c.adderOp = false
  | .sub => c.source = .adder ∧ c.adderOp = true
  | .mul => c.source = .mul
  | .divu => c.source = .mcArith ∧ c.modulus = false
  | .modu => c.source = .mcArith ∧ c.modulus = true
  | .and => c.source = .logic ∧ c.logicOp = 0b1000
  | .or => c.source = .logic ∧ c.logicOp = 0b1110
  | .xor => c.source = .logic ∧ c.logicOp = 0b0110
  | .nor => c.source = .logic ∧ c.logicOp = 0b0001
  | .xnor => c.source = .logic ∧ c.logicOp = 0b1001
  | .sl => c.source = .shift ∧ c.direction = true
  | .sr => c.source = .shift ∧ c.direction = false ∧ c.signExtend = true
  | .sru => c.source = .shift ∧ c.direction = false ∧ c.signExtend = false
  | .sextb => c.source = .sext ∧ c.size = 0b00
  | .sexth => c.source = .sext ∧ c.size = 0b11
  | .cmp cond => c.source = .compare ∧ c.adderOp = true ∧ c.condition = cond.code

instance (op : Alu) (c : Control) : Decidable (op.Selects c) := by
  cases op <;> unfold Alu.Selects <;> infer_instance

/-- Where the second operand comes from, and how the immediate value is extended. -/
def Mode.Selects (mode : Mode) (c : Control) : Prop :=
  match mode with
  | .reg => c.dResultSel1 = .REG_1 ∧ c.register = true ∧ c.readEnable1 = true
  | .signed =>
      c.dResultSel1 = .IMMEDIATE ∧ c.register = false ∧ c.selectHighImmediate = false ∧
        c.signExtendImmediate = true
  | .unsigned =>
      c.dResultSel1 = .IMMEDIATE ∧ c.register = false ∧ c.selectHighImmediate = false ∧
        c.signExtendImmediate = false
  | .high => c.dResultSel1 = .IMMEDIATE ∧ c.register = false ∧ c.selectHighImmediate = true

instance (mode : Mode) (c : Control) : Decidable (mode.Selects c) := by
  cases mode <;> unfold Mode.Selects <;> infer_instance

/-- The address of a load or a store is the sum of a register and the immediate value. -/
def Size.Selects (size : Size) (c : Control) : Prop :=
  Mode.signed.Selects c ∧ c.dResultSel0 = false ∧ c.readEnable0 = true ∧
    c.xResultSelAdd = true ∧ c.adderOp = false ∧ c.mResultSelCompare = false ∧
    c.mResultSelShift = false ∧ c.size = size.code

instance (size : Size) (c : Control) : Decidable (size.Selects c) :=
  inferInstanceAs (Decidable (_ ∧ _))

/-- The address of the next instruction is the result. -/
def Control.Links (c : Control) : Prop :=
  c.source = .adder ∧ c.adderOp = false ∧ c.dResultSel0 = true ∧ c.dResultSel1 = .ZERO

instance (c : Control) : Decidable c.Links := inferInstanceAs (Decidable (_ ∧ _))

/-- The condition is always met. -/
def Control.Always (c : Control) : Prop := c.condition = 0b000 ∨ c.condition = 0b110

instance (c : Control) : Decidable c.Always := inferInstanceAs (Decidable (_ ∨ _))

/-- What the other outputs of the decoder have to be for a kind of instruction. -/
def Kind.Decodes (k : Kind) (c : Control) : Prop :=
  match k with
  | .alu op mode =>
      op.Selects c ∧ mode.Selects c ∧ c.dResultSel0 = false ∧ c.readEnable0 = true
  | .load size signed =>
      size.Selects c ∧ c.source = .load ∧ (size = .word ∨ c.signExtend = signed)
  | .store size => size.Selects c ∧ c.readEnable1 = true
  | .branch cond =>
      c.dResultSel0 = false ∧ c.dResultSel1 = .REG_1 ∧ c.readEnable0 = true ∧
        c.readEnable1 = true ∧ c.adderOp = true ∧ c.condition = cond.code ∧ c.register = false
  | .b => c.readEnable0 = true ∧ c.Always
  | .bi => c.Always ∧ c.register = true
  | .call => c.readEnable0 = true ∧ c.Links ∧ c.Always
  | .calli => c.Links ∧ c.Always ∧ c.register = true
  | .raise => c.opRaise = true
  | .rcsr => c.source = .csr ∧ c.register = true
  | .wcsr => True

instance (k : Kind) (c : Control) : Decidable (k.Decodes c) := by
  cases k <;> unfold Kind.Decodes <;> infer_instance

/-- Every opcode is decoded as its kind asks for. -/
theorem decodes_ofOpcode : ∀ opcode, (Kind.ofOpcode opcode).Decodes (control opcode) := by
  decide +kernel

/-- The outputs of the decoder that say what an instruction changes. -/
structure Flow where
  writeEnable : Bool
  load : Bool
  store : Bool
  branch : Bool
  branchReg : Bool
  biConditional : Bool
  biUnconditional : Bool
  call : Bool
  opRaise : Bool
  deriving DecidableEq

/-- What the decoder says that an instruction changes. -/
def Control.flow (c : Control) : Flow :=
  ⟨c.writeEnable, c.load, c.store, c.branch, c.branchReg, c.biConditional, c.biUnconditional,
    c.call, c.opRaise⟩

/-- What a kind of instruction changes. -/
def Kind.flow (k : Kind) : Flow :=
  match k with
  | .alu .. | .rcsr => ⟨true, false, false, false, false, false, false, false, false⟩
  | .load .. => ⟨true, true, false, false, false, false, false, false, false⟩
  | .store .. => ⟨false, false, true, false, false, false, false, false, false⟩
  | .branch .. => ⟨false, false, false, true, false, true, false, false, false⟩
  | .b => ⟨false, false, false, true, true, false, false, false, false⟩
  | .bi => ⟨false, false, false, true, false, false, true, false, false⟩
  | .call => ⟨true, false, false, true, true, false, false, true, false⟩
  | .calli => ⟨true, false, false, true, false, false, false, true, false⟩
  | .raise => ⟨false, false, false, false, false, false, false, false, true⟩
  | .wcsr => ⟨false, false, false, false, false, false, false, false, false⟩

/-- The decoder knows what every instruction changes. -/
theorem flow_ofOpcode : ∀ opcode, (control opcode).flow = (Kind.ofOpcode opcode).flow := by
  decide +kernel

/-- A result of the X stage that is passed on from there stays as it is in the M stage. -/
theorem bypass_keeps : ∀ opcode, (control opcode).xBypassEnable = true →
    (control opcode).mBypassEnable = true ∧ (control opcode).mResultSelCompare = false ∧
      (control opcode).mResultSelShift = false := by
  decide +kernel

/-- A result that is passed on from the M stage is final there. -/
theorem bypass_final : ∀ opcode, (control opcode).mBypassEnable = true →
    (control opcode).wResultSelLoad = false ∧ (control opcode).wResultSelMul = false := by
  decide +kernel

/-- The divider starts for the instructions that wait for its result. -/
theorem mcArith_starts : ∀ opcode,
    ((control opcode).source = .mcArith → (control opcode).xResultSelMcArith = true) ∧
    ((control opcode).xResultSelMcArith =
      ((control opcode).divide || (control opcode).modulus)) := by
  decide +kernel

/-- The address of a load goes through the M stage as it is. -/
theorem load_keeps : ∀ opcode, (control opcode).wResultSelLoad = true →
    (control opcode).mResultSelCompare = false ∧ (control opcode).mResultSelShift = false := by
  decide +kernel

/-- No instruction both loads and stores. -/
theorem load_of_store : ∀ opcode,
    (control opcode).store = true → (control opcode).load = false := by
  decide +kernel

/-- What is predicted is a branch. -/
theorem branch_of_predict : ∀ opcode,
    ((control opcode).biUnconditional || (control opcode).biConditional) = true →
      (control opcode).branch = true := by
  decide +kernel

end Soc.Lm32
