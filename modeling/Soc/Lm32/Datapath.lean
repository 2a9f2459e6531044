import Soc.Lm32.Core

/-!
# What the data path computes

The outputs of the D stage for an instruction go through the X, M and W stages and the units beside
them. Put together, without the stages, they are the outcome of the instruction: the register that
is written and its value, the next program counter and the transfer on the data bus. The operands
are the registers the decoder asks for.
-/

namespace Soc.Lm32

namespace XStage

variable (x : XStage) (csr mc data : Word)

/-- What the shifter holds when the instruction is in the M stage. -/
def shiftResult : Word :=
  Shifter.resultM
    ⟨Shifter.rightShift x.control.direction x.control.signExtend x.operand0X x.operand1X,
      x.control.direction⟩

/-- What is written in the W stage, when no exception is raised. -/
def wResult : Word :=
  if x.control.wResultSelLoad then
    loadData x.control.size ((x.xResult csr mc).extractLsb' 0 2) x.control.signExtend data
  else if x.control.wResultSelMul then x.operand0X * x.operand1X
  else if x.control.mResultSelCompare then (BitVec.ofBool x.conditionMetX).setWidth 32
  else if x.control.mResultSelShift then x.shiftResult
  else x.xResult csr mc

/-- The register that is written. -/
def write : Option (Reg × Word) :=
  if x.control.writeEnable then some (x.writeIdxX, x.wResult csr mc data) else none

/-- The instruction that follows. -/
def nextPc (pc : Pc) : Pc :=
  if x.control.branch && x.conditionMetX then x.branchTargetX else pc + 1

/-- The transfer on the data bus. -/
def access : Option Access :=
  if x.control.load then
    some ⟨x.xResult csr mc,
      byteEnableX x.control.size (x.adderX.resultX.extractLsb' 0 2), false, data⟩
  else if x.control.store then
    some ⟨x.xResult csr mc,
      byteEnableX x.control.size (x.adderX.resultX.extractLsb' 0 2), true,
      storeDataX x.control.size x.storeOperandX⟩
  else none

/-- The result, by the unit it comes from. -/
theorem wResult_source : x.wResult csr mc data =
    match x.control.source with
    | .adder => x.adderX.resultX
    | .csr => csr
    | .sext => sextResult x.control.size x.operand0X
    | .mcArith => mc
    | .logic => logicOp x.control.logicOp x.operand0X x.operand1X
    | .compare => (BitVec.ofBool x.conditionMetX).setWidth 32
    | .shift => x.shiftResult
    | .load =>
        loadData x.control.size ((x.xResult csr mc).extractLsb' 0 2) x.control.signExtend data
    | .mul => x.operand0X * x.operand1X := by
  rw [wResult, Control.source, xResult]
  split_ifs <;> rfl

end XStage

/-- The operands are the registers that the decoder asks for. -/
structure Operands (i : Word) (regs : Reg → Word) (v0 v1 : Word) : Prop where
  first : (decoder i).readEnable0 = true → v0 = regs (reg0 i)
  second : (decoder i).readEnable1 = true → v1 = regs (reg1 i)

section Immediates

/-- A sign extension that is written out. -/
theorem append_sign {w n : Nat} (v : BitVec w) :
    (if v.getLsbD (w - 1) then BitVec.allOnes n else 0) ++ v = v.signExtend (n + w) := by
  apply BitVec.eq_of_getLsbD_eq
  intro k hk
  rw [BitVec.getLsbD_append, BitVec.getLsbD_signExtend, BitVec.msb_eq_getLsbD_last]
  by_cases hlow : k < w
  · simp [hlow, hk]
  · rw [if_neg hlow, if_neg hlow, decide_eq_true hk, Bool.true_and]
    cases v.getLsbD (w - 1) with
    | false => simp
    | true => simp; omega

/-- The lower bits of a sign extension. -/
theorem extract_signExtend {w : Nat} (v : BitVec w) :
    (v.signExtend 32).extractLsb' 0 30 = v.signExtend 30 := by
  apply BitVec.eq_of_getLsbD_eq
  intro k hk
  have hk32 : k < 32 := by omega
  rw [BitVec.getLsbD_extractLsb', BitVec.getLsbD_signExtend, BitVec.getLsbD_signExtend]
  simp [hk, hk32]

variable (i : Word)

/-- The sign of the immediate value. -/
theorem sign_imm16 : (imm16 i).getLsbD 15 = i.getLsbD 15 := by
  simp [imm16]

/-- The sign of the offset of `bi` and `calli`. -/
theorem sign_imm26 : (imm26 i).getLsbD 25 = i.getLsbD 25 := by
  simp [imm26]

/-- The second operand. -/
theorem dResult1_mode {mode : Mode} {regs : Reg → Word} {v0 v1 : Word}
    (h : mode.Selects (decoder i).toControl) (hops : Operands i regs v0 v1) :
    dResult1 i v1 = mode.operand i regs := by
  have himm : (decoder i).immediate =
      if (decoder i).selectHighImmediate then imm16 i ++ 0#16
      else (if (decoder i).signExtendImmediate && i.getLsbD 15 then BitVec.allOnes 16 else 0) ++
        imm16 i := rfl
  rw [dResult1]
  cases mode with
  | reg =>
      rw [h.1]
      exact hops.second h.2.2
  | signed =>
      rw [h.1]
      dsimp only
      rw [himm, h.2.2.1, h.2.2.2, Bool.true_and, ← sign_imm16]
      exact append_sign (imm16 i)
  | unsigned =>
      rw [h.1]
      dsimp only
      rw [himm, h.2.2.1, h.2.2.2, Bool.false_and]
      exact (BitVec.setWidth_eq_append (by decide)).symm
  | high =>
      rw [h.1]
      dsimp only
      rw [himm, h.2.2]
      rfl

/-- The target of a branch to an offset of 16 bits. -/
theorem branchTarget_imm16 (h : (decoder i).register = false) (pc : Pc) :
    branchTarget i pc = pc + (imm16 i).signExtend 30 := by
  have hoffset : (decoder i).branchOffset =
      if (decoder i).register then
        ((if i.getLsbD 25 then BitVec.allOnes 6 else 0) ++ imm26 i).extractLsb' 0 30
      else ((if i.getLsbD 15 then BitVec.allOnes 16 else 0) ++ imm16 i).extractLsb' 0 30 := rfl
  rw [branchTarget, hoffset, h, if_neg Bool.false_ne_true, ← sign_imm16, append_sign (imm16 i),
    extract_signExtend]

/-- The target of a branch to an offset of 26 bits. -/
theorem branchTarget_imm26 (h : (decoder i).register = true) (pc : Pc) :
    branchTarget i pc = pc + (imm26 i).signExtend 30 := by
  have hoffset : (decoder i).branchOffset =
      if (decoder i).register then
        ((if i.getLsbD 25 then BitVec.allOnes 6 else 0) ++ imm26 i).extractLsb' 0 30
      else ((if i.getLsbD 15 then BitVec.allOnes 16 else 0) ++ imm16 i).extractLsb' 0 30 := rfl
  rw [branchTarget, hoffset, h, if_pos rfl, ← sign_imm26, append_sign (imm26 i), extract_signExtend]

end Immediates

section Outcomes

variable {i : Word} {pc : Pc} {regs : Reg → Word} {v0 v1 csr mc data : Word} {busError : Bool}

/-- The opcode decides what is decoded. -/
theorem decodes_kind (i : Word) : (kind i).Decodes (decoder i).toControl :=
  decodes_ofOpcode (i.extractLsb' 26 6)

/-- The opcode decides what is changed. -/
theorem flow_kind (i : Word) : (decoder i).flow = (kind i).flow :=
  flow_ofOpcode (i.extractLsb' 26 6)

/-- The decoder outputs in the X stage. -/
@[simp] theorem control_dToX (i : Word) (pcD pcF : Pc) (v0 v1 : Word) (busError : Bool) :
    (dToX i pcD pcF v0 v1 busError).control = (decoder i).toControl := rfl

/-- The adder subtracts when it is told so. -/
theorem adderX_eq : (dToX i pc (pc + 1) v0 v1 busError).adderX =
    adder (decoder i).adderOp (!(decoder i).adderOp) (dResult0 i (pc + 1) v0) (dResult1 i v1) := rfl

/-- An operation. -/
theorem wResult_alu {op : Alu} (h : op.Selects (decoder i).toControl)
    (hmc : (decoder i).source = .mcArith →
      mc = McArithmetic.outcome (decoder i).modulus (dResult0 i (pc + 1) v0) (dResult1 i v1)) :
    (dToX i pc (pc + 1) v0 v1 busError).wResult csr mc data =
      op.eval (dResult0 i (pc + 1) v0) (dResult1 i v1) := by
  rw [XStage.wResult_source]
  generalize hx : dToX i pc (pc + 1) v0 v1 busError = x
  have hcontrol : x.control = (decoder i).toControl := by
    rw [← hx]
    rfl
  have hx0 : x.operand0X = dResult0 i (pc + 1) v0 := by
    rw [← hx]
    rfl
  have hx1 : x.operand1X = dResult1 i v1 := by
    rw [← hx]
    rfl
  have hadder :
      x.adderX = adder x.control.adderOp (!x.control.adderOp) x.operand0X x.operand1X := by
    rw [← hx]
    rfl
  rw [← hcontrol] at h hmc
  rw [← hx0, ← hx1] at hmc ⊢
  obtain ⟨hand, hor, hxor, hnor, hxnor⟩ := logicOp_eval x.operand0X x.operand1X
  cases op with
  | add =>
      rw [h.1]
      dsimp only
      rw [hadder, h.2]
      exact adder_add
  | sub =>
      rw [h.1]
      dsimp only
      rw [hadder, h.2]
      exact adder_sub
  | mul => rw [show x.control.source = .mul from h]; rfl
  | divu => rw [h.1, hmc h.1, h.2]; rfl
  | modu => rw [h.1, hmc h.1, h.2]; rfl
  | and => rw [h.1, h.2]; exact hand
  | or => rw [h.1, h.2]; exact hor
  | xor => rw [h.1, h.2]; exact hxor
  | nor => rw [h.1, h.2]; exact hnor
  | xnor => rw [h.1, h.2]; exact hxnor
  | sl =>
      rw [h.1]
      dsimp only
      rw [XStage.shiftResult, h.2]
      exact Shifter.reset.next_left _ _ _
  | sr =>
      rw [h.1]
      dsimp only
      rw [XStage.shiftResult, h.2.1, h.2.2]
      exact Shifter.reset.next_right _ _ true
  | sru =>
      rw [h.1]
      dsimp only
      rw [XStage.shiftResult, h.2.1, h.2.2]
      exact Shifter.reset.next_right _ _ false
  | sextb => rw [h.1, h.2]; rfl
  | sexth => rw [h.1, h.2]; rfl
  | cmp cond =>
      rw [h.1]
      dsimp only
      rw [XStage.conditionMetX, hadder, h.2.1, h.2.2]
      exact congrArg (fun b => (BitVec.ofBool b).setWidth 32) (conditionMet_eq cond _ _)

/-- The first operand is a register, unless the instruction is a call. -/
theorem dResult0_reg (h : (decoder i).dResultSel0 = false) (hread : (decoder i).readEnable0 = true)
    (hops : Operands i regs v0 v1) : dResult0 i (pc + 1) v0 = regs (reg0 i) := by
  rw [dResult0, h]
  exact hops.first hread

/-- The destination, by the format of the instruction. -/
theorem writeIdx_eq : (decoder i).writeIdx =
    if (decoder i).call then RA_REG else if (decoder i).register = false then reg1 i else reg2 i :=
  rfl

/-- A return address is passed through the adder. -/
theorem wResult_links (h : (decoder i).Links) :
    (dToX i pc (pc + 1) v0 v1 busError).wResult csr mc data = (pc + 1) ++ 0#2 := by
  obtain ⟨hsource, hadd, h0, h1⟩ := h
  rw [XStage.wResult_source, control_dToX, hsource]
  dsimp only
  rw [adderX_eq, hadd, dResult0, h0, dResult1, h1]
  exact adder_add.trans (BitVec.add_zero _)

/-- The address of a load or a store. -/
theorem adderX_address {size : Size} (h : size.Selects (decoder i).toControl)
    (hops : Operands i regs v0 v1) :
    (dToX i pc (pc + 1) v0 v1 busError).adderX.resultX =
      regs (reg0 i) + (imm16 i).signExtend 32 := by
  obtain ⟨hmode, h0, hread, -, hadd, -⟩ := h
  rw [adderX_eq, hadd, dResult0_reg h0 hread hops, dResult1_mode i hmode hops]
  exact adder_add

/-- The address is also the result of the X stage. -/
theorem xResult_address {size : Size} (h : size.Selects (decoder i).toControl)
    (hops : Operands i regs v0 v1) :
    (dToX i pc (pc + 1) v0 v1 busError).xResult csr mc =
      regs (reg0 i) + (imm16 i).signExtend 32 := by
  rw [XStage.xResult]
  exact (if_pos h.2.2.2.1).trans (adderX_address h hops)

/-- A condition that is always met. -/
theorem conditionMetX_always (h : (decoder i).Always) :
    (dToX i pc (pc + 1) v0 v1 busError).conditionMetX = true := by
  rw [XStage.conditionMetX]
  change conditionMet (decoder i).condition _ _ _ = true
  rcases h with h | h
  · rw [h]
    rfl
  · rw [h]
    rfl

/-- The register that is written is the one of the instruction set. -/
theorem write_eq (hops : Operands i regs v0 v1)
    (hmc : (decoder i).source = .mcArith →
      mc = McArithmetic.outcome (decoder i).modulus (dResult0 i (pc + 1) v0) (dResult1 i v1)) :
    (dToX i pc (pc + 1) v0 v1 busError).write csr mc data =
      (execute i pc regs csr data).write := by
  have hd := decodes_kind i
  have hf := flow_kind i
  have hwrite : (dToX i pc (pc + 1) v0 v1 busError).write csr mc data =
      if (decoder i).writeEnable then
        some ((decoder i).writeIdx, (dToX i pc (pc + 1) v0 v1 busError).wResult csr mc data)
      else none := rfl
  rw [hwrite, writeIdx_eq, execute]
  generalize kind i = k at hd hf
  simp only [Control.flow, Kind.flow] at hf
  cases k with
  | alu op mode =>
      obtain ⟨hop, hmode, h0, hread⟩ := hd
      injection hf with hen _ _ _ _ _ _ hcall _
      rw [hen, hcall, wResult_alu hop hmc, dResult0_reg h0 hread hops, dResult1_mode i hmode hops]
      cases mode with
      | reg => rw [hmode.2.1]; rfl
      | signed => rw [hmode.2.1]; rfl
      | unsigned => rw [hmode.2.1]; rfl
      | high => rw [hmode.2.1]; rfl
  | load size signed =>
      obtain ⟨hsize, hsource, hsign⟩ := hd
      injection hf with hen _ _ _ _ _ _ hcall _
      rw [hen, hcall, hsize.1.2.1, XStage.wResult_source, control_dToX, hsource]
      dsimp only
      rw [xResult_address hsize hops]
      change some (_, loadData (decoder i).size _ (decoder i).signExtend data) = _
      rw [hsize.2.2.2.2.2.2.2, loadData_code _ _ hsign]
      rfl
  | call =>
      injection hf with hen _ _ _ _ _ _ hcall _
      rw [hen, hcall, wResult_links hd.2.1]
      rfl
  | calli =>
      injection hf with hen _ _ _ _ _ _ hcall _
      rw [hen, hcall, wResult_links hd.1]
      rfl
  | rcsr =>
      injection hf with hen _ _ _ _ _ _ hcall _
      rw [hen, hcall, hd.2, XStage.wResult_source, control_dToX, hd.1]
      rfl
  | store _ | branch _ | b | bi | raise | wcsr =>
      injection hf with hen
      rw [hen]
      rfl

/-- The instruction that follows is the one of the instruction set. -/
theorem nextPc_eq (hops : Operands i regs v0 v1) :
    (dToX i pc (pc + 1) v0 v1 busError).nextPc pc = (execute i pc regs csr data).pc := by
  have hd := decodes_kind i
  have hf := flow_kind i
  have hnext : (dToX i pc (pc + 1) v0 v1 busError).nextPc pc =
      if (decoder i).branch && (dToX i pc (pc + 1) v0 v1 busError).conditionMetX then
        if (decoder i).branchReg then v0.extractLsb' 2 30 else branchTarget i pc
      else pc + 1 := rfl
  rw [hnext, execute]
  generalize kind i = k at hd hf
  simp only [Control.flow, Kind.flow] at hf
  cases k with
  | branch cond =>
      obtain ⟨h0, h1, hread0, hread1, hsub, hcond, hregister⟩ := hd
      injection hf with _ _ _ hbranch hreg _ _ _ _
      have hmet : (dToX i pc (pc + 1) v0 v1 busError).conditionMetX =
          cond.holds (regs (reg0 i)) (regs (reg1 i)) := by
        have h1' : dResult1 i v1 = regs (reg1 i) := by
          rw [dResult1, h1]
          exact hops.second hread1
        rw [XStage.conditionMetX, adderX_eq, hsub, dResult0_reg h0 hread0 hops, h1']
        change conditionMet (decoder i).condition (dResult0 i (pc + 1) v0) (dResult1 i v1) _ = _
        rw [hcond, dResult0_reg h0 hread0 hops, h1']
        exact conditionMet_eq cond _ _
      rw [hbranch, hreg, hmet, branchTarget_imm16 i hregister, Bool.true_and]
      rfl
  | b =>
      injection hf with _ _ _ hbranch hreg _ _ _ _
      rw [hbranch, hreg, conditionMetX_always hd.2, hops.first hd.1]
      rfl
  | bi =>
      injection hf with _ _ _ hbranch hreg _ _ _ _
      rw [hbranch, hreg, conditionMetX_always hd.1, branchTarget_imm26 i hd.2]
      rfl
  | call =>
      injection hf with _ _ _ hbranch hreg _ _ _ _
      rw [hbranch, hreg, conditionMetX_always hd.2.2, hops.first hd.1]
      rfl
  | calli =>
      injection hf with _ _ _ hbranch hreg _ _ _ _
      rw [hbranch, hreg, conditionMetX_always hd.2.1, branchTarget_imm26 i hd.2.2]
      rfl
  | alu _ _ | load _ _ | store _ | raise | rcsr | wcsr =>
      injection hf with _ _ _ hbranch
      rw [hbranch]
      rfl

/-- The transfer on the data bus is the one of the instruction set. -/
theorem access_eq (hops : Operands i regs v0 v1) :
    (dToX i pc (pc + 1) v0 v1 busError).access csr mc data =
      (execute i pc regs csr data).access := by
  have hd := decodes_kind i
  have hf := flow_kind i
  rw [XStage.access, execute, control_dToX]
  generalize kind i = k at hd hf
  simp only [Control.flow, Kind.flow] at hf
  cases k with
  | load size signed =>
      injection hf with _ hload
      rw [hload, if_pos rfl, xResult_address hd.1 hops, adderX_address hd.1 hops,
        hd.1.2.2.2.2.2.2.2, byteEnableX_code]
  | store size =>
      injection hf with _ hload hstore
      rw [hload, hstore, xResult_address hd.1 hops, adderX_address hd.1 hops,
        hd.1.2.2.2.2.2.2.2, byteEnableX_code, storeDataX_code]
      change some _ = some _
      rw [← hops.second hd.2]
      rfl
  | alu _ _ | branch _ | b | bi | call | calli | raise | rcsr | wcsr =>
      injection hf with _ hload hstore
      rw [hload, hstore]
      rfl

end Outcomes

end Soc.Lm32
