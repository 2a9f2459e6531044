import Soc.Lm32.Pipeline

/-!
# How operands reach the X stage of the LM32

An instruction reads its operands in the D stage, when up to three older ones have yet to write
theirs. `archRegs` are the registers once the instruction in the W stage has written, which is what
a program sees between the instruction in the M stage and the one before it. The operands in the X
stage are those registers with the result of the M stage on top, and an interlock has made sure that
this result was known: `Executing` says so, and when an instruction enters the M stage its operands
are the registers themselves, as `Completing` has it.
-/

namespace Soc.Lm32

open McArithmetic (Operation)

/-- The X/M registers for an instruction without an exception. -/
def XStage.toM (x : XStage) (csr mc : Word) : MStage where
  operandM := x.xResult csr mc
  branchTargetM := x.branchTargetX
  mResultSelCompareM := x.control.mResultSelCompare
  mResultSelShiftM := x.control.mResultSelShift
  wResultSelLoadM := x.control.wResultSelLoad
  wResultSelMulM := x.control.wResultSelMul
  mBypassEnableM := x.control.mBypassEnable
  loadM := x.control.load
  storeM := x.control.store
  branchM := x.control.branch
  branchPredictM := x.branchPredictX
  branchPredictTakenM := x.branchPredictTakenX
  writeIdxM := x.writeIdxX
  writeEnableM := x.control.writeEnable
  conditionMetM := x.conditionMetX
  debugExceptionM := false
  nonDebugExceptionM := false
  exceptionM := false
  dataBusErrorExceptionM := false

namespace Core

variable (s : Core) (p : Pins)

/-- The registers after the instruction in the W stage. -/
def archRegs : Reg → Word := s.regWrite.apply s.file.port0.ram

/-- The registers after the instruction in the M stage, if its result is known there. -/
def regsX (r : Reg) : Word := if s.rawM r then s.mResult else s.archRegs r

/-- What the instruction in the M stage will write. -/
def finalM : Word :=
  if s.m.wResultSelLoadM then
    loadData s.lsu.sizeM (s.mToW.operandW.extractLsb' 0 2) s.lsu.signExtendM s.lsu.wbDataM
  else if s.m.wResultSelMulM then s.multiplier.product
  else s.mToW.operandW

/-- The instruction in the X stage, with the operands it was given. -/
structure Executing (imem : Pc → Option Word) (i v0 v1 : Word) : Prop where
  fetched : Brings imem s.iu.pcX i
  stage : s.x = dToX i s.iu.pcX (s.iu.pcX + 1) v0 v1 false
  operands : Operands i s.regsX v0 v1
  known0 : (decoder i).readEnable0 = true → s.rawM (reg0 i) = true →
    s.m.mBypassEnableM = true
  known1 : (decoder i).readEnable1 = true → s.rawM (reg1 i) = true →
    s.m.mBypassEnableM = true

/-- The instruction in the M stage, with the operands it had. -/
structure Completing (imem : Pc → Option Word) (i v0 v1 csr mc : Word) : Prop where
  fetched : Brings imem s.iu.pcM i
  stage : s.m = (dToX i s.iu.pcM (s.iu.pcM + 1) v0 v1 false).toM csr mc
  operands : Operands i s.archRegs v0 v1
  quotient : (decoder i).source = .mcArith →
    mc = McArithmetic.outcome (decoder i).modulus
      (dResult0 i (s.iu.pcM + 1) v0) (dResult1 i v1)
  shifted : s.shifter.resultM =
    (dToX i s.iu.pcM (s.iu.pcM + 1) v0 v1 false).shiftResult
  product : s.multiplier.product =
    dResult0 i (s.iu.pcM + 1) v0 * dResult1 i v1
  sizeM : s.lsu.sizeM = (decoder i).size
  signExtendM : s.lsu.signExtendM = (decoder i).signExtend
  byteEnableM : s.lsu.byteEnableM = byteEnableX (decoder i).size
    ((dToX i s.iu.pcM (s.iu.pcM + 1) v0 v1 false).adderX.resultX.extractLsb' 0 2)
  storeDataM : s.lsu.storeDataM = storeDataX (decoder i).size v1
  executes : kind i ≠ .raise

/-- What the instruction in the M stage leaves behind when it raises an exception. -/
structure Excepting : Prop where
  writeEnableM : s.m.writeEnableM = true
  wResultSelLoadM : s.m.wResultSelLoadM = false
  wResultSelMulM : s.m.wResultSelMulM = false
  link : s.m.writeIdxM = EA_REG ∨ s.m.writeIdxM = BA_REG
  vector : s.m.branchTargetM.extractLsb' 0 3 = 0

/-- The register file and the stages that hold an instruction. -/
structure Data (imem : Pc → Option Word) : Prop where
  rams : s.file.port0.ram = s.file.port1.ram
  reading : s.validD = true → s.file.Holds s.file.port0.ram s.iu.instructionD
  decoded : s.validX = true → ∃ i, s.x.control = (decoder i).toControl
  multiplying : s.validX = true →
    s.multiplier.muliplicand = s.x.operand0X ∧ s.multiplier.multiplier = s.x.operand1X
  dividing : s.validX = true → s.x.control.xResultSelMcArith = true →
    Operation s.x.control.modulus s.x.operand0X s.x.operand1X s.mc
  idle : (s.validX && s.x.control.xResultSelMcArith) = false → s.mc.state = .IDLE
  executing : s.validX = true → s.redirects = false → s.x.busErrorX = false →
    ∃ i v0 v1, s.Executing imem i v0 v1
  completing : s.validM = true → s.m.exceptionM = false →
    ∃ i v0 v1 csr mc, s.Completing imem i v0 v1 csr mc
  excepting : s.m.exceptionM = true → s.Excepting

section Steps

variable {s p} {imem : Pc → Option Word}

/-- The instruction in the M stage writes when it leaves. -/
theorem regWrite_next (s : Core) (p : Pins) : (s.next p).regWrite =
    ⟨s.m.writeEnableM && (if s.stallM p = false then s.validM else false), s.m.writeIdxM,
      s.finalM⟩ := rfl

/-- The memories of the register file hold what was written. -/
theorem ram_next (s : Core) (p : Pins) : (s.next p).file.port0.ram = s.archRegs := rfl

/-- The registers stay while the M stage waits. -/
theorem archRegs_waits (hM : s.stallM p = true) : (s.next p).archRegs = s.archRegs := by
  rw [archRegs, ram_next, regWrite_next, hM]
  simp [RegWrite.apply]

/-- A register that the instruction in the M stage does not write stays. -/
theorem archRegs_other {r : Reg} (h : s.rawM r = false) : (s.next p).archRegs r = s.archRegs r := by
  rw [archRegs, ram_next, regWrite_next]
  refine RegPort.apply_other (fun hw => ?_) _
  obtain ⟨hen, hidx⟩ := hw
  rw [Bool.and_eq_true] at hen
  have hvalid : s.validM = true := by
    rcases hen with ⟨-, hv⟩
    split at hv
    · exact hv
    · exact absurd hv (by decide)
  have hraw : s.rawM r = true := by
    rw [rawM, writeEnableQM, hen.1, hvalid, show s.m.writeIdxM = r from hidx]
    simp
  exact absurd hraw (by rw [h]; decide)

/-- A register that it writes. -/
theorem archRegs_written {r : Reg} (hM : s.stallM p = false) (h : s.rawM r = true) :
    (s.next p).archRegs r = s.finalM := by
  rw [rawM, writeEnableQM, Bool.and_eq_true, Bool.and_eq_true, beq_iff_eq] at h
  obtain ⟨rfl, hen, hvalid⟩ := h
  rw [archRegs, ram_next, regWrite_next]
  exact RegPort.apply_self (w := ⟨_, s.m.writeIdxM, s.finalM⟩) (by simp [hen, hM, hvalid]) _

/-- A result that is passed on from the M stage is final. -/
theorem finalM_bypass {x : XStage} {i : Word} {csr mc : Word} (hm : s.m = x.toM csr mc)
    (hx : x.control = (decoder i).toControl) (hb : s.m.mBypassEnableM = true) :
    s.finalM = s.mResult := by
  rw [hm] at hb
  change x.control.mBypassEnable = true at hb
  rw [hx] at hb
  obtain ⟨hload, hmul⟩ := bypass_final (i.extractLsb' 26 6) hb
  have hl : s.m.wResultSelLoadM = false := by
    rw [hm]
    change x.control.wResultSelLoad = false
    rw [hx]
    exact hload
  have hu : s.m.wResultSelMulM = false := by
    rw [hm]
    change x.control.wResultSelMul = false
    rw [hx]
    exact hmul
  have he : s.m.exceptionM = false := by
    rw [hm]
    rfl
  rw [finalM, hl, hu]
  simp [mToW, he]

/-- When the M stage moves on, the operands of the X stage are registers. -/
theorem regsX_next (h : s.Data imem) (hM : s.stallM p = false) (hr : s.redirects = false) {r : Reg}
    (hknown : s.rawM r = true → s.m.mBypassEnableM = true) :
    s.regsX r = (s.next p).archRegs r := by
  rw [regsX]
  cases hraw : s.rawM r with
  | false => exact (archRegs_other hraw).symm
  | true =>
      have hvalid : s.validM = true := by
        rw [rawM, writeEnableQM, Bool.and_eq_true, Bool.and_eq_true] at hraw
        exact hraw.2.2
      have he : s.m.exceptionM = false := by
        rw [redirects, Bool.or_eq_false_iff] at hr
        exact hr.2
      obtain ⟨i, v0, v1, csr, mc, hc⟩ := h.completing hvalid he
      rw [archRegs_written hM hraw, finalM_bypass hc.stage rfl (hknown hraw)]
      rfl

/-- The M stage after a cycle without an exception. -/
theorem xToM_eq (he : s.exceptionX p = false) :
    s.xToM p = s.x.toM (s.csrReadDataX p) s.mc.resultX := by
  have hd : s.debugExceptionX p = false := by
    rw [exceptionX, Bool.or_eq_false_iff] at he
    exact he.1
  have hn : s.nonDebugExceptionX p = false := by
    rw [exceptionX, Bool.or_eq_false_iff] at he
    exact he.2
  have hb : s.dataBusErrorSeen = false := by
    simp only [nonDebugExceptionX, Bool.or_eq_false_iff] at hn
    exact hn.1.1.2
  simp [xToM, XStage.toM, he, hd, hn, hb, xResult]

/-- An instruction without an exception was fetched without an error and is no `raise`. -/
theorem no_raise (hv : s.validX = true) (he : s.exceptionX p = false) :
    s.x.busErrorX = false ∧ ∀ i, s.x.breakX = (decoder i).breakOpcode →
      s.x.scallX = (decoder i).scall → kind i ≠ .raise := by
  rw [exceptionX, Bool.or_eq_false_iff] at he
  obtain ⟨hd, hn⟩ := he
  simp only [nonDebugExceptionX, Bool.or_eq_false_iff, systemCallException,
    instructionBusErrorException, hv, Bool.and_true] at hn
  simp only [debugExceptionX, breakpointException, Bool.or_eq_false_iff, hv, Bool.and_true] at hd
  refine ⟨hn.1.1.1.2, fun i hbreak hscall hraise => ?_⟩
  have hf := flow_kind i
  rw [hraise] at hf
  simp only [Control.flow, Kind.flow] at hf
  injection hf with _ _ _ _ _ _ _ _ hop
  have h1 : (decoder i).breakOpcode = ((decoder i).opRaise && !i.getLsbD 2) := rfl
  have h2 : (decoder i).scall = ((decoder i).opRaise && i.getLsbD 2) := rfl
  rw [← hbreak, hd.1.1.1, hop] at h1
  rw [← hscall, hn.1.1.1.1, hop] at h2
  cases hbit : i.getLsbD 2 with
  | false =>
      rw [hbit] at h1
      exact absurd h1 (by decide)
  | true =>
      rw [hbit] at h2
      exact absurd h2 (by decide)

/-- Without an exception in the M stage afterwards there is none in the X stage. -/
theorem exceptionX_of_moves (hX : s.stallX p = false) (hv : (s.validX && !s.killX p) = true)
    (he : (s.xToM p).exceptionM = false) : s.exceptionX p = false := by
  simpa [xToM, qX, hv, hX] using he

/-- The path is straight when no branch is taken. -/
theorem redirects_of_moves (hM : s.stallM p = false) (ht : s.branchTakenM p = false) :
    s.redirects = false := by
  rw [branchTakenM_eq, hM] at ht
  simpa using ht

/-- An instruction enters the M stage with registers as its operands. -/
theorem completing_next (h : s.Data imem) (hX : s.stallX p = false)
    (hv : (s.validX && !s.killX p) = true) (he : (s.xToM p).exceptionM = false) :
    ∃ i v0 v1 csr mc, (s.next p).Completing imem i v0 v1 csr mc := by
  have hM := stallM_of_stallX hX
  have hexc := exceptionX_of_moves hX hv he
  rw [Bool.and_eq_true, Bool.not_eq_true'] at hv
  obtain ⟨hvalid, hkill⟩ := hv
  have ht : s.branchTakenM p = false := Bool.eq_false_iff.2 fun ht =>
    absurd (killX_of_branchTakenM ht) (by rw [hkill]; decide)
  have hr := redirects_of_moves hM ht
  obtain ⟨herr, hraise⟩ := no_raise hvalid hexc
  obtain ⟨i, v0, v1, hexec⟩ := h.executing hvalid hr herr
  have hpc : (s.next p).iu.pcM = s.iu.pcX := by simp [hM]
  have hcontrol : s.x.control = (decoder i).toControl := by
    rw [hexec.stage]
    rfl
  have hop0 : s.x.operand0X = dResult0 i (s.iu.pcX + 1) v0 := by
    rw [hexec.stage]
    rfl
  have hop1 : s.x.operand1X = dResult1 i v1 := by
    rw [hexec.stage]
    rfl
  refine ⟨i, v0, v1, s.csrReadDataX p, s.mc.resultX, ?_, ?_, ⟨fun hread => ?_, fun hread => ?_⟩,
    fun hsource => ?_, ?_, ?_, ?_, ?_, ?_, ?_, ?_⟩
  all_goals rw [hpc] at *
  · exact hexec.fetched
  · rw [← hexec.stage, next_m, if_pos hM, xToM_eq hexc]
  · rw [hexec.operands.first hread]
    exact regsX_next h hM hr (hexec.known0 hread)
  · rw [hexec.operands.second hread]
    exact regsX_next h hM hr (hexec.known1 hread)
  · have harith : s.x.control.xResultSelMcArith = true := by
      rw [hcontrol]
      exact (mcArith_starts (i.extractLsb' 26 6)).1 hsource
    have hready : s.mc.stallRequestX = false := by
      rw [stallX, hM, hkill, Bool.false_or, Bool.not_false, Bool.and_true] at hX
      exact hX
    rw [← hop0, ← hop1, ← hcontrol]
    exact (h.dividing hvalid harith).resultX hready
  · rw [← hexec.stage]
    simp only [next, Shifter.next, hX, if_true]
    rfl
  · have hmul := h.multiplying hvalid
    rw [← hop0, ← hop1, ← hmul.1, ← hmul.2]
    simp only [next, Multiplier.next, hM, if_true]
  · rw [← hcontrol]
    simp only [next, LoadStoreUnit.next, loadStoreIn, hM, if_true]
  · rw [← hcontrol]
    simp only [next, LoadStoreUnit.next, loadStoreIn, hM, if_true]
  · rw [← hcontrol, ← hexec.stage]
    simp only [next, LoadStoreUnit.next, loadStoreIn, hM, if_true]
  · have hstore : s.x.storeOperandX = v1 := by
      rw [hexec.stage]
      rfl
    rw [← hcontrol, ← hstore]
    simp only [next, LoadStoreUnit.next, loadStoreIn, hM, if_true]
  · exact hraise _ (by rw [hexec.stage]; rfl) (by rw [hexec.stage]; rfl)

/-- What is read from the register file. -/
theorem archRegs_eq (r : Reg) :
    s.archRegs r = if s.rawW r then s.wResult else s.file.port0.ram r := by
  rw [archRegs, rawW]
  cases hen : s.writeEnableQW with
  | false => simp [RegWrite.apply, regWrite, hen]
  | true =>
      by_cases hidx : s.w.writeIdxW = r
      · subst hidx
        simp [RegWrite.apply, regWrite, hen]
      · have hne : (s.w.writeIdxW == r) = false := beq_eq_false_iff_ne.2 hidx
        simp [RegWrite.apply, regWrite, hen, hne, Function.update_of_ne (Ne.symm hidx)]

/-- The bypass network finds what a register will hold. -/
theorem bypass_next (h : s.Data imem) (hX : s.stallX p = false) (ht : s.branchTakenM p = false)
    (hr : (s.next p).redirects = false) {r : Reg} {regData : Word}
    (hreg : regData = s.file.port0.ram r)
    (hlockX : s.rawX p r = true → s.x.control.xBypassEnable = true)
    (hlockM : s.rawM r = true → s.m.mBypassEnableM = true) :
    s.bypassData p r regData = (s.next p).regsX r ∧
      ((s.next p).rawM r = true → (s.next p).m.mBypassEnableM = true) := by
  have hM := stallM_of_stallX hX
  have hstraight := redirects_of_moves hM ht
  have he : (s.xToM p).exceptionM = false := by
    rw [redirects, Bool.or_eq_false_iff, next_m, if_pos hM] at hr
    exact hr.2
  have hvalidM : (s.next p).validM = (s.validX && !s.killX p) := by rw [next_validM, if_pos hX]
  have hm : (s.next p).m = s.xToM p := by rw [next_m, if_pos hM]
  have hraw : (s.next p).rawM r = s.rawX p r := by
    rw [rawM, writeEnableQM, hvalidM, hm, rawX, writeEnableQX]
    cases hv : s.validX && !s.killX p with
    | false =>
        rw [killX] at hv
        rw [Bool.and_assoc, hv]
        simp
    | true =>
        have hv' := hv
        rw [killX] at hv'
        rw [xToM_eq (exceptionX_of_moves hX hv he), Bool.and_assoc, hv', Bool.and_true,
          Bool.and_true]
        rfl
  rw [bypassData, regsX, hraw]
  cases hx : s.rawX p r with
  | false =>
      rw [if_neg Bool.false_ne_true, if_neg Bool.false_ne_true, hreg, ← archRegs_eq]
      exact ⟨regsX_next h hM hstraight hlockM, fun hc => absurd hc (by decide)⟩
  | true =>
      have hbypass := hlockX hx
      rw [rawX, writeEnableQX, Bool.and_assoc, Bool.and_eq_true, Bool.and_eq_true] at hx
      have hexc := exceptionX_of_moves hX hx.2.2 he
      have hvalid : s.validX = true := (Bool.and_eq_true _ _ ▸ hx.2.2).1
      obtain ⟨i, hi⟩ := h.decoded hvalid
      rw [hi] at hbypass
      obtain ⟨hmb, hcompare, hshift⟩ := bypass_keeps (i.extractLsb' 26 6) hbypass
      have hresult : (s.next p).mResult = s.xResult p := by
        rw [mResult, hm, xToM_eq hexc]
        change (if s.x.control.mResultSelCompare then _
          else if s.x.control.mResultSelShift then _ else s.xResult p) = _
        rw [hi]
        change (if (control (i.extractLsb' 26 6)).mResultSelCompare then _
          else if (control (i.extractLsb' 26 6)).mResultSelShift then _ else s.xResult p) = _
        rw [hcompare, hshift]
        rfl
      rw [if_pos rfl, if_pos rfl, hresult, hm, xToM_eq hexc]
      refine ⟨rfl, fun _ => ?_⟩
      change s.x.control.mBypassEnable = true
      rw [hi]
      exact hmb

end Steps

namespace Data

variable {s p} {imem : Pc → Option Word}

/-- Nothing is in the pipeline after reset. -/
theorem of_afterReset (h : s.AfterReset) : s.Data imem := by
  obtain ⟨-, -, hmc, -, hrams, hvalid, hexc⟩ := h
  simp only [Bool.or_eq_false_iff] at hvalid
  obtain ⟨⟨⟨⟨-, hD⟩, hX⟩, hM⟩, -⟩ := hvalid
  constructor <;> simp [hD, hX, hM, hexc, hmc, hrams, McArithmetic.reset]

/-- What the D stage reads is in the register file. -/
theorem next_reading (h : s.Data imem) (hv : (s.next p).validD = true) :
    (s.next p).file.Holds (s.next p).file.port0.ram (s.next p).iu.instructionD := by
  have hfile : (s.next p).file =
      s.file.next s.regWrite (s.stallD p) s.iu.wbDataF s.iu.instructionD := rfl
  rw [ram_next, archRegs, hfile, next_instructionD]
  rw [next_validD] at hv
  cases hD : s.stallD p with
  | false => exact RegisterFile.holds_of_moves rfl h.rams.symm _ _
  | true =>
      have hvalid : s.validD = true := by
        split at hv
        · exact absurd hv (by decide)
        · simpa [hD] using hv
      exact (h.reading hvalid).waits _ _

/-- The X stage holds what it held or what was decoded. -/
theorem next_validX_cases (hv : (s.next p).validX = true) :
    (s.stallX p = true ∧ s.stallD p = true ∧ s.killX p = false ∧ s.branchTakenM p = false ∧
      s.validX = true) ∨
    (s.stallD p = false ∧ s.stallX p = false ∧ s.validD = true ∧ s.branchTakenM p = false) := by
  rw [next_validX] at hv
  rcases s.stall_cases p with ⟨-, hX, hD, ht, hk⟩ | ⟨-, hX, hD, ht, hk⟩ | ⟨-, hX, hD, -⟩ |
    ⟨-, hX, hD⟩
  · exact .inl ⟨hX, hD, hk, ht, by simpa [hD, hX, hk] using hv⟩
  · exact .inl ⟨hX, hD, hk, ht, by simpa [hD, hX, hk] using hv⟩
  · simp [hD, hX] at hv
  · rw [if_pos hD, Bool.and_eq_true, Bool.not_eq_true'] at hv
    exact .inr ⟨hD, hX, hv⟩

/-- The X stage holds the outputs of the decoder. -/
theorem next_decoded (h : s.Data imem) (hv : (s.next p).validX = true) :
    ∃ i, (s.next p).x.control = (decoder i).toControl := by
  rw [next_x]
  rcases next_validX_cases hv with ⟨hX, -, -, -, hvalid⟩ | ⟨-, hX, -, -⟩
  · simpa [hX] using h.decoded hvalid
  · exact ⟨s.iu.instructionD, by simp [hX]⟩

/-- The multiplier has the operands of the X stage. -/
theorem next_multiplying (h : s.Data imem) (hv : (s.next p).validX = true) :
    (s.next p).multiplier.muliplicand = (s.next p).x.operand0X ∧
      (s.next p).multiplier.multiplier = (s.next p).x.operand1X := by
  have hmul : (s.next p).multiplier = s.multiplier.next (s.stallX p) (s.stallM p)
      (dResult0 s.iu.instructionD s.iu.pcF (s.bypassData0 p))
      (dResult1 s.iu.instructionD (s.bypassData1 p)) := rfl
  rw [hmul, next_x, Multiplier.next]
  rcases next_validX_cases hv with ⟨hX, -, -, -, hvalid⟩ | ⟨-, hX, -, -⟩
  · simpa [hX] using h.multiplying hvalid
  · simp [hX, dToX]

/-- When the X stage moves on, the divider is done or is killed. -/
theorem mc_done (hX : s.stallX p = false) : s.mc.state = .IDLE ∨ s.killX p = true := by
  rw [stallX, Bool.or_eq_false_iff] at hX
  cases hk : s.killX p with
  | true => exact .inr rfl
  | false =>
      have hrequest : s.mc.stallRequestX = false := by simpa [hk] using hX.2
      exact .inl (by simpa [McArithmetic.stallRequestX] using hrequest)

/-- When a new instruction enters the X stage, the divider is done. -/
theorem mc_idle (h : s.Data imem) (hpath : s.Path imem) (hX : s.stallX p = false)
    (ht : s.branchTakenM p = false) : s.mc.state = .IDLE := by
  rcases mc_done hX with hidle | hkill
  · exact hidle
  · have hbubble := validX_of_flushed hpath (redirects_of_moves (stallM_of_stallX hX) ht) hkill
    exact h.idle (by rw [hbubble, Bool.false_and])

/-- The divider works for the instruction in the X stage. -/
theorem next_dividing (h : s.Data imem) (hpath : s.Path imem) (hv : (s.next p).validX = true)
    (harith : (s.next p).x.control.xResultSelMcArith = true) :
    Operation (s.next p).x.control.modulus (s.next p).x.operand0X (s.next p).x.operand1X
      (s.next p).mc := by
  have hmc : (s.next p).mc = s.mc.next (s.mcIn p) := rfl
  rw [next_x] at harith
  rw [next_x, hmc]
  rcases next_validX_cases hv with ⟨hX, hD, hk, -, hvalid⟩ | ⟨hD, hX, hvalid, ht⟩
  · rw [if_neg (by rw [hX]; decide)] at harith
    rw [if_neg (by rw [hX]; decide)]
    exact (h.dividing hvalid harith).next hk hD
  · rw [if_pos hX] at harith
    rw [if_pos hX]
    have hstart := (mcArith_starts (s.iu.instructionD.extractLsb' 26 6)).2
    have hmodulus : (s.mcIn p).modulusD = s.decoded.modulus := by simp [mcIn, hvalid, killD, ht]
    have hdivide : (s.mcIn p).divideD = s.decoded.divide := by simp [mcIn, hvalid, killD, ht]
    refine .inl ⟨0, McArithmetic.busy_start (mc_idle h hpath hX ht) hD hmodulus fun hmod => ?_⟩
    rw [hmodulus] at hmod
    rw [hdivide]
    change s.decoded.xResultSelMcArith = true at harith
    change s.decoded.xResultSelMcArith = (s.decoded.divide || s.decoded.modulus) at hstart
    rw [harith, hmod, Bool.or_false] at hstart
    exact hstart.symm

/-- The divider is idle unless the instruction in the X stage needs it. -/
theorem next_idle (h : s.Data imem)
    (hv : ((s.next p).validX && (s.next p).x.control.xResultSelMcArith) = false) :
    (s.next p).mc.state = .IDLE := by
  have hmc : (s.next p).mc = s.mc.next (s.mcIn p) := rfl
  rw [hmc]
  rw [next_validX, next_x] at hv
  rcases s.stall_cases p with ⟨-, hX, hD, ht, hk⟩ | ⟨-, hX, hD, ht, hk⟩ | ⟨-, hX, hD, -⟩ |
    ⟨-, hX, hD⟩
  · exact McArithmetic.next_idle (.inl (h.idle (by simpa [hX, hD, hk] using hv))) (.inl hD)
  · exact McArithmetic.next_idle (.inl (h.idle (by simpa [hX, hD, hk] using hv))) (.inl hD)
  · exact McArithmetic.next_idle (mc_done hX) (.inl hD)
  · refine McArithmetic.next_idle (mc_done hX) (.inr (.inr ?_))
    have hstart := (mcArith_starts (s.iu.instructionD.extractLsb' 26 6)).2
    rw [if_pos hD, if_pos hX] at hv
    change (s.validD && !s.branchTakenM p &&
      (control (s.iu.instructionD.extractLsb' 26 6)).xResultSelMcArith) = false at hv
    rw [hstart] at hv
    change (s.decoded.divide && s.validD && !s.branchTakenM p ||
      s.decoded.modulus && s.validD && !s.branchTakenM p) = false
    rw [Bool.and_assoc, Bool.and_assoc, ← Bool.and_or_distrib_right, Bool.and_comm]
    exact hv

/-- While the M stage waits, nothing changes there. -/
theorem regsX_waits (hM : s.stallM p = true) (r : Reg) : (s.next p).regsX r = s.regsX r := by
  have hX := stallX_of_stallM hM
  have hraw : (s.next p).rawM r = s.rawM r := by
    rw [rawM, writeEnableQM, next_validM, next_m, hM, hX]
    simp [rawM, writeEnableQM]
  have hshift : (s.next p).shifter = s.shifter := by simp [next, Shifter.next, hX]
  have hm : (s.next p).m = s.m := by simp [hM]
  rw [regsX, regsX, hraw, archRegs_waits hM, mResult, mResult, hm, hshift]

/-- The instruction in the X stage while it waits there. -/
theorem executing_waits (h : s.Data imem) (hX : s.stallX p = true) (hr : s.redirects = false)
    {i v0 v1 : Word} (hexec : s.Executing imem i v0 v1) :
    (s.next p).Executing imem i v0 v1 := by
  have hx : (s.next p).x = s.x := by simp [hX]
  have hpc : (s.next p).iu.pcX = s.iu.pcX := by simp [hX]
  cases hM : s.stallM p with
  | true =>
      have hraw : ∀ r, (s.next p).rawM r = s.rawM r := fun r => by
        rw [rawM, writeEnableQM, next_validM, next_m, hM, hX]
        simp [rawM, writeEnableQM]
      have hm : (s.next p).m = s.m := by simp [hM]
      refine ⟨?_, ?_, ⟨fun hread => ?_, fun hread => ?_⟩, ?_, ?_⟩
      all_goals rw [hpc] at *
      · exact hexec.fetched
      · rw [hx]
        exact hexec.stage
      · rw [regsX_waits hM]
        exact hexec.operands.first hread
      · rw [regsX_waits hM]
        exact hexec.operands.second hread
      · rw [hraw, hm]
        exact hexec.known0
      · rw [hraw, hm]
        exact hexec.known1
  | false =>
      -- The instruction before it is in the W stage now.
      have hraw : ∀ r, (s.next p).rawM r = false := fun r => by
        rw [rawM, writeEnableQM, next_validM, hM, hX]
        simp
      have hregs : ∀ r, (s.next p).regsX r = (s.next p).archRegs r := fun r => by
        rw [regsX, hraw, if_neg Bool.false_ne_true]
      refine ⟨?_, ?_, ⟨fun hread => ?_, fun hread => ?_⟩, ?_, ?_⟩
      all_goals rw [hpc] at *
      · exact hexec.fetched
      · rw [hx]
        exact hexec.stage
      · rw [hregs, hexec.operands.first hread]
        exact regsX_next h hM hr (hexec.known0 hread)
      · rw [hregs, hexec.operands.second hread]
        exact regsX_next h hM hr (hexec.known1 hread)
      · exact fun _ hc => absurd hc (by rw [hraw]; decide)
      · exact fun _ hc => absurd hc (by rw [hraw]; decide)

/-- An instruction enters the X stage with the operands it asked for. -/
theorem executing_enters (h : s.Data imem) (hpath : s.Path imem) (hD : s.stallD p = false)
    (hvalid : s.validD = true) (ht : s.branchTakenM p = false)
    (hr : (s.next p).redirects = false) (herr : s.iu.busErrorD = false) :
    (s.next p).Executing imem s.iu.instructionD (s.bypassData0 p) (s.bypassData1 p) := by
  have hX := stallX_of_stallD hD
  have hx : (s.next p).x = dToX s.iu.instructionD s.iu.pcD s.iu.pcF (s.bypassData0 p)
      (s.bypassData1 p) s.iu.busErrorD := by simp [hX]
  have hpc : (s.next p).iu.pcX = s.iu.pcD := by simp [hX]
  have hlock : s.interlock p = false := by
    simp only [stallD, Bool.or_eq_false_iff] at hD
    simpa [killD, ht] using hD.1.1.1.2
  simp only [interlock, Bool.or_eq_false_iff, Bool.and_eq_false_iff, Bool.not_eq_false'] at hlock
  obtain ⟨hlockX, hlockM⟩ := hlock
  have hfile := h.reading hvalid
  have h0 : s.decoded.readEnable0 = true →
      s.bypassData0 p = (s.next p).regsX s.decoded.readIdx0 ∧
        ((s.next p).rawM s.decoded.readIdx0 = true → (s.next p).m.mBypassEnableM = true) :=
    fun hread => bypass_next h hX ht hr hfile.regData0
      (fun hraw => hlockX.resolve_right fun hc => by simp [hread, hraw] at hc)
      (fun hraw => hlockM.resolve_right fun hc => by simp [hread, hraw] at hc)
  have h1 : s.decoded.readEnable1 = true →
      s.bypassData1 p = (s.next p).regsX s.decoded.readIdx1 ∧
        ((s.next p).rawM s.decoded.readIdx1 = true → (s.next p).m.mBypassEnableM = true) :=
    fun hread => bypass_next h hX ht hr hfile.regData1
      (fun hraw => hlockX.resolve_right fun hc => by simp [hread, hraw] at hc)
      (fun hraw => hlockM.resolve_right fun hc => by simp [hread, hraw] at hc)
  refine ⟨?_, ?_, ⟨fun hread => (h0 hread).1, fun hread => (h1 hread).1⟩,
    fun hread => (h0 hread).2, fun hread => (h1 hread).2⟩
  all_goals rw [hpc]
  · exact (hpath.instruction hvalid).resolve_left (by rw [herr]; decide)
  · rw [hx, hpath.pcF hvalid, herr]

/-- What is carried out in the X stage. -/
theorem next_executing (h : s.Data imem) (hpath : s.Path imem) (hv : (s.next p).validX = true)
    (hr : (s.next p).redirects = false) (herr : (s.next p).x.busErrorX = false) :
    ∃ i v0 v1, (s.next p).Executing imem i v0 v1 := by
  rw [next_x] at herr
  rcases next_validX_cases hv with ⟨hX, -, -, ht, hvalid⟩ | ⟨hD, hX, hvalid, ht⟩
  · rw [if_neg (by rw [hX]; decide)] at herr
    have hstraight : s.redirects = false := by
      cases hM : s.stallM p with
      | false => exact redirects_of_moves hM ht
      | true =>
          rw [redirects, branchMispredictTakenM, next_m, next_validM, hM, hX] at hr
          simpa [redirects, branchMispredictTakenM] using hr
    obtain ⟨i, v0, v1, hexec⟩ := h.executing hvalid hstraight herr
    exact ⟨i, v0, v1, executing_waits h hX hstraight hexec⟩
  · rw [if_pos hX] at herr
    exact ⟨_, _, _, executing_enters h hpath hD hvalid ht hr herr⟩

/-- What is completed in the M stage. -/
theorem next_completing (h : s.Data imem) (hv : (s.next p).validM = true)
    (he : (s.next p).m.exceptionM = false) :
    ∃ i v0 v1 csr mc, (s.next p).Completing imem i v0 v1 csr mc := by
  cases hX : s.stallX p with
  | false =>
      rw [next_validM, if_pos hX] at hv
      rw [next_m, if_pos (stallM_of_stallX hX)] at he
      exact completing_next h hX hv he
  | true =>
      cases hM : s.stallM p with
      | false => simp [hX, hM] at hv
      | true =>
          have hm : (s.next p).m = s.m := by simp [hM]
          have hpc : (s.next p).iu.pcM = s.iu.pcM := by simp [hM]
          have hregs : (s.next p).archRegs = s.archRegs := archRegs_waits hM
          have hshift : (s.next p).shifter = s.shifter := by simp [next, Shifter.next, hX]
          have hmul : (s.next p).multiplier.product = s.multiplier.product := by
            simp [next, Multiplier.next, hM]
          have hvalid : s.validM = true := by simpa [hX, hM] using hv
          rw [hm] at he
          obtain ⟨i, v0, v1, csr, mc, hc⟩ := h.completing hvalid he
          refine ⟨i, v0, v1, csr, mc, ?_, ?_, ?_, ?_, ?_, ?_, ?_, ?_, ?_, ?_, hc.executes⟩
          · rw [hpc]
            exact hc.fetched
          · rw [hm, hpc]
            exact hc.stage
          · rw [hregs]
            exact hc.operands
          · rw [hpc]
            exact hc.quotient
          · rw [hshift, hpc]
            exact hc.shifted
          · rw [hmul, hpc]
            exact hc.product
          · simpa [next, LoadStoreUnit.next, loadStoreIn, hM] using hc.sizeM
          · simpa [next, LoadStoreUnit.next, loadStoreIn, hM] using hc.signExtendM
          · rw [hpc]
            simpa [next, LoadStoreUnit.next, loadStoreIn, hM] using hc.byteEnableM
          · simpa [next, LoadStoreUnit.next, loadStoreIn, hM] using hc.storeDataM

/-- What an exception does in the M stage. -/
theorem next_excepting (h : s.Data imem) (he : (s.next p).m.exceptionM = true) :
    (s.next p).Excepting := by
  cases hM : s.stallM p with
  | true =>
      have hm : (s.next p).m = s.m := by simp [hM]
      rw [hm] at he
      obtain ⟨hw, hl, hu, hlink, hvector⟩ := h.excepting he
      exact ⟨by rw [hm]; exact hw, by rw [hm]; exact hl, by rw [hm]; exact hu,
        by rw [hm]; exact hlink, by rw [hm]; exact hvector⟩
  | false =>
      have hm : (s.next p).m = s.xToM p := by simp [hM]
      have hexc : s.exceptionX p = true := by
        rw [hm] at he
        simp only [xToM, Bool.and_eq_true] at he
        exact he.1.1
      refine ⟨?_, ?_, ?_, ?_, ?_⟩
      all_goals rw [hm]
      · simp [xToM, hexc]
      · simp [xToM, hexc]
      · simp [xToM, hexc]
      · cases hn : s.nonDebugExceptionX p with
        | true => exact .inl (by simp [xToM, hn])
        | false =>
            have hd : s.debugExceptionX p = true := by simpa [exceptionX, hn] using hexc
            exact .inr (by simp [xToM, hn, hd])
      · simp only [xToM, hexc, if_true]
        exact BitVec.extractLsb'_append_eq_right

/-- A cycle keeps the invariant. -/
theorem next (h : s.Data imem) (hpath : s.Path imem) : (s.next p).Data imem where
  rams := congrArg s.regWrite.apply h.rams
  reading := h.next_reading
  decoded := h.next_decoded
  multiplying := h.next_multiplying
  dividing := h.next_dividing hpath
  idle := h.next_idle
  executing := h.next_executing hpath
  completing := h.next_completing
  excepting := h.next_excepting

end Data

end Core

end Soc.Lm32
