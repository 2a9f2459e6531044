import Soc.Lm32.Divider
import Soc.Lm32.LoadStoreUnit
import Soc.Lm32.RegisterFile

/-!
# The LM32 core

`lm32_cpu.v` with the units it instantiates, as the board configures it: five stages without caches,
with `lm32_instruction_unit.v` as its first two. The two buses, the interrupt unit and the debug
unit are outside, and what they drive in a cycle is `Pins`.

The wires of the source are functions of the registers and the pins, in an order in which each
depends on earlier ones only. A valid bit tells whether a stage holds an instruction; the other
registers of a stage that is not valid hold whatever went by.
-/

namespace Soc.Lm32

open Library (Machine)

/-- What the environment drives in a cycle: the two Wishbone buses, `ext_break`, the outputs of
`lm32_interrupt` and `lm32_debug`, and the value of `'bx` where a CSR that does not exist is
read. -/
structure Pins where
  iDatI : Word
  iAckI : Bool
  iErrI : Bool
  dDatI : Word
  dAckI : Bool
  dErrI : Bool
  extBreak : Bool
  interruptException : Bool
  interruptCsrReadDataX : Word
  bpMatch : Bool
  wpMatch : Bool
  dcSs : Bool
  dcRe : Bool
  undefined : Word

section InstructionUnit

/-- The registers of `lm32_instruction_unit`. `i_stb_o` is `i_cyc_o`. -/
structure InstructionUnit where
  pcF : Pc
  pcD : Pc
  pcX : Pc
  pcM : Pc
  pcW : Pc
  iCycO : Bool
  iAdrO : Word
  wbDataF : Word
  busErrorF : Bool
  instructionD : Word
  busErrorD : Bool

/-- What the pipeline presents to the instruction unit. -/
structure InstructionIn where
  stallF : Bool
  stallD : Bool
  stallX : Bool
  stallM : Bool
  validD : Bool
  branchPredictTakenD : Bool
  branchPredictAddressD : Pc
  exceptionM : Bool
  branchTakenM : Bool
  branchMispredictTakenM : Bool
  branchTargetM : Pc

namespace InstructionUnit

/-- `rst_i`. The program counter is one behind `CFG_EBA_RESET`. -/
def reset : InstructionUnit where
  pcF := BitVec.allOnes 30
  pcD := 0
  pcX := 0
  pcM := 0
  pcW := 0
  iCycO := false
  iAdrO := 0
  wbDataF := 0
  busErrorF := false
  instructionD := 0
  busErrorD := false

variable (s : InstructionUnit) (i : InstructionIn) (p : Pins)

/-- `pc_a`. -/
def pcA : Pc :=
  if i.branchTakenM then
    if i.branchMispredictTakenM && !i.exceptionM then s.pcX else i.branchTargetM
  else if i.validD && i.branchPredictTakenD then i.branchPredictAddressD
  else s.pcF + 1

/-- A clock cycle. `stall_a` is `stall_f`. -/
def next : InstructionUnit where
  pcF := if i.stallF = false then s.pcA i else s.pcF
  pcD := if i.stallD = false then s.pcF else s.pcD
  pcX := if i.stallX = false then s.pcD else s.pcX
  pcM := if i.stallM = false then s.pcX else s.pcM
  pcW := s.pcM
  iCycO := if s.iCycO then !(p.iAckI || p.iErrI) else !i.stallF
  iAdrO := if !s.iCycO && !i.stallF then s.pcA i ++ 0#2 else s.iAdrO
  wbDataF := if s.iCycO && (p.iAckI || p.iErrI) then p.iDatI else s.wbDataF
  busErrorF := if s.iCycO then s.busErrorF || p.iErrI else s.busErrorF && i.stallF
  instructionD := if i.stallD = false then s.wbDataF else s.instructionD
  busErrorD := if i.stallD = false then s.busErrorF else s.busErrorD

end InstructionUnit

end InstructionUnit

/-- The D/X registers. `control` are the copies of decoder outputs, some of which the source does
not keep. -/
structure XStage where
  control : Control
  operand0X : Word
  operand1X : Word
  storeOperandX : Word
  branchTargetX : Pc
  branchPredictX : Bool
  branchPredictTakenX : Bool
  writeIdxX : Reg
  csrX : BitVec 5
  adderOpXN : Bool
  breakX : Bool
  scallX : Bool
  busErrorX : Bool
  eretX : Bool
  bretX : Bool

section Decode

/-- `branch_predict_d`. -/
def branchPredict (instructionD : Word) : Bool :=
  (decoder instructionD).biUnconditional || (decoder instructionD).biConditional

/-- `branch_predict_taken_d`. Backward conditional branches are predicted taken. -/
def branchPredictTaken (instructionD : Word) : Bool :=
  if (decoder instructionD).biUnconditional then true
  else if (decoder instructionD).biConditional then instructionD.getLsbD 15
  else false

/-- `branch_target_d`. -/
def branchTarget (instructionD : Word) (pcD : Pc) : Pc := pcD + (decoder instructionD).branchOffset

/-- `branch_predict_address_d`. -/
def branchPredictAddress (instructionD : Word) (pcD pcF : Pc) : Pc :=
  if branchPredictTaken instructionD then branchTarget instructionD pcD else pcF

/-- `d_result_0`. -/
def dResult0 (instructionD : Word) (pcF : Pc) (bypassData0 : Word) : Word :=
  if (decoder instructionD).dResultSel0 then pcF ++ 0#2 else bypassData0

/-- `d_result_1`. -/
def dResult1 (instructionD bypassData1 : Word) : Word :=
  match (decoder instructionD).dResultSel1 with
  | .ZERO => 0
  | .REG_1 => bypassData1
  | .IMMEDIATE => (decoder instructionD).immediate

/-- The D/X registers, when the X stage is not stalled. -/
def dToX (instructionD : Word) (pcD pcF : Pc) (bypassData0 bypassData1 : Word) (busErrorD : Bool) :
    XStage where
  control := (decoder instructionD).toControl
  operand0X := dResult0 instructionD pcF bypassData0
  operand1X := dResult1 instructionD bypassData1
  storeOperandX := bypassData1
  branchTargetX :=
    if (decoder instructionD).branchReg then bypassData0.extractLsb' 2 30
    else branchTarget instructionD pcD
  branchPredictX := branchPredict instructionD
  branchPredictTakenX := branchPredictTaken instructionD
  writeIdxX := (decoder instructionD).writeIdx
  csrX := (decoder instructionD).readIdx0
  adderOpXN := !(decoder instructionD).adderOp
  breakX := (decoder instructionD).breakOpcode
  scallX := (decoder instructionD).scall
  busErrorX := busErrorD
  eretX := (decoder instructionD).eret
  bretX := (decoder instructionD).bret

end Decode

namespace XStage

variable (x : XStage)

/-- The outputs of the adder. -/
def adderX : Adder := adder x.control.adderOp x.adderOpXN x.operand0X x.operand1X

/-- `x_result`. -/
def xResult (csrReadDataX mcResultX : Word) : Word :=
  if x.control.xResultSelAdd then x.adderX.resultX
  else if x.control.xResultSelCsr then csrReadDataX
  else if x.control.xResultSelSext then sextResult x.control.size x.operand0X
  else if x.control.xResultSelMcArith then mcResultX
  else logicOp x.control.logicOp x.operand0X x.operand1X

/-- `condition_met_x`. -/
def conditionMetX : Bool := conditionMet x.control.condition x.operand0X x.operand1X x.adderX

end XStage

/-- The X/M registers. -/
structure MStage where
  operandM : Word
  branchTargetM : Pc
  mResultSelCompareM : Bool
  mResultSelShiftM : Bool
  wResultSelLoadM : Bool
  wResultSelMulM : Bool
  mBypassEnableM : Bool
  loadM : Bool
  storeM : Bool
  branchM : Bool
  branchPredictM : Bool
  branchPredictTakenM : Bool
  writeIdxM : Reg
  writeEnableM : Bool
  conditionMetM : Bool
  debugExceptionM : Bool
  nonDebugExceptionM : Bool
  exceptionM : Bool
  dataBusErrorExceptionM : Bool

/-- The M/W registers. -/
structure WStage where
  operandW : Word
  wResultSelLoadW : Bool
  wResultSelMulW : Bool
  writeIdxW : Reg
  writeEnableW : Bool
  debugExceptionW : Bool
  nonDebugExceptionW : Bool

/-- The registers of the core. -/
structure Core where
  iu : InstructionUnit
  lsu : LoadStoreUnit
  mc : McArithmetic
  shifter : Shifter
  multiplier : Multiplier
  file : RegisterFile
  validF : Bool
  validD : Bool
  validX : Bool
  validM : Bool
  validW : Bool
  x : XStage
  m : MStage
  w : WStage
  memopPcW : Pc
  eba : BitVec 24
  deba : BitVec 24
  dataBusErrorSeen : Bool
  extBreakR : Bool

namespace Core

variable (s : Core) (p : Pins)

section Results

/-- The outputs of the decoder. -/
def decoded : Decoded := decoder s.iu.instructionD

/-- `cfg`. -/
def cfg : Word :=
  0x02#6 ++ 4#4 ++ 4#4 ++ 32#6 ++ 0b010100001111#12

/-- `csr_read_data_x`. -/
def csrReadDataX : Word :=
  match s.x.csrX with
  | 0x0 | 0x1 | 0x2 => p.interruptCsrReadDataX
  | 0x6 => cfg
  | 0x7 => s.eba ++ 0#8
  | 0x9 => s.deba ++ 0#8
  | 0xa => 0
  | _ => p.undefined

/-- `x_result`. -/
def xResult : Word := s.x.xResult (s.csrReadDataX p) s.mc.resultX

/-- `m_result`. -/
def mResult : Word :=
  if s.m.mResultSelCompareM then (BitVec.ofBool s.m.conditionMetM).setWidth 32
  else if s.m.mResultSelShiftM then s.shifter.resultM
  else s.m.operandM

/-- `w_result`. -/
def wResult : Word :=
  if s.w.wResultSelLoadW then
    loadData s.lsu.sizeW (s.w.operandW.extractLsb' 0 2) s.lsu.signExtendW s.lsu.dataW
  else if s.w.wResultSelMulW then s.multiplier.result
  else s.w.operandW

end Results

section Flow

/-- `stall_m`. -/
def stallM : Bool :=
  s.lsu.stallWbLoad ||
    s.lsu.dCycO && (s.m.storeM || s.x.control.store && p.interruptException || s.m.loadM ||
      s.x.control.load) ||
    s.iu.iCycO

/-- The branch in the M stage was predicted taken and is not. -/
def branchMispredictTakenM : Bool :=
  !s.m.conditionMetM && s.m.branchPredictM && s.m.branchPredictTakenM

/-- `branch_taken_m`. -/
def branchTakenM : Bool :=
  !s.stallM p && (s.m.branchM && s.validM &&
    (s.m.conditionMetM && !s.m.branchPredictTakenM || s.branchMispredictTakenM) || s.m.exceptionM)

/-- `branch_flushX_m`. -/
def branchFlushXM : Bool :=
  !s.stallM p && (s.m.branchM && s.validM && (s.m.conditionMetM || s.branchMispredictTakenM) ||
    s.m.exceptionM)

/-- `kill_f`. -/
def killF : Bool := s.validD && branchPredictTaken s.iu.instructionD || s.branchTakenM p

/-- `kill_d`. -/
def killD : Bool := s.branchTakenM p

/-- `kill_x`. -/
def killX : Bool := s.branchFlushXM p

/-- `stall_x`. -/
def stallX : Bool := s.stallM p || s.mc.stallRequestX && !s.killX p

/-- `q_x`. -/
def qX : Bool := s.validX && !s.killX p

/-- `load_q_x`. -/
def loadQX : Bool := s.x.control.load && s.qX p && !p.bpMatch

/-- `store_q_x`. -/
def storeQX : Bool := s.x.control.store && s.qX p && !p.bpMatch

/-- `q_m`. `kill_m` is never set. -/
def qM : Bool := s.validM && !s.m.exceptionM

/-- `load_q_m`. -/
def loadQM : Bool := s.m.loadM && s.qM

/-- `store_q_m`. -/
def storeQM : Bool := s.m.storeM && s.qM

/-- `write_enable_q_x`. -/
def writeEnableQX : Bool := s.x.control.writeEnable && s.validX && !s.branchFlushXM p

/-- `write_enable_q_m`. -/
def writeEnableQM : Bool := s.m.writeEnableM && s.validM

/-- `write_enable_q_w` and `reg_write_enable_q_w`. `kill_w` is never set. -/
def writeEnableQW : Bool := s.w.writeEnableW && s.validW

/-- `raw_x_0` and `raw_x_1`. -/
def rawX (readIdxD : Reg) : Bool := s.x.writeIdxX == readIdxD && s.writeEnableQX p

/-- `raw_m_0` and `raw_m_1`. -/
def rawM (readIdxD : Reg) : Bool := s.m.writeIdxM == readIdxD && s.writeEnableQM

/-- `raw_w_0` and `raw_w_1`. -/
def rawW (readIdxD : Reg) : Bool := s.w.writeIdxW == readIdxD && s.writeEnableQW

/-- `interlock`. -/
def interlock : Bool :=
  !s.x.control.xBypassEnable &&
      (s.decoded.readEnable0 && s.rawX p s.decoded.readIdx0 ||
        s.decoded.readEnable1 && s.rawX p s.decoded.readIdx1) ||
    !s.m.mBypassEnableM &&
      (s.decoded.readEnable0 && s.rawM s.decoded.readIdx0 ||
        s.decoded.readEnable1 && s.rawM s.decoded.readIdx1)

/-- An access to the data bus is under way or ahead. -/
def memoryBusy : Bool := s.loadQX p || s.loadQM || s.storeQX p || s.storeQM || s.lsu.dCycO

/-- `stall_d`, and so `stall_f` and `stall_a`. -/
def stallD : Bool :=
  s.stallX p || s.interlock p && !s.killD p ||
    (s.decoded.eret || s.decoded.scall || s.iu.busErrorD) && s.memoryBusy p && !s.killD p ||
    (s.decoded.breakOpcode || s.decoded.bret) && s.memoryBusy p && !s.killD p ||
    s.decoded.csrWriteEnable && s.loadQX p

end Flow

section Operands

/-- `bypass_data_0` and `bypass_data_1`. -/
def bypassData (readIdxD : Reg) (regData : Word) : Word :=
  if s.rawX p readIdxD then s.xResult p
  else if s.rawM readIdxD then s.mResult
  else if s.rawW readIdxD then s.wResult
  else regData

/-- `bypass_data_0`. -/
def bypassData0 : Word := s.bypassData p s.decoded.readIdx0 s.file.regData0

/-- `bypass_data_1`. -/
def bypassData1 : Word := s.bypassData p s.decoded.readIdx1 s.file.regData1

end Operands

section Exceptions

/-- `breakpoint_exception`. -/
def breakpointException : Bool := (s.x.breakX || p.bpMatch) && s.validX || s.extBreakR

/-- `instruction_bus_error_exception`. -/
def instructionBusErrorException : Bool := s.x.busErrorX && s.validX

/-- `system_call_exception`. -/
def systemCallException : Bool := s.x.scallX && s.validX

/-- `debug_exception_x`. -/
def debugExceptionX : Bool := s.breakpointException p || p.wpMatch

/-- `non_debug_exception_x`. -/
def nonDebugExceptionX : Bool :=
  s.systemCallException || s.instructionBusErrorException || s.dataBusErrorSeen ||
    s.mc.divideByZeroX || p.interruptException && !p.dcSs && !s.storeQM && !s.lsu.dCycO

/-- `exception_x`. -/
def exceptionX : Bool := s.debugExceptionX p || s.nonDebugExceptionX p

/-- `eid_x`. -/
def eidX : BitVec 3 :=
  if s.dataBusErrorSeen then 0x4
  else if s.breakpointException p then 1
  else if s.instructionBusErrorException then 0x2
  else if p.wpMatch then 3
  else if s.mc.divideByZeroX then 0x5
  else if p.interruptException && !p.dcSs then 0x6
  else 0x7

end Exceptions

section Next

/-- What the instruction unit sees. -/
def instructionIn : InstructionIn where
  stallF := s.stallD p
  stallD := s.stallD p
  stallX := s.stallX p
  stallM := s.stallM p
  validD := s.validD
  branchPredictTakenD := branchPredictTaken s.iu.instructionD
  branchPredictAddressD := branchPredictAddress s.iu.instructionD s.iu.pcD s.iu.pcF
  exceptionM := s.m.exceptionM
  branchTakenM := s.branchTakenM p
  branchMispredictTakenM := s.branchMispredictTakenM
  branchTargetM := s.m.branchTargetM

/-- What the load/store unit sees. -/
def loadStoreIn : LoadStoreIn where
  stallX := s.stallX p
  stallM := s.stallM p
  killM := false
  exceptionM := s.m.exceptionM
  storeOperandX := s.x.storeOperandX
  addressX := s.x.adderX.resultX
  addressM := s.m.operandM
  loadQX := s.loadQX p
  loadQM := s.loadQM
  storeQM := s.storeQM
  signExtendX := s.x.control.signExtend
  sizeX := s.x.control.size
  dDatI := p.dDatI
  dAckI := p.dAckI
  dErrI := p.dErrI

/-- What the divider sees. -/
def mcIn : McIn where
  stallD := s.stallD p
  killX := s.killX p
  divideD := s.decoded.divide && s.validD && !s.killD p
  modulusD := s.decoded.modulus && s.validD && !s.killD p
  operand0D := dResult0 s.iu.instructionD s.iu.pcF (s.bypassData0 p)
  operand1D := dResult1 s.iu.instructionD (s.bypassData1 p)

/-- What is written to the register file. -/
def regWrite : RegWrite := ⟨s.writeEnableQW, s.w.writeIdxW, s.wResult⟩

/-- The base of the vector table that an exception uses. -/
def exceptionBase : BitVec 24 :=
  if p.dcRe || s.debugExceptionX p && !s.nonDebugExceptionX p then s.deba else s.eba

/-- The X/M registers, when the M stage is not stalled. -/
def xToM : MStage where
  operandM := s.xResult p
  branchTargetM :=
    if s.exceptionX p then s.exceptionBase p ++ s.eidX p ++ 0#3 else s.x.branchTargetX
  mResultSelCompareM := s.x.control.mResultSelCompare
  mResultSelShiftM := s.x.control.mResultSelShift
  wResultSelLoadM := !s.exceptionX p && s.x.control.wResultSelLoad
  wResultSelMulM := !s.exceptionX p && s.x.control.wResultSelMul
  mBypassEnableM := s.x.control.mBypassEnable
  loadM := s.x.control.load
  storeM := s.x.control.store
  branchM := s.x.control.branch
  branchPredictM := s.x.branchPredictX
  branchPredictTakenM := s.x.branchPredictTakenX
  writeIdxM :=
    if s.nonDebugExceptionX p then EA_REG
    else if s.debugExceptionX p then BA_REG
    else s.x.writeIdxX
  writeEnableM := s.exceptionX p || s.x.control.writeEnable
  conditionMetM := s.x.conditionMetX
  debugExceptionM := s.debugExceptionX p
  nonDebugExceptionM := s.nonDebugExceptionX p
  exceptionM := s.exceptionX p && s.qX p && !s.stallX p
  dataBusErrorExceptionM := s.dataBusErrorSeen

/-- The M/W registers. -/
def mToW : WStage where
  operandW :=
    if s.m.exceptionM then
      if s.m.dataBusErrorExceptionM then s.memopPcW ++ 0#2 else s.iu.pcM ++ 0#2
    else s.mResult
  wResultSelLoadW := s.m.wResultSelLoadM
  wResultSelMulW := s.m.wResultSelMulM
  writeIdxW := s.m.writeIdxM
  writeEnableW := s.m.writeEnableM
  debugExceptionW := s.m.debugExceptionM
  nonDebugExceptionW := s.m.nonDebugExceptionM

/-- A `wcsr` of CSR `csr` leaves the X stage. -/
def writesCsr (csr : BitVec 5) : Bool :=
  s.x.control.csrWriteEnable && s.qX p && s.x.csrX == csr && !s.stallX p

/-- A clock cycle. -/
def next : Core where
  iu := s.iu.next (s.instructionIn p) p
  lsu := s.lsu.next (s.loadStoreIn p)
  mc := s.mc.next (s.mcIn p)
  shifter :=
    s.shifter.next (s.stallX p) s.x.control.direction s.x.control.signExtend s.x.operand0X
      s.x.operand1X
  multiplier :=
    s.multiplier.next (s.stallX p) (s.stallM p)
      (dResult0 s.iu.instructionD s.iu.pcF (s.bypassData0 p))
      (dResult1 s.iu.instructionD (s.bypassData1 p))
  file := s.file.next s.regWrite (s.stallD p) s.iu.wbDataF s.iu.instructionD
  validF := if s.killF p || !s.stallD p then true else s.validF
  validD :=
    if s.killD p then false
    else if s.stallD p = false then s.validF && !s.killF p
    else s.validD
  validX :=
    if s.stallD p = false then s.validD && !s.killD p
    else if s.killX p then false
    else if s.stallX p = false then false
    else s.validX
  validM :=
    if s.stallX p = false then s.validX && !s.killX p
    else if s.stallM p = false then false
    else s.validM
  validW := if s.stallM p = false then s.validM else false
  x :=
    if s.stallX p = false then
      dToX s.iu.instructionD s.iu.pcD s.iu.pcF (s.bypassData0 p) (s.bypassData1 p) s.iu.busErrorD
    else s.x
  m := if s.stallM p = false then s.xToM p else s.m
  w := s.mToW
  memopPcW :=
    if !s.stallM p && !s.dataBusErrorSeen && (s.loadQM || s.storeQM) then s.iu.pcM
    else s.memopPcW
  eba := if s.writesCsr p 0x7 then s.x.operand1X.extractLsb' 8 24 else s.eba
  deba := if s.writesCsr p 0x9 then s.x.operand1X.extractLsb' 8 24 else s.deba
  dataBusErrorSeen :=
    if s.m.exceptionM then false
    else s.dataBusErrorSeen || p.dErrI && s.lsu.dCycO
  extBreakR :=
    if s.w.debugExceptionW && s.validW then false
    else s.extBreakR || p.extBreak

end Next

/-- The state after `rst_i`. The registers of the register file are not reset, but its two memories
are always written together. -/
structure AfterReset (s : Core) : Prop where
  iu : s.iu = .reset
  lsu : s.lsu = .reset
  mc : s.mc = .reset
  multiplier : s.multiplier = .reset
  rams : s.file.port0.ram = s.file.port1.ram
  valid : (s.validF || s.validD || s.validX || s.validM || s.validW) = false
  exceptionM : s.m.exceptionM = false

/-- After `rst_i`, with 0 in all that the source does not reset. -/
def reset : Core where
  iu := .reset
  lsu := .reset
  mc := .reset
  shifter := .reset
  multiplier := .reset
  file := ⟨⟨fun _ => 0, 0, false, 0⟩, ⟨fun _ => 0, 0, false, 0⟩, false, 0⟩
  validF := false
  validD := false
  validX := false
  validM := false
  validW := false
  x := dToX 0 0 0 0 0 false
  m := ⟨0, 0, false, false, false, false, false, false, false, false, false, false, 0, false, false,
    false, false, false, false⟩
  w := ⟨0, false, false, 0, false, false, false⟩
  memopPcW := 0
  eba := 0
  deba := 0x100000
  dataBusErrorSeen := false
  extBreakR := false

/-- The state is one the core can be in after `rst_i`. -/
theorem afterReset_reset : reset.AfterReset := ⟨rfl, rfl, rfl, rfl, rfl, rfl, rfl⟩

end Core

/-- The core with a record of the transfers on its data bus that are over, oldest first. -/
structure Running where
  core : Core
  transfers : List Access

/-- A clock cycle, in which a transfer can be over. -/
def Running.next (s : Running) (p : Pins) : Running where
  core := s.core.next p
  transfers := s.transfers ++ (s.core.lsu.transfer (s.core.loadStoreIn p)).toList

/-- What is outside of the core: the instruction at each index where the program is, and the word a
read on the data bus is answered with, which can depend on all earlier transfers. A fetch from
anywhere else, which a branch that is predicted wrongly can ask for, may bring anything. -/
structure Outside where
  imem : Pc → Option Word
  answer : List Access → Word → BitVec 4 → Word

/-- A fetch from `pc` may bring `i`. -/
def Brings (imem : Pc → Option Word) (pc : Pc) (i : Word) : Prop := ∀ known ∈ imem pc, i = known

instance (imem : Pc → Option Word) (pc : Pc) (i : Word) : Decidable (Brings imem pc i) :=
  inferInstanceAs (Decidable (∀ known ∈ imem pc, i = known))

/-- The core in its system. Both buses may take as long as they like, and may end a transfer with an
error. -/
def lm32 (env : Outside) : Machine Running Pins where
  Initial s := s.core.AfterReset ∧ s.transfers = []
  Allowed s p :=
    (s.core.iu.iCycO = true → p.iAckI = true →
      Brings env.imem (s.core.iu.iAdrO.extractLsb' 2 30) p.iDatI) ∧
    (s.core.lsu.completes (s.core.loadStoreIn p) = true → s.core.lsu.dWeO = false →
      p.dDatI = env.answer s.transfers s.core.lsu.dAdrO s.core.lsu.dSelO)
  next := Running.next

instance (env : Outside) (s : Running) (p : Pins) : Decidable ((lm32 env).Allowed s p) :=
  inferInstanceAs (Decidable ((_ → _ → _) ∧ (_ → _ → _)))

end Soc.Lm32
