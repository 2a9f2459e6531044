import Soc.Lm32.ControlRegisters

/-!
# The interrupt unit of the LM32

`lm32_interrupt.v` next to the core. The unit acts on what leaves the X stage and on exceptions in
the W stage, while an instruction is carried out when it leaves the M stage. `before` remembers what
the control registers were when the instruction in the M stage left the X stage, so that `committed`
is what the instructions that have been carried out have made of them. The two together refine
`privileged`. As on the board, no fetch ends with a bus error.
-/

namespace Soc.Lm32

open Library (Machine)

/-- The registers of `lm32_interrupt`. -/
structure InterruptUnit where
  ie : Bool
  eie : Bool
  bie : Bool
  ip : Word
  im : Word

/-- The inputs of `lm32_interrupt`. -/
structure InterruptIn where
  interrupt : Word
  stallX : Bool
  nonDebugException : Bool
  debugException : Bool
  eretQX : Bool
  bretQX : Bool
  csr : BitVec 5
  csrWriteData : Word
  csrWriteEnable : Bool

namespace InterruptUnit

variable (s : InterruptUnit) (i : InterruptIn)

/-- `interrupt_exception`. -/
def interruptException : Bool := s.ip &&& s.im != 0 && s.ie

/-- `asserted`. -/
def asserted : Word := s.ip ||| i.interrupt

/-- `csr_read_data`. -/
def csrReadData (csr : BitVec 5) (undefined : Word) : Word :=
  if csr = CSR_IE then 0#29 ++ BitVec.ofBool s.bie ++ BitVec.ofBool s.eie ++ BitVec.ofBool s.ie
  else if csr = CSR_IP then s.ip
  else if csr = CSR_IM then s.im
  else undefined

/-- A clock cycle. -/
def next : InterruptUnit :=
  let latched := { s with ip := s.asserted i }
  if i.nonDebugException then { latched with eie := s.ie, ie := false }
  else if i.debugException then { latched with bie := s.ie, ie := false }
  else if i.stallX then latched
  else if i.eretQX then { latched with ie := s.eie }
  else if i.bretQX then { latched with ie := s.bie }
  else if i.csrWriteEnable then
    { ie := if i.csr = CSR_IE then i.csrWriteData.getLsbD 0 else s.ie
      eie := if i.csr = CSR_IE then i.csrWriteData.getLsbD 1 else s.eie
      bie := if i.csr = CSR_IE then i.csrWriteData.getLsbD 2 else s.bie
      ip := if i.csr = CSR_IP then s.asserted i &&& ~~~i.csrWriteData else s.asserted i
      im := if i.csr = CSR_IM then i.csrWriteData else s.im }
  else latched

variable {s i}

/-- The unit only latches interrupts while nothing is to be done. -/
theorem next_quiet (hn : i.nonDebugException = false) (hd : i.debugException = false)
    (h : i.stallX = true ∨ i.eretQX = false ∧ i.bretQX = false ∧ i.csrWriteEnable = false) :
    s.next i = { s with ip := s.asserted i } := by
  rw [next, hn, hd]
  rcases h with hX | ⟨he, hb, hw⟩
  · rw [hX]
    rfl
  · rw [he, hb, hw]
    cases i.stallX <;> rfl

end InterruptUnit

/-- What comes from outside: the pins of the core, of which the unit drives two, and the interrupt
lines. -/
structure Lines where
  pins : Pins
  interrupt : Word

/-- The core with the interrupt unit. `before` is bookkeeping. -/
structure Interruptible where
  running : Running
  interruptUnit : InterruptUnit
  before : ControlRegisters

/-- An exception is in the W stage, where the interrupt unit sees it. -/
def Core.excepted (s : Core) : Bool :=
  s.validW && (s.w.nonDebugExceptionW || s.w.debugExceptionW)

namespace Interruptible

variable (s : Interruptible) (l : Lines)

/-- The pins of the core. -/
def pins : Pins :=
  { l.pins with
    interruptException := s.interruptUnit.interruptException
    interruptCsrReadDataX :=
      s.interruptUnit.csrReadData s.running.core.x.csrX l.pins.undefined }

/-- What the interrupt unit sees. -/
def interruptIn : InterruptIn where
  interrupt := l.interrupt
  stallX := s.running.core.stallX (s.pins l)
  nonDebugException := s.running.core.w.nonDebugExceptionW && s.running.core.validW
  debugException := s.running.core.w.debugExceptionW && s.running.core.validW
  eretQX := s.running.core.x.eretX && s.running.core.qX (s.pins l)
  bretQX := s.running.core.x.bretX && s.running.core.qX (s.pins l)
  csr := s.running.core.x.csrX
  csrWriteData := s.running.core.x.operand1X
  csrWriteEnable := s.running.core.x.control.csrWriteEnable && s.running.core.qX (s.pins l)

/-- What the control registers hold. -/
def registers : ControlRegisters where
  ie := s.interruptUnit.ie
  eie := s.interruptUnit.eie
  bie := s.interruptUnit.bie
  im := s.interruptUnit.im
  eba := s.running.core.eba
  deba := s.running.core.deba

/-- A clock cycle. -/
def next : Interruptible where
  running := s.running.next (s.pins l)
  interruptUnit := s.interruptUnit.next (s.interruptIn l)
  before := if s.running.core.stallX (s.pins l) then s.before else s.registers

/-- The control registers as the instructions that have left the M stage have left them. -/
def committed : ControlRegisters :=
  if s.running.core.validM then s.before
  else if s.running.core.excepted then s.registers.raise s.running.core.w.nonDebugExceptionW
  else s.registers

end Interruptible

/-- The core with its interrupt unit, without bus errors on fetches. -/
def interruptible (env : Outside) : Machine Interruptible Lines where
  Initial s :=
    (lm32 env).Initial s.running ∧ s.interruptUnit = ⟨false, false, false, 0, 0⟩
  Allowed s l := (lm32 env).Allowed s.running (s.pins l) ∧ l.pins.iErrI = false
  next := Interruptible.next

/-- The opcodes that change control registers. -/
theorem csr_ofOpcode : ∀ opcode,
    (control opcode).opB = decide (Kind.ofOpcode opcode = .b) ∧
      (control opcode).csrWriteEnable = decide (Kind.ofOpcode opcode = .wcsr) ∧
      (Kind.ofOpcode opcode = .wcsr →
        (control opcode).dResultSel1 = .REG_1 ∧ (control opcode).readEnable1 = true) := by
  decide +kernel

namespace Interruptible

variable {s : Interruptible} {l : Lines} {env : Outside}

section Next

/-! The registers after a cycle. -/

variable (s l)

theorem next_before : (s.next l).before =
    if s.running.core.stallX (s.pins l) then s.before else s.registers := rfl

theorem next_pcM : (s.next l).running.core.iu.pcM =
    if s.running.core.stallM (s.pins l) = false then s.running.core.iu.pcX
    else s.running.core.iu.pcM := rfl

theorem next_m : (s.next l).running.core.m =
    if s.running.core.stallM (s.pins l) = false then s.running.core.xToM (s.pins l)
    else s.running.core.m := rfl

theorem next_eba : (s.next l).running.core.eba =
    if s.running.core.writesCsr (s.pins l) CSR_EBA then
      s.running.core.x.operand1X.extractLsb' 8 24
    else s.running.core.eba := rfl

theorem next_deba : (s.next l).running.core.deba =
    if s.running.core.writesCsr (s.pins l) CSR_DEBA then
      s.running.core.x.operand1X.extractLsb' 8 24
    else s.running.core.deba := rfl

variable {s l}

/-- No CSR is written while no instruction leaves the X stage. -/
theorem writesCsr_waits
    (hno : s.running.core.stallX (s.pins l) = true ∨ s.running.core.qX (s.pins l) = false)
    (csr : BitVec 5) : s.running.core.writesCsr (s.pins l) csr = false := by
  rw [Core.writesCsr]
  rcases hno with hX | hq
  · rw [hX, Bool.not_true, Bool.and_false]
  · rw [hq, Bool.and_false, Bool.false_and, Bool.false_and]

/-- The bases of the vector tables stay while no instruction leaves the X stage. -/
theorem bases_wait
    (hno : s.running.core.stallX (s.pins l) = true ∨ s.running.core.qX (s.pins l) = false) :
    (s.next l).running.core.eba = s.running.core.eba ∧
      (s.next l).running.core.deba = s.running.core.deba := by
  rw [next_eba, next_deba, writesCsr_waits hno, writesCsr_waits hno]
  exact ⟨rfl, rfl⟩

end Next

section Registers

/-- An exception in the W stage saves and clears the interrupt enable. -/
theorem registers_excepted (he : s.running.core.excepted = true)
    (hq : s.running.core.qX (s.pins l) = false) :
    (s.next l).registers = s.registers.raise s.running.core.w.nonDebugExceptionW := by
  rw [Core.excepted, Bool.and_eq_true] at he
  obtain ⟨hv, hw⟩ := he
  obtain ⟨heba, hdeba⟩ := bases_wait (.inr hq)
  rw [registers, heba, hdeba]
  cases hn : s.running.core.w.nonDebugExceptionW with
  | true => simp [next, InterruptUnit.next, interruptIn, hn, hv, registers, ControlRegisters.raise]
  | false =>
      have hd : s.running.core.w.debugExceptionW = true := by simpa [hn] using hw
      simp [next, InterruptUnit.next, interruptIn, hn, hd, hv, registers, ControlRegisters.raise]

/-- Without one the interrupt unit sees no exception. -/
theorem interruptIn_quiet (l : Lines) (he : s.running.core.excepted = false) :
    (s.interruptIn l).nonDebugException = false ∧ (s.interruptIn l).debugException = false := by
  rw [Core.excepted] at he
  cases hv : s.running.core.validW with
  | false => simp [interruptIn, hv]
  | true => simpa [interruptIn, hv] using he

/-- The control registers stay while no instruction leaves the X stage. -/
theorem registers_waits (he : s.running.core.excepted = false)
    (hno : s.running.core.stallX (s.pins l) = true ∨ s.running.core.qX (s.pins l) = false) :
    (s.next l).registers = s.registers := by
  obtain ⟨heba, hdeba⟩ := bases_wait hno
  have hnone := interruptIn_quiet l he
  have hunit : (s.next l).interruptUnit =
      { s.interruptUnit with ip := s.interruptUnit.asserted (s.interruptIn l) } := by
    refine InterruptUnit.next_quiet hnone.1 hnone.2 (hno.imp id fun hq => ?_)
    change (_ && _) = false ∧ (_ && _) = false ∧ (_ && _) = false
    rw [hq, Bool.and_false, Bool.and_false, Bool.and_false]
    exact ⟨rfl, rfl, rfl⟩
  rw [registers, heba, hdeba, hunit]
  rfl

/-- The data of a `wcsr` is the register it names. -/
theorem operand1X_of_wcsr {i v0 v1 : Word} {pcD pcF : Pc} {regs : Reg → Word}
    (hk : kind i = .wcsr) (hx : s.running.core.x = dToX i pcD pcF v0 v1 false)
    (hv : (decoder i).readEnable1 = true → v1 = regs (reg1 i)) :
    s.running.core.x.operand1X = regs (reg1 i) := by
  obtain ⟨hsel, hread⟩ := (csr_ofOpcode (i.extractLsb' 26 6)).2.2 hk
  have hregister : (decoder i).dResultSel1 = .REG_1 := hsel
  rw [hx, ← hv hread]
  change dResult1 i v1 = v1
  rw [dResult1, hregister]

/-- A `wcsr` that leaves the X stage writes the CSR it names. -/
theorem writesCsr_leaves (hX : s.running.core.stallX (s.pins l) = false)
    (hq : s.running.core.qX (s.pins l) = true) {i v0 v1 : Word} {pcD pcF : Pc}
    (hx : s.running.core.x = dToX i pcD pcF v0 v1 false) (csr : BitVec 5) :
    s.running.core.writesCsr (s.pins l) csr = (decide (kind i = .wcsr) && reg0 i == csr) := by
  obtain ⟨-, hwcsr, -⟩ := csr_ofOpcode (i.extractLsb' 26 6)
  rw [Core.writesCsr, hq, hX, hx]
  change ((control _).csrWriteEnable && true && reg0 i == csr && !false) = _
  rw [hwcsr, Bool.and_true, Bool.not_false, Bool.and_true]
  rfl

/-- What the interrupt unit sees of an instruction in the X stage. -/
theorem interruptIn_valid (hq : s.running.core.qX (s.pins l) = true) {i v0 v1 : Word}
    {pcD pcF : Pc} (hx : s.running.core.x = dToX i pcD pcF v0 v1 false) :
    (s.interruptIn l).eretQX = (decide (kind i = .b) && reg0 i == EA_REG) ∧
      (s.interruptIn l).bretQX = (decide (kind i = .b) && reg0 i == BA_REG) ∧
      (s.interruptIn l).csrWriteEnable = decide (kind i = .wcsr) := by
  obtain ⟨hb, hwcsr, -⟩ := csr_ofOpcode (i.extractLsb' 26 6)
  change (s.running.core.x.eretX && s.running.core.qX (s.pins l)) = _ ∧
    (s.running.core.x.bretX && s.running.core.qX (s.pins l)) = _ ∧
    (s.running.core.x.control.csrWriteEnable && s.running.core.qX (s.pins l)) = _
  rw [hq, hx, Bool.and_true, Bool.and_true, Bool.and_true]
  exact ⟨congrArg (· && reg0 i == EA_REG) hb, congrArg (· && reg0 i == BA_REG) hb, hwcsr⟩

/-- An instruction that leaves the X stage has its effect on the control registers. -/
theorem registers_leaves (he : s.running.core.excepted = false)
    (hX : s.running.core.stallX (s.pins l) = false) (hq : s.running.core.qX (s.pins l) = true)
    {i v0 v1 : Word} {pcD pcF : Pc} {regs : Reg → Word}
    (hx : s.running.core.x = dToX i pcD pcF v0 v1 false)
    (hv : (decoder i).readEnable1 = true → v1 = regs (reg1 i)) :
    (s.next l).registers = s.registers.execute i regs := by
  have hnone := interruptIn_quiet l he
  obtain ⟨heret, hbret, henable⟩ := interruptIn_valid hq hx
  have hcsr : (s.interruptIn l).csr = reg0 i := congrArg XStage.csrX hx
  have hstall : (s.interruptIn l).stallX = false := hX
  have hunit : (s.next l).interruptUnit = s.interruptUnit.next (s.interruptIn l) := rfl
  rw [registers, next_eba, next_deba, writesCsr_leaves hX hq hx, writesCsr_leaves hX hq hx, hunit,
    InterruptUnit.next, hnone.1, hnone.2, hstall, heret, hbret, henable, hcsr,
    ControlRegisters.execute]
  cases hk : kind i with
  | b =>
      by_cases hea : reg0 i = EA_REG
      · simp [hea, registers]
      · by_cases hba : reg0 i = BA_REG
        · simp [hba, registers, show ¬ BA_REG = EA_REG by decide]
        · simp [hea, hba, registers]
  | wcsr =>
      have hdata := operand1X_of_wcsr hk hx hv
      have hwritten : (s.interruptIn l).csrWriteData = regs (reg1 i) := hdata
      simp [hdata, hwritten, ControlRegisters.write, registers]
  | alu _ _ | load _ _ | store _ | branch _ | bi | call | calli | raise | rcsr =>
      simp [registers]

end Registers

/-- What an exception in the M stage was raised with. -/
structure Raised (c : ControlRegisters) (m : MStage) : Prop where
  link : (m.writeIdxM == EA_REG) = m.nonDebugExceptionM
  base : (m.branchTargetM.extractLsb' 3 27).extractLsb' 3 24 = c.deba ∨
    m.writeIdxM = EA_REG ∧ (m.branchTargetM.extractLsb' 3 27).extractLsb' 3 24 = c.eba
  interrupt : (m.branchTargetM.extractLsb' 3 27).extractLsb' 0 3 = EID_INTERRUPT →
    m.writeIdxM = EA_REG ∧ c.ie = true ∧ c.im ≠ 0

/-- The parts of the address of a vector. -/
theorem vector_parts (base : BitVec 24) (eid : BitVec 3) :
    ((base ++ eid ++ 0#3 : Pc).extractLsb' 3 27).extractLsb' 3 24 = base ∧
      ((base ++ eid ++ 0#3 : Pc).extractLsb' 3 27).extractLsb' 0 3 = eid := by
  have hvector : (base ++ eid ++ 0#3 : Pc).extractLsb' 3 27 = base ++ eid :=
    BitVec.extractLsb'_append_eq_left
  rw [hvector]
  exact ⟨BitVec.extractLsb'_append_eq_left, BitVec.extractLsb'_append_eq_right⟩

/-- Only an interrupt has the identifier of one. -/
theorem interrupt_of_eidX {core : Core} {p : Pins} (h : core.eidX p = EID_INTERRUPT) :
    core.debugExceptionX p = false ∧ p.interruptException = true := by
  rw [Core.eidX] at h
  split at h
  · exact absurd h (by decide)
  · split at h
    · exact absurd h (by decide)
    · rename_i hbreak
      split at h
      · exact absurd h (by decide)
      · split at h
        · exact absurd h (by decide)
        · rename_i hwatch
          split at h
          · exact absurd h (by decide)
          · split at h
            · rename_i hpin
              rw [Bool.and_eq_true] at hpin
              refine ⟨?_, hpin.1⟩
              rw [Core.debugExceptionX, Bool.or_eq_false_iff]
              exact ⟨Bool.eq_false_iff.2 hbreak, Bool.eq_false_iff.2 hwatch⟩
            · exact absurd h (by decide)

/-- The unit interrupts only when interrupts are enabled and not all masked. -/
theorem interrupt_enabled (h : (s.pins l).interruptException = true) :
    s.registers.ie = true ∧ s.registers.im ≠ 0 := by
  change (s.interruptUnit.ip &&& s.interruptUnit.im != 0 && s.interruptUnit.ie) = true at h
  rw [Bool.and_eq_true, bne_iff_ne] at h
  refine ⟨h.2, fun hmask => h.1 ?_⟩
  rw [show s.interruptUnit.im = 0 from hmask]
  exact BitVec.and_zero

section Cycle

/-- An exception leaves the X stage with what the interrupt unit and the control registers say. -/
theorem raised_leaves (he : s.running.core.exceptionX (s.pins l) = true) :
    Raised s.registers (s.running.core.xToM (s.pins l)) := by
  have htarget : (s.running.core.xToM (s.pins l)).branchTargetM =
      s.running.core.exceptionBase (s.pins l) ++ s.running.core.eidX (s.pins l) ++ 0#3 := by
    simp [Core.xToM, he]
  have hlink : (s.running.core.xToM (s.pins l)).writeIdxM =
      if s.running.core.nonDebugExceptionX (s.pins l) then EA_REG else BA_REG := by
    cases hn : s.running.core.nonDebugExceptionX (s.pins l) with
    | true => simp [Core.xToM, hn]
    | false =>
        have hd : s.running.core.debugExceptionX (s.pins l) = true := by
          simpa [Core.exceptionX, hn] using he
        simp [Core.xToM, hn, hd]
  obtain ⟨hbase, heid⟩ := vector_parts (s.running.core.exceptionBase (s.pins l))
    (s.running.core.eidX (s.pins l))
  refine ⟨?_, ?_, fun h => ?_⟩
  · rw [hlink]
    change _ = s.running.core.nonDebugExceptionX (s.pins l)
    cases s.running.core.nonDebugExceptionX (s.pins l) <;> decide
  · rw [htarget, hbase, hlink, Core.exceptionBase]
    split
    · exact .inl rfl
    · rename_i hdeba
      refine .inr ⟨?_, rfl⟩
      cases hn : s.running.core.nonDebugExceptionX (s.pins l) with
      | true => rfl
      | false =>
          have hd : s.running.core.debugExceptionX (s.pins l) = true := by
            simpa [Core.exceptionX, hn] using he
          simp [hd, hn] at hdeba
  · rw [htarget, heid] at h
    obtain ⟨hnone, hpin⟩ := interrupt_of_eidX h
    have hn : s.running.core.nonDebugExceptionX (s.pins l) = true := by
      simpa [Core.exceptionX, hnone] using he
    refine ⟨by rw [hlink, hn, if_pos rfl], interrupt_enabled hpin⟩

/-- The M stage holds what it held or what has left the X stage. -/
theorem next_validM_cases {core : Core} {p : Pins} (hv : (core.next p).validM = true) :
    (core.stallX p = false ∧ core.stallM p = false ∧ core.qX p = true) ∨
      (core.stallX p = true ∧ core.stallM p = true ∧ core.validM = true) := by
  rw [Core.next_validM] at hv
  cases hX : core.stallX p with
  | false =>
      rw [hX, if_pos rfl] at hv
      exact .inl ⟨rfl, Core.stallM_of_stallX hX, hv⟩
  | true =>
      cases hM : core.stallM p with
      | false => simp [hX, hM] at hv
      | true => exact .inr ⟨rfl, rfl, by simpa [hX, hM] using hv⟩

/-- The result of a `rcsr` in the X stage. -/
theorem xResult_csr {x : XStage} {csr mc : Word} (h : x.control.source = .csr) :
    x.xResult csr mc = csr := by
  rw [Control.source] at h
  split_ifs at h with hl hm hc hs ha hcsr
  rw [XStage.xResult, if_neg ha, if_pos hcsr]

/-- What a `rcsr` leaves the X stage with. -/
theorem operandX_of_rcsr {i v0 v1 v : Word} {pcD pcF : Pc} (hk : kind i = .rcsr)
    (hx : s.running.core.x = dToX i pcD pcF v0 v1 false)
    (hread : v ∈ s.registers.read (reg0 i)) :
    (s.running.core.xToM (s.pins l)).operandM = v := by
  have hd := decodes_kind i
  rw [hk] at hd
  have hsource : s.running.core.x.control.source = .csr := by
    rw [hx]
    exact hd.1
  have hcsr : s.running.core.x.csrX = reg0 i := congrArg XStage.csrX hx
  change s.running.core.x.xResult _ _ = v
  rw [xResult_csr hsource, Core.csrReadDataX, hcsr]
  have hpin : (s.pins l).interruptCsrReadDataX =
      s.interruptUnit.csrReadData (reg0 i) l.pins.undefined := by
    rw [← hcsr]
    rfl
  rw [hpin]
  rw [ControlRegisters.read] at hread
  split at hread
  · rename_i hie
    rw [hie]
    exact Option.some.inj hread
  · split at hread
    · rename_i him
      rw [him]
      exact Option.some.inj hread
    · split at hread
      · rename_i heba
        rw [heba]
        exact Option.some.inj hread
      · split at hread
        · rename_i hdeba
          rw [hdeba]
          exact Option.some.inj hread
        · exact absurd hread (Option.not_mem_none v)

end Cycle

/-- The invariant of the core with its interrupt unit. Behind an exception the pipeline is empty,
and what is in the M stage has had its effect on the control registers already, from `before`. -/
structure Precise (env : Outside) (s : Interruptible) : Prop where
  valid : s.running.Valid env
  busErrorF : s.running.core.iu.busErrorF = false
  busErrorD : s.running.core.iu.busErrorD = false
  busErrorX : s.running.core.validX = true → s.running.core.x.busErrorX = false
  flushed : s.running.core.excepted = true →
    s.running.core.validM = false ∧ s.running.core.validX = false
  excepts : s.running.core.validM = true → s.running.core.m.exceptionM =
    (s.running.core.m.nonDebugExceptionM || s.running.core.m.debugExceptionM)
  applied : s.running.core.validM = true → ∀ i ∈ env.imem s.running.core.iu.pcM,
    s.registers = s.before.execute i s.running.core.archRegs
  reads : s.running.core.validM = true → s.running.core.m.exceptionM = false →
    ∀ i ∈ env.imem s.running.core.iu.pcM, kind i = .rcsr → ∀ v ∈ s.before.read (reg0 i),
      s.running.core.m.operandM = v
  raised : s.running.core.validM = true → s.running.core.m.exceptionM = true →
    Raised s.before s.running.core.m

namespace Precise

/-- Nothing is in the pipeline after reset. -/
theorem of_initial (h : (interruptible env).Initial s) : s.Precise env := by
  obtain ⟨hinit, -⟩ := h
  have hvalid := hinit.1.valid
  simp only [Bool.or_eq_false_iff] at hvalid
  obtain ⟨⟨⟨-, hX⟩, hM⟩, hW⟩ := hvalid
  refine ⟨.initial hinit, ?_, ?_, ?_, ?_, ?_, ?_, ?_, ?_⟩
  all_goals simp [hX, hM, hW, hinit.1.iu, InstructionUnit.reset, Core.excepted]

/-- An exception in the M stage leaves the earlier stages empty. -/
theorem next_flushed (h : s.Precise env) (he : (s.next l).running.core.excepted = true) :
    (s.next l).running.core.validM = false ∧ (s.next l).running.core.validX = false := by
  change ((s.running.core.next (s.pins l)).validW && (s.running.core.m.nonDebugExceptionM ||
    s.running.core.m.debugExceptionM)) = true at he
  rw [Bool.and_eq_true, Core.next_validW] at he
  obtain ⟨hW, hraised⟩ := he
  cases hM : s.running.core.stallM (s.pins l) with
  | true => simp [hM] at hW
  | false =>
      rw [hM, if_pos rfl] at hW
      rw [← h.excepts hW] at hraised
      have ht : s.running.core.branchTakenM (s.pins l) = true := by
        rw [Core.branchTakenM_eq, hM, Core.redirects, hraised, Bool.or_true]
        rfl
      have hkill := Core.killX_of_branchTakenM ht
      have hX := Core.stallX_of_killX hkill
      have hD := Core.stallD_of_branchTakenM ht
      change (s.running.core.next (s.pins l)).validM = false ∧
        (s.running.core.next (s.pins l)).validX = false
      rw [Core.next_validM, Core.next_validX, hX, hD, ht, hkill]
      exact ⟨by simp, by simp⟩

/-- What is executed in the X stage when it leaves it. -/
theorem leaves (h : s.Precise env) (hM : s.running.core.stallM (s.pins l) = false)
    (hq : s.running.core.qX (s.pins l) = true) :
    ∃ i v0 v1, Brings env.imem s.running.core.iu.pcX i ∧
      s.running.core.x =
        dToX i s.running.core.iu.pcX (s.running.core.iu.pcX + 1) v0 v1 false ∧
      ((decoder i).readEnable1 = true →
        v1 = (s.next l).running.core.archRegs (reg1 i)) := by
  rw [Core.qX, Bool.and_eq_true, Bool.not_eq_true'] at hq
  obtain ⟨hvalid, hkill⟩ := hq
  have ht : s.running.core.branchTakenM (s.pins l) = false := Bool.eq_false_iff.2 fun ht =>
    absurd (Core.killX_of_branchTakenM ht) (by rw [hkill]; decide)
  have hr := Core.redirects_of_moves hM ht
  obtain ⟨i, v0, v1, hexec⟩ := h.valid.data.executing hvalid hr (h.busErrorX hvalid)
  refine ⟨i, v0, v1, hexec.fetched, hexec.stage, fun hread => ?_⟩
  rw [hexec.operands.second hread]
  exact Core.regsX_next h.valid.data hM hr (hexec.known1 hread)

/-- An instruction that leaves the X stage has its effect on the control registers. -/
theorem next_applied (h : s.Precise env) (hv : (s.next l).running.core.validM = true) :
    ∀ i ∈ env.imem (s.next l).running.core.iu.pcM,
      (s.next l).registers = (s.next l).before.execute i (s.next l).running.core.archRegs := by
  intro i hi
  rw [next_pcM] at hi
  rw [next_before]
  rcases next_validM_cases hv with ⟨hX, hM, hq⟩ | ⟨hX, hM, hvalid⟩
  · rw [if_pos hM] at hi
    obtain ⟨j, v0, v1, hfetched, hstage, hsecond⟩ := h.leaves hM hq
    obtain rfl : j = i := hfetched i hi
    rw [hX, if_neg Bool.false_ne_true]
    refine registers_leaves (Bool.eq_false_iff.2 fun he => ?_) hX hq hstage hsecond
    rw [Core.qX, (h.flushed he).2] at hq
    exact absurd hq (by simp)
  · rw [if_neg (by rw [hM]; decide)] at hi
    rw [hX, if_pos rfl]
    have he : s.running.core.excepted = false := Bool.eq_false_iff.2 fun he =>
      absurd hvalid (by rw [(h.flushed he).1]; decide)
    have hregs : (s.next l).running.core.archRegs = s.running.core.archRegs :=
      Core.archRegs_waits hM
    rw [registers_waits he (.inl hX), hregs]
    exact h.applied hvalid i hi

/-- A `rcsr` that leaves the X stage has read the control registers. -/
theorem next_reads (h : s.Precise env) (hv : (s.next l).running.core.validM = true)
    (he : (s.next l).running.core.m.exceptionM = false) :
    ∀ i ∈ env.imem (s.next l).running.core.iu.pcM, kind i = .rcsr →
      ∀ v ∈ (s.next l).before.read (reg0 i), (s.next l).running.core.m.operandM = v := by
  intro i hi hk v hread
  rw [next_pcM] at hi
  rw [next_before] at hread
  rw [next_m] at he ⊢
  rcases next_validM_cases hv with ⟨hX, hM, hq⟩ | ⟨hX, hM, hvalid⟩
  · rw [if_pos hM] at hi he ⊢
    rw [hX, if_neg Bool.false_ne_true] at hread
    obtain ⟨j, v0, v1, hfetched, hstage, -⟩ := h.leaves hM hq
    obtain rfl : j = i := hfetched i hi
    exact operandX_of_rcsr hk hstage hread
  · rw [if_neg (by rw [hM]; decide)] at hi he ⊢
    rw [hX, if_pos rfl] at hread
    exact h.reads hvalid he i hi hk v hread

/-- A cycle keeps the invariant. -/
theorem next (h : s.Precise env) (hp : (interruptible env).Allowed s l) :
    (s.next l).Precise env where
  valid := h.valid.next hp.1
  busErrorF := by
    change (if s.running.core.iu.iCycO then s.running.core.iu.busErrorF || l.pins.iErrI
      else s.running.core.iu.busErrorF && s.running.core.stallD (s.pins l)) = false
    rw [h.busErrorF, hp.2]
    simp
  busErrorD := by
    change (if s.running.core.stallD (s.pins l) = false then s.running.core.iu.busErrorF
      else s.running.core.iu.busErrorD) = false
    rw [h.busErrorF, h.busErrorD]
    simp
  busErrorX hv := by
    change (if s.running.core.stallX (s.pins l) = false then _
      else s.running.core.x : XStage).busErrorX = false
    rcases Core.Data.next_validX_cases hv with ⟨hX, -, -, -, hvalid⟩ | ⟨-, hX, -, -⟩
    · rw [if_neg (by rw [hX]; decide)]
      exact h.busErrorX hvalid
    · rw [if_pos hX]
      exact h.busErrorD
  flushed := h.next_flushed
  excepts hv := by
    rw [next_m]
    rcases next_validM_cases hv with ⟨hX, hM, hq⟩ | ⟨-, hM, hvalid⟩
    · simp only [if_pos hM, Core.xToM, hX, hq, Bool.not_false, Bool.and_true, Core.exceptionX]
      exact Bool.or_comm _ _
    · simp only [if_neg (show ¬ s.running.core.stallM (s.pins l) = false by rw [hM]; decide)]
      exact h.excepts hvalid
  applied := h.next_applied
  reads := h.next_reads
  raised hv he := by
    rw [next_m] at he
    rw [next_before, next_m]
    rcases next_validM_cases hv with ⟨hX, hM, -⟩ | ⟨hX, hM, hvalid⟩
    · rw [if_pos hM] at he
      rw [hX, if_neg Bool.false_ne_true, if_pos hM]
      refine raised_leaves ?_
      simp only [Core.xToM, Bool.and_eq_true] at he
      exact he.1.1
    · rw [hM, if_neg (by decide)] at he
      rw [hX, if_pos rfl, hM, if_neg (by decide)]
      exact h.raised hvalid he

/-- There is no exception in front of what is in the M stage. -/
theorem not_excepted (h : s.Precise env) (hv : s.running.core.validM = true) :
    s.running.core.excepted = false :=
  Bool.eq_false_iff.2 fun he => absurd hv (by rw [(h.flushed he).1]; decide)

/-- What has left the M stage has had its effect on the control registers, and no other instruction
has. -/
theorem committed_moves (h : s.Precise env) (hp : (interruptible env).Allowed s l)
    (he : s.running.core.excepted = false)
    (hmoves : s.running.core.validM = true → s.running.core.stallM (s.pins l) = false) :
    (s.next l).committed =
      if (s.next l).running.core.excepted then
        s.registers.raise s.running.core.m.nonDebugExceptionM
      else s.registers := by
  rw [committed]
  cases hv : (s.next l).running.core.validM with
  | true =>
      rcases next_validM_cases hv with ⟨hX, -, -⟩ | ⟨-, hM, hvalid⟩
      · rw [if_pos rfl, (h.next hp).not_excepted hv, if_neg Bool.false_ne_true, next_before, hX,
          if_neg Bool.false_ne_true]
      · exact absurd hM (by rw [hmoves hvalid]; decide)
  | false =>
      have hno : s.running.core.stallX (s.pins l) = true ∨
          s.running.core.qX (s.pins l) = false := by
        cases hX : s.running.core.stallX (s.pins l) with
        | true => exact .inl rfl
        | false =>
            change (s.running.core.next (s.pins l)).validM = false at hv
            rw [Core.next_validM, hX, if_pos rfl] at hv
            exact .inr hv
      rw [if_neg Bool.false_ne_true, registers_waits he hno]
      rfl

/-- The control registers stay while nothing leaves the M stage. -/
theorem committed_silent (h : s.Precise env) (hp : (interruptible env).Allowed s l)
    (hc : (s.running.core.validM && !s.running.core.stallM (s.pins l)) = false) :
    (s.next l).committed = s.committed := by
  cases hv : s.running.core.validM with
  | true =>
      have hM : s.running.core.stallM (s.pins l) = true := by simpa [hv] using hc
      have hX := Core.stallX_of_stallM hM
      have hvalid : (s.next l).running.core.validM = true := by
        change (s.running.core.next (s.pins l)).validM = true
        rw [Core.next_validM, hX, hM]
        exact hv
      rw [committed, committed, hvalid, hv, if_pos rfl, if_pos rfl, next_before, hX, if_pos rfl]
  | false =>
      have hW : (s.next l).running.core.excepted = false := by
        change ((s.running.core.next (s.pins l)).validW && _) = false
        rw [Core.next_validW, hv, ite_self, Bool.false_and]
      cases he : s.running.core.excepted with
      | false =>
          rw [h.committed_moves hp he fun hvalid => absurd hvalid (by rw [hv]; decide), hW,
            committed, hv, he]
          rfl
      | true =>
          have hq : s.running.core.qX (s.pins l) = false := by
            rw [Core.qX, (h.flushed he).2, Bool.false_and]
          have hM : (s.next l).running.core.validM = false := by
            change (s.running.core.next (s.pins l)).validM = false
            rw [Core.next_validM, (h.flushed he).2, hv]
            simp
          rw [committed, committed, hM, hv, hW, he, registers_excepted he hq]
          rfl

end Precise

/-- What happens in a cycle, with the control registers after it. -/
def event (env : Outside) (s : Interruptible) (l : Lines) : Option (Event × ControlRegisters) :=
  (Running.event env s.running (s.pins l)).map fun e => (e, (s.next l).committed)

namespace Precise

/-- An instruction that leaves the M stage does to the control registers what it should. -/
theorem permits_instruction (h : s.Precise env) (hp : (interruptible env).Allowed s l)
    (hv : s.running.core.validM = true) (hM : s.running.core.stallM (s.pins l) = false)
    (he : s.running.core.m.exceptionM = false) (data : Word) (busErrorSeen : Bool) :
    s.committed.Permits (env.imem s.running.arch.pc) s.running.arch.regs
      (.instruction s.running.core.finalM data busErrorSeen) (s.next l).committed := by
  have hpc : s.running.arch.pc = s.running.core.iu.pcM := if_pos hv
  have hcommitted : s.committed = s.before := if_pos hv
  have hnone : (s.next l).running.core.excepted = false := by
    change ((s.running.core.next (s.pins l)).validW &&
      (s.running.core.m.nonDebugExceptionM || s.running.core.m.debugExceptionM)) = false
    rw [← h.excepts hv, he, Bool.and_false]
  rw [hpc, hcommitted, h.committed_moves hp (h.not_excepted hv) fun _ => hM, hnone,
    if_neg Bool.false_ne_true]
  refine fun i hi => ⟨h.applied hv i hi, fun hk v hread => ?_⟩
  rw [← h.reads hv he i hi hk v hread]
  obtain ⟨j, v0, v1, csr, mc, hc⟩ := h.valid.data.completing hv he
  obtain rfl : j = i := hc.fetched i hi
  have hd := decodes_kind j
  rw [hk] at hd
  rw [hc.finalM_eq, XStage.wResult_source, control_dToX, hd.1, hc.stage]
  exact (xResult_csr hd.1).symm

/-- An exception that leaves the M stage has the vector it was raised with. -/
theorem permits_exception (h : s.Precise env) (hp : (interruptible env).Allowed s l)
    (hv : s.running.core.validM = true) (hM : s.running.core.stallM (s.pins l) = false)
    (he : s.running.core.m.exceptionM = true) (busError : Bool) :
    s.committed.Permits (env.imem s.running.arch.pc) s.running.arch.regs
      (.exception s.running.core.m.writeIdxM (s.running.core.m.branchTargetM.extractLsb' 3 27)
        busError) (s.next l).committed := by
  have hpc : s.running.arch.pc = s.running.core.iu.pcM := if_pos hv
  have hcommitted : s.committed = s.before := if_pos hv
  have hexcepted : (s.next l).running.core.excepted = true := by
    change ((s.running.core.next (s.pins l)).validW &&
      (s.running.core.m.nonDebugExceptionM || s.running.core.m.debugExceptionM)) = true
    rw [← h.excepts hv, he, Core.next_validW, hM, hv]
    rfl
  obtain ⟨hlink, hbase, hinterrupt⟩ := h.raised hv he
  rw [hpc, hcommitted, h.committed_moves hp (h.not_excepted hv) fun _ => hM, hexcepted, if_pos rfl]
  refine ⟨fun i hi => ?_, hbase, hinterrupt⟩
  rw [hlink, h.applied hv i hi]
  rfl

end Precise

/-- The core with its interrupt unit refines the instruction set with its control registers. -/
theorem simulates (env : Outside) :
    Machine.Simulates (interruptible env) (privileged env) (fun s => (s.running.arch, s.committed))
      (event env) (fun s => s.Precise env) where
  initial s h := by
    have hinit := h.1.1
    have hvalid := hinit.valid
    simp only [Bool.or_eq_false_iff] at hvalid
    have hcommitted : s.committed = s.registers := by
      rw [committed, hvalid.1.2, Core.excepted, hvalid.2]
      rfl
    refine ⟨.of_initial h, ((Running.simulates env).initial _ h.1).2, ?_⟩
    change s.committed.ie = false ∧ s.committed.eie = false ∧ s.committed.bie = false ∧
      s.committed.im = 0
    rw [hcommitted, registers, h.2]
    exact ⟨rfl, rfl, rfl, rfl⟩
  invariant _ _ h hp := h.next hp
  silent s l h hp hevent := by
    have hnone : Running.event env s.running (s.pins l) = none := Option.map_eq_none_iff.1 hevent
    have harch : (s.next l).running.arch = s.running.arch :=
      (Running.simulates env).silent _ _ h.valid hp.1 hnone
    refine Prod.ext harch (h.committed_silent hp (Bool.eq_false_iff.2 fun hc => ?_))
    rw [Running.event, if_pos hc] at hnone
    exact Option.some_ne_none _ hnone
  visible s l e h hp hevent := by
    obtain ⟨e', hcore, rfl⟩ := Option.map_eq_some_iff.1 hevent
    obtain ⟨hlegal, hnext⟩ := (Running.simulates env).visible _ _ _ h.valid hp.1 hcore
    refine ⟨⟨hlegal, ?_⟩, Prod.ext hnext rfl⟩
    rw [Running.event] at hcore
    split at hcore
    · rename_i hc
      rw [Bool.and_eq_true, Bool.not_eq_true'] at hc
      obtain ⟨hv, hM⟩ := hc
      obtain rfl := Option.some.inj hcore
      cases he : s.running.core.m.exceptionM with
      | true => exact h.permits_exception hp hv hM he _
      | false =>
          change s.committed.Permits _ _ (if _ then _ else _) _
          rw [if_neg Bool.false_ne_true]
          split
          · exact h.permits_instruction hp hv hM he _ _
          · trivial
    · exact absurd hcore (Option.some_ne_none _).symm

end Interruptible

section Driven

variable (env : Outside) (interrupt : Word)

/-- Buses that answer at once next to the interrupt lines. -/
def Interruptible.drive : Nat → Interruptible → List Lines
  | 0, _ => []
  | n + 1, s =>
      ⟨s.running.answers env, interrupt⟩ ::
        drive n ((interruptible env).next s ⟨s.running.answers env, interrupt⟩)

/-- Such buses are allowed. -/
theorem Interruptible.drive_allowed (n : Nat) (s : Interruptible) :
    (interruptible env).AllowedRun s (s.drive env interrupt n) := by
  induction n generalizing s with
  | zero => trivial
  | succ n ih =>
      refine ⟨⟨⟨fun _ _ known hknown => ?_, fun _ _ => rfl⟩, rfl⟩, ih _⟩
      change (env.imem _).getD 0 = known
      rw [Option.mem_def.1 hknown, Option.getD_some]

end Driven

/-- After reset, with 0 in all that the source does not reset. -/
def Interruptible.reset : Interruptible :=
  ⟨⟨.reset, []⟩, ⟨false, false, false, 0, 0⟩, ⟨false, false, false, 0, 0, 0⟩⟩

/-- The state is one the core can be in after `rst_i`. -/
theorem Interruptible.initial_reset (env : Outside) : (interruptible env).Initial .reset :=
  ⟨⟨Core.afterReset_reset, rfl⟩, rfl⟩

/-- A program that enables the first interrupt, `ori r1, r0, 1`, `wcsr IM, r1`, `wcsr IE, r1`, and
then counts, with an interrupt handler that counts in another register. -/
def enabling : Outside where
  imem pc := some (
    if pc = 0 then 0x38010001
    else if pc = 1 then 0xD0210001
    else if pc = 2 then 0xD0010000
    else if pc < 48 then 0x34420001
    else 0x34630001)
  answer _ _ _ := 0

/-- Whatever the buses and the debugger do, and whenever interrupts come, as long as no fetch ends
with a bus error: after any number of cycles a program and the control registers are where the
instruction set puts them for the instructions and exceptions that have left the M stage. Each of
these has met the control registers as all before it have left them, and no exception was an
interrupt that they did not allow. The instruction at which an exception or an interrupt is taken
has had its effect on the control registers all the same (`Permits`). -/
theorem interruptible_run {env : Outside} {s : Interruptible}
    (hinit : (interruptible env).Initial s) {inputs : List Lines}
    (hrun : (interruptible env).AllowedRun s inputs) :
    (privileged env).Initial (s.running.arch, s.committed) ∧
      (privileged env).AllowedRun (s.running.arch, s.committed)
        ((interruptible env).events (Interruptible.event env) s inputs) ∧
      (((interruptible env).run s inputs).running.arch,
          ((interruptible env).run s inputs).committed) =
        (privileged env).run (s.running.arch, s.committed)
          ((interruptible env).events (Interruptible.event env) s inputs) := by
  obtain ⟨hprecise, hprivileged⟩ := (Interruptible.simulates env).initial s hinit
  exact ⟨hprivileged, (Interruptible.simulates env).run hprecise hrun⟩

/-- The interrupt is taken as soon as it is enabled, before the first `addi`, and the handler has
counted to three after 27 cycles. -/
theorem interruptible_run_enabling :
    let s := (interruptible enabling).run .reset (Interruptible.drive enabling 1 27 .reset)
    (s.running.arch.regs 3, s.running.arch.regs EA_REG, s.committed.ie, s.committed.eie) =
      (3, 12, false, true) :=
  (congrArg (fun a : Arch × ControlRegisters => (a.1.regs 3, a.1.regs EA_REG, a.2.ie, a.2.eie))
    (interruptible_run (Interruptible.initial_reset enabling)
      (Interruptible.drive_allowed enabling 1 27 .reset)).2.2).trans (by decide +kernel)

/-- A handler is not interrupted. From any state that has interrupts disabled for the program, and
for as long as its next instruction is a known one that does not enable them, no interrupt is taken,
whatever the interrupt lines do and whatever is enabled by instructions that are fetched and not
carried out. -/
theorem handler_undisturbed {env : Outside} {s : Interruptible}
    (hreach : (interruptible env).Reachable s) (hie : s.committed.ie = false)
    {inputs : List Lines} (hrun : (interruptible env).AllowedRun s inputs)
    (hmasked : (interruptible env).Always (fun s => Masked env s.running.arch) s inputs) :
    ∀ e ∈ (interruptible env).events (Interruptible.event env) s inputs, ¬ e.1.IsInterrupt := by
  have hprecise := ((Interruptible.simulates env).reachable hreach).1
  have hmasked' := (Interruptible.simulates env).always (P := fun a => Masked env a.1) hprecise hrun
    hmasked
  exact privileged_undisturbed ((Interruptible.simulates env).run hprecise hrun).1 hie hmasked'

/-- The handler of the program above, with the interrupt line still up. -/
theorem handler_undisturbed_enabling :
    let s := (interruptible enabling).run .reset (Interruptible.drive enabling 1 15 .reset)
    let events :=
      (interruptible enabling).events (Interruptible.event enabling) s (s.drive enabling 1 15)
    events.length = 4 ∧ ∀ e ∈ events, ¬ e.1.IsInterrupt :=
  ⟨by decide +kernel,
    handler_undisturbed
      ((Library.Machine.Reachable.initial (Interruptible.initial_reset enabling)).run
        (Interruptible.drive_allowed enabling 1 15 .reset))
      (by decide +kernel) (Interruptible.drive_allowed enabling 1 15 _) (by decide +kernel)⟩

end Soc.Lm32
