import Soc.Library.Refinement
import Soc.Lm32.DataBus

/-!
# The LM32 carries out its instruction set

The instruction set as a machine: in each step an instruction is carried out or an exception is
taken. The core refines it. An instruction is carried out in the cycle it leaves the M stage, and in
no other cycle does anything change that a program can see: what was fetched after a branch that is
taken, what waits in the earlier stages and what is still in the W stage has no effect.
-/

namespace Soc.Lm32

open Library (Machine)

/-- What a program sees: the program counter, the registers, the transfers on the data bus, oldest
first, and the last instruction with a transfer that no bus error had preceded. -/
structure Arch where
  pc : Pc
  regs : Reg → Word
  accesses : List Access
  memop : Pc

/-- A step of a program. A value read from a CSR and whether a bus error has been seen come from
outside, and so do the exceptions. Where the program is not known, anything can happen. -/
inductive Event where
  | instruction (csr data : Word) (busErrorSeen : Bool)
  | exception (link : Reg) (vector : BitVec 27) (busError : Bool)
  | unknown (after : Arch)

/-- The state after an instruction. -/
def Arch.carryOut (a : Arch) (o : Outcome) (busErrorSeen : Bool) : Arch where
  pc := o.pc
  regs := o.regs a.regs
  accesses := a.accesses ++ o.access.toList
  memop := if o.access.isSome && !busErrorSeen then a.pc else a.memop

/-- The state after an exception. The address that is saved is that of the instruction that is not
carried out, or after a bus error that of the transfer. -/
def Arch.raise (a : Arch) (link : Reg) (vector : BitVec 27) (busError : Bool) : Arch where
  pc := vector ++ 0#3
  regs := Function.update a.regs link ((if busError then a.memop else a.pc) ++ 0#2)
  accesses := a.accesses
  memop := a.memop

/-- The instruction set. A load gets what is answered after the transfers of all instructions before
it, and a `raise` is not carried out but always ends in an exception. -/
def isa (env : Outside) : Machine Arch Event where
  Initial a := a.pc = 0 ∧ a.accesses = []
  Allowed a e :=
    match e with
    | .instruction csr data _ =>
        ∃ i, env.imem a.pc = some i ∧ kind i ≠ .raise ∧
          ∀ t, (execute i a.pc a.regs csr data).access = some t → t.we = false →
            data = env.answer a.accesses t.adr t.sel
    | .exception link _ _ => link = EA_REG ∨ link = BA_REG
    | .unknown _ => env.imem a.pc = none
  next a e :=
    match e with
    | .instruction csr data busErrorSeen =>
        match env.imem a.pc with
        | some i => a.carryOut (execute i a.pc a.regs csr data) busErrorSeen
        | none => a
    | .exception link vector busError => a.raise link vector busError
    | .unknown after => after

/-- The registers after an instruction that may write one. -/
theorem Outcome.regs_eq {o : Outcome} {enable : Bool} {x : Reg} {value : Word}
    (h : (if enable then some (x, value) else none) = o.write) (regs : Reg → Word) :
    o.regs regs = if enable then Function.update regs x value else regs := by
  rw [Outcome.regs, ← h]
  cases enable with
  | false => rfl
  | true => rfl

namespace Core

variable {s : Core} {p : Pins} {imem : Pc → Option Word} {i v0 v1 csr mc : Word}

/-- Only `rcsr` reads a CSR. -/
theorem execute_csr {i : Word} {csr csr' : Word} (h : kind i = .rcsr → csr = csr') (pc : Pc)
    (regs : Reg → Word) (data : Word) :
    execute i pc regs csr data = execute i pc regs csr' data := by
  rw [execute, execute]
  generalize kind i = k at h
  cases k with
  | rcsr => rw [h rfl]
  | alu _ _ | load _ _ | store _ | branch _ | b | bi | call | calli | raise | wcsr => rfl

/-- What is written is the result of the instruction. -/
theorem Completing.finalM_eq (h : s.Completing imem i v0 v1 csr mc) : s.finalM =
    (dToX i s.iu.pcM (s.iu.pcM + 1) v0 v1 false).wResult csr mc s.lsu.wbDataM := by
  have he : s.m.exceptionM = false := by
    rw [h.stage]
    rfl
  have hoperand : s.mToW.operandW = s.mResult := by
    change (if s.m.exceptionM then _ else s.mResult) = _
    rw [he, if_neg Bool.false_ne_true]
  rw [finalM, hoperand, mResult, h.sizeM, h.signExtendM, h.product, h.shifted, h.stage,
    XStage.wResult]
  generalize hx : dToX i s.iu.pcM (s.iu.pcM + 1) v0 v1 false = x
  have hcontrol : x.control = (decoder i).toControl := by
    rw [← hx]
    rfl
  have h0 : x.operand0X = dResult0 i (s.iu.pcM + 1) v0 := by
    rw [← hx]
    rfl
  have h1 : x.operand1X = dResult1 i v1 := by
    rw [← hx]
    rfl
  rw [← h0, ← h1, ← hcontrol]
  change (if x.control.wResultSelLoad then
      loadData _ (BitVec.extractLsb' 0 2 (if x.control.mResultSelCompare then _
        else if x.control.mResultSelShift then _ else x.xResult csr mc)) _ _
    else if x.control.wResultSelMul then _
    else if x.control.mResultSelCompare then _
    else if x.control.mResultSelShift then _
    else x.xResult csr mc) = _
  cases hload : x.control.wResultSelLoad with
  | false => rfl
  | true =>
      have hkeep : (control (i.extractLsb' 26 6)).wResultSelLoad = true := by
        rw [← hload, hcontrol]
        rfl
      obtain ⟨hcompare, hshift⟩ := load_keeps _ hkeep
      have hcompare' : x.control.mResultSelCompare = false := by
        rw [hcontrol]
        exact hcompare
      have hshift' : x.control.mResultSelShift = false := by
        rw [hcontrol]
        exact hshift
      rw [hcompare', hshift']
      rfl

/-- The transfer is that of the instruction. -/
theorem Completing.accessM_eq (h : s.Completing imem i v0 v1 csr mc) (hv : s.validM = true) :
    s.accessM =
      (dToX i s.iu.pcM (s.iu.pcM + 1) v0 v1 false).access csr mc s.lsu.wbDataM := by
  have hq : s.qM = true := by
    rw [qM, hv, h.stage]
    rfl
  rw [accessM, storeQM, loadQM, hq, Bool.and_true, Bool.and_true, h.byteEnableM, h.storeDataM,
    h.stage, XStage.access]
  change (if (decoder i).store then _
      else if (decoder i).load then _ else none) =
    if (decoder i).load then _
      else if (decoder i).store then _ else none
  cases hstore : (decoder i).store with
  | false => rfl
  | true =>
      have hload : (decoder i).load = false := load_of_store _ hstore
      rw [hload]
      rfl

/-- The instruction in the M stage has one transfer. -/
theorem Completing.loadQM_of_storeQM (h : s.Completing imem i v0 v1 csr mc)
    (hs : s.storeQM = true) : s.loadQM = false := by
  rw [storeQM, Bool.and_eq_true] at hs
  have hstore : (decoder i).store = true := by
    have hs' := hs.1
    rw [h.stage] at hs'
    exact hs'
  have hload : (decoder i).load = false := load_of_store _ hstore
  rw [loadQM, h.stage]
  change ((decoder i).load && _) = false
  rw [hload, Bool.false_and]

/-- The core goes on where the instruction says. -/
theorem Completing.followPc_eq (h : s.Completing imem i v0 v1 csr mc) (hpath : s.Path imem)
    (hv : s.validM = true) : s.followPc =
    (dToX i s.iu.pcM (s.iu.pcM + 1) v0 v1 false).nextPc s.iu.pcM := by
  have hpredict : branchPredictTaken i = true →
      branchPredict i = true ∧ (decoder i).branch = true := by
    intro ht
    have hp : branchPredict i = true := by
      rw [branchPredict]
      rw [branchPredictTaken] at ht
      split at ht
      · rename_i hu
        rw [hu, Bool.true_or]
      · split at ht
        · rename_i hc
          rw [hc, Bool.or_true]
        · exact absurd ht (by decide)
    exact ⟨hp, branch_of_predict (i.extractLsb' 26 6) hp⟩
  rw [followPc, redirects, branchMispredictTakenM, hv, hpath.pcX hv, XStage.nextPc, control_dToX]
  generalize hx : dToX i s.iu.pcM (s.iu.pcM + 1) v0 v1 false = x
  have hbranch : s.m.branchM = (decoder i).branch := by
    rw [h.stage]
    rfl
  have hpred : s.m.branchPredictM = branchPredict i := by
    rw [h.stage]
    rfl
  have htaken : s.m.branchPredictTakenM = branchPredictTaken i := by
    rw [h.stage]
    rfl
  have hmet : s.m.conditionMetM = x.conditionMetX := by
    rw [h.stage, hx]
    rfl
  have htarget : s.m.branchTargetM = x.branchTargetX := by
    rw [h.stage, hx]
    rfl
  have he : s.m.exceptionM = false := by
    rw [h.stage]
    rfl
  rw [hbranch, hpred, htaken, hmet, htarget, he]
  cases ht : branchPredictTaken i with
  | true =>
      obtain ⟨hp, hb⟩ := hpredict ht
      rw [hp, hb]
      cases x.conditionMetX <;> rfl
  | false =>
      cases x.conditionMetX <;> cases (decoder i).branch <;>
        cases branchPredict i <;> rfl

/-- The registers after an instruction has left the M stage. -/
theorem archRegs_next (hM : s.stallM p = false) (hv : s.validM = true) : (s.next p).archRegs =
    if s.m.writeEnableM then Function.update s.archRegs s.m.writeIdxM s.finalM
    else s.archRegs := by
  rw [archRegs, ram_next, regWrite_next, hM, hv, RegWrite.apply]
  simp

/-- The registers stay while no instruction leaves the M stage. -/
theorem archRegs_silent (hc : (s.validM && !s.stallM p) = false) :
    (s.next p).archRegs = s.archRegs := by
  rw [archRegs, ram_next, regWrite_next, RegWrite.apply]
  cases hM : s.stallM p with
  | true => simp
  | false =>
      have hv : s.validM = false := by simpa [hM] using hc
      simp [hv]

/-- The last transfer before a bus error. -/
theorem memopPcW_next (s : Core) (p : Pins) : (s.next p).memopPcW =
    if !s.stallM p && !s.dataBusErrorSeen && (s.loadQM || s.storeQM) then s.iu.pcM
    else s.memopPcW := rfl

/-- An instruction has a transfer if it loads or stores. -/
theorem accessM_isSome (s : Core) : s.accessM.isSome = (s.loadQM || s.storeQM) := by
  rw [accessM]
  cases s.storeQM <;> cases s.loadQM <;> rfl

end Core

namespace Running

variable (env : Outside) (r : Running) (p : Pins)

/-- What a program sees of the core. -/
def arch : Arch where
  pc := r.core.archPc
  regs := r.core.archRegs
  accesses := r.accesses
  memop := r.core.memopPcW

/-- What happens in a cycle: what leaves the M stage is carried out or raises its exception. -/
def event : Option Event :=
  if r.core.validM && !r.core.stallM p then
    some
      (if r.core.m.exceptionM then
        .exception r.core.m.writeIdxM (r.core.m.branchTargetM.extractLsb' 3 27)
          r.core.m.dataBusErrorExceptionM
      else if (env.imem r.core.iu.pcM).isSome then
        .instruction r.core.finalM r.core.lsu.wbDataM r.core.dataBusErrorSeen
      else .unknown ((lm32 env).next r p).arch)
  else none

/-- The invariant of the core. -/
structure Valid : Prop where
  path : r.core.Path env.imem
  data : r.core.Data env.imem
  bus : r.Bus env

variable {env r p}

/-- The invariant after reset. -/
theorem Valid.initial (h : (lm32 env).Initial r) : r.Valid env :=
  ⟨.of_afterReset h.1, .of_afterReset h.1, .of_afterReset h.1⟩

/-- A cycle keeps the invariant. -/
theorem Valid.next (h : r.Valid env) (hp : (lm32 env).Allowed r p) :
    ((lm32 env).next r p).Valid env :=
  ⟨h.path.next hp.1, h.data.next h.path, h.bus.next hp⟩

/-- Nothing changes for a program while nothing leaves the M stage. -/
theorem Valid.silent (h : r.Valid env) (hc : (r.core.validM && !r.core.stallM p) = false) :
    ((lm32 env).next r p).arch = r.arch := by
  have hpc : (r.core.next p).archPc = r.core.archPc := Core.archPc_silent h.path hc
  have hregs : (r.core.next p).archRegs = r.core.archRegs := Core.archRegs_silent hc
  have hq : r.core.stallM p = false → r.core.loadQM = false ∧ r.core.storeQM = false := by
    intro hM
    have hv : r.core.validM = false := by simpa [hM] using hc
    simp [Core.loadQM, Core.storeQM, Core.qM, hv]
  have haccesses : ((lm32 env).next r p).accesses = r.accesses := by
    cases hM : r.core.stallM p with
    | true => exact accesses_waits h.bus hM
    | false =>
        obtain ⟨hl, hs⟩ := hq hM
        rw [accesses_leaves h.bus hM fun _ => hl, Core.accessM, hl, hs]
        exact List.append_nil _
  have hmemop : (r.core.next p).memopPcW = r.core.memopPcW := by
    rw [Core.memopPcW_next]
    cases hM : r.core.stallM p with
    | true => rfl
    | false =>
        obtain ⟨hl, hs⟩ := hq hM
        rw [hl, hs, Bool.or_false, Bool.and_false, if_neg Bool.false_ne_true]
  change Arch.mk (r.core.next p).archPc (r.core.next p).archRegs _ (r.core.next p).memopPcW = _
  rw [hpc, hregs, haccesses, hmemop]
  rfl

/-- What was fetched for an instruction is carried out when it leaves the M stage, and a load gets
what is answered after the transfers of all instructions before it. -/
theorem Valid.carriesOut (h : r.Valid env) (hv : r.core.validM = true)
    (hM : r.core.stallM p = false) {i v0 v1 csr mc : Word}
    (hc : r.core.Completing env.imem i v0 v1 csr mc) :
    (∀ t, (execute i r.core.iu.pcM r.core.archRegs r.core.finalM r.core.lsu.wbDataM).access =
        some t → t.we = false → r.core.lsu.wbDataM = env.answer r.accesses t.adr t.sel) ∧
      ((lm32 env).next r p).arch = r.arch.carryOut
        (execute i r.core.iu.pcM r.core.archRegs r.core.finalM r.core.lsu.wbDataM)
        r.core.dataBusErrorSeen := by
  have hpc : r.arch.pc = r.core.iu.pcM := if_pos hv
  have hwrite : (dToX i r.core.iu.pcM (r.core.iu.pcM + 1) v0 v1 false).write csr mc
      r.core.lsu.wbDataM =
        (execute i r.core.iu.pcM r.core.archRegs csr r.core.lsu.wbDataM).write :=
    write_eq hc.operands hc.quotient
  have hexecute : execute i r.core.iu.pcM r.core.archRegs r.core.finalM r.core.lsu.wbDataM =
      execute i r.core.iu.pcM r.core.archRegs csr r.core.lsu.wbDataM := by
    refine Core.execute_csr (fun hk => ?_) _ _ _
    rw [hc.finalM_eq, XStage.wResult_source]
    have hd := decodes_kind i
    rw [hk] at hd
    rw [control_dToX, hd.1]
  have haccess : r.core.accessM =
      (execute i r.core.iu.pcM r.core.archRegs csr r.core.lsu.wbDataM).access := by
    rw [hc.accessM_eq hv]
    exact access_eq hc.operands
  rw [hexecute]
  refine ⟨fun t ht hread => ?_, ?_⟩
  · rw [← haccess] at ht
    exact answer_of_leaves h.bus hM ht hread
  · generalize ho : execute i r.core.iu.pcM r.core.archRegs csr r.core.lsu.wbDataM = o
      at hwrite haccess
    have hpc' : (r.core.next p).archPc = o.pc := by
      rw [Core.archPc_commit h.path hv hM, hc.followPc_eq h.path hv, ← ho]
      exact nextPc_eq hc.operands
    have hregs : (r.core.next p).archRegs = o.regs r.core.archRegs := by
      rw [Core.archRegs_next hM hv, Outcome.regs_eq hwrite, hc.finalM_eq, hc.stage]
      rfl
    have haccesses : ((lm32 env).next r p).accesses = r.accesses ++ o.access.toList := by
      rw [← haccess]
      exact accesses_leaves h.bus hM hc.loadQM_of_storeQM
    have hmemop : (r.core.next p).memopPcW =
        if o.access.isSome && !r.core.dataBusErrorSeen then r.core.iu.pcM
        else r.core.memopPcW := by
      rw [Core.memopPcW_next, ← haccess, Core.accessM_isSome, hM, Bool.not_false, Bool.true_and,
        Bool.and_comm]
    change Arch.mk (r.core.next p).archPc (r.core.next p).archRegs _ (r.core.next p).memopPcW = _
    rw [hpc', hregs, haccesses, hmemop, Arch.carryOut, hpc]
    rfl

/-- An instruction of the program is carried out when it leaves the M stage. -/
theorem Valid.instruction (h : r.Valid env) (hv : r.core.validM = true)
    (hM : r.core.stallM p = false) (he : r.core.m.exceptionM = false)
    (hknown : (env.imem r.core.iu.pcM).isSome = true) :
    (isa env).Allowed r.arch
        (.instruction r.core.finalM r.core.lsu.wbDataM r.core.dataBusErrorSeen) ∧
      ((lm32 env).next r p).arch = (isa env).next r.arch
        (.instruction r.core.finalM r.core.lsu.wbDataM r.core.dataBusErrorSeen) := by
  obtain ⟨i, v0, v1, csr, mc, hc⟩ := h.data.completing hv he
  obtain ⟨known, hsome⟩ := Option.isSome_iff_exists.1 hknown
  obtain rfl : i = known := hc.fetched known hsome
  obtain ⟨hanswer, hnext⟩ := h.carriesOut (p := p) hv hM hc
  have hpc : r.arch.pc = r.core.iu.pcM := if_pos hv
  have himem : env.imem r.arch.pc = some i := by rw [hpc, hsome]
  refine ⟨⟨i, himem, hc.executes, ?_⟩, ?_⟩
  · rw [hpc]
    exact hanswer
  · rw [hnext, isa]
    dsimp only
    rw [himem, hpc]
    rfl

/-- An exception is taken when its instruction leaves the M stage. -/
theorem Valid.exception (h : r.Valid env) (hv : r.core.validM = true)
    (hM : r.core.stallM p = false) (he : r.core.m.exceptionM = true) :
    (isa env).Allowed r.arch (.exception r.core.m.writeIdxM
        (r.core.m.branchTargetM.extractLsb' 3 27) r.core.m.dataBusErrorExceptionM) ∧
      ((lm32 env).next r p).arch = (isa env).next r.arch (.exception r.core.m.writeIdxM
        (r.core.m.branchTargetM.extractLsb' 3 27) r.core.m.dataBusErrorExceptionM) := by
  obtain ⟨hwrite, hload, hmul, hlink, hvector⟩ := h.data.excepting he
  have hq : r.core.qM = false := by rw [Core.qM, he, Bool.not_true, Bool.and_false]
  have hl : r.core.loadQM = false := by rw [Core.loadQM, hq, Bool.and_false]
  have hs : r.core.storeQM = false := by rw [Core.storeQM, hq, Bool.and_false]
  have hpc : r.arch.pc = r.core.iu.pcM := if_pos hv
  refine ⟨hlink, ?_⟩
  have hpc' : (r.core.next p).archPc = r.core.m.branchTargetM.extractLsb' 3 27 ++ 0#3 := by
    have hsplit : r.core.m.branchTargetM.extractLsb' 3 27 ++
        r.core.m.branchTargetM.extractLsb' 0 3 = r.core.m.branchTargetM :=
      BitVec.extractLsb'_append_extractLsb'
    rw [hvector] at hsplit
    rw [Core.archPc_commit h.path hv hM, Core.followPc, Core.redirects, he, Bool.or_true,
      if_pos rfl, Bool.not_true, Bool.and_false, if_neg Bool.false_ne_true]
    exact hsplit.symm
  have hregs : (r.core.next p).archRegs = Function.update r.core.archRegs r.core.m.writeIdxM
      ((if r.core.m.dataBusErrorExceptionM then r.core.memopPcW else r.core.iu.pcM) ++ 0#2) := by
    rw [Core.archRegs_next hM hv, hwrite, if_pos rfl, Core.finalM, hload, hmul]
    change Function.update r.core.archRegs r.core.m.writeIdxM
      (if r.core.m.exceptionM then _ else _) = _
    rw [he]
    cases r.core.m.dataBusErrorExceptionM <;> rfl
  have haccesses : ((lm32 env).next r p).accesses = r.accesses := by
    rw [accesses_leaves h.bus hM fun _ => hl, Core.accessM, hl, hs]
    exact List.append_nil _
  have hmemop : (r.core.next p).memopPcW = r.core.memopPcW := by
    rw [Core.memopPcW_next, hl, hs, Bool.or_false, Bool.and_false, if_neg Bool.false_ne_true]
  change Arch.mk (r.core.next p).archPc (r.core.next p).archRegs _ (r.core.next p).memopPcW =
    r.arch.raise _ _ _
  rw [hpc', hregs, haccesses, hmemop, Arch.raise, hpc]
  rfl

/-- The core refines the instruction set. -/
theorem simulates (env : Outside) :
    Machine.Simulates (lm32 env) (isa env) arch (event env) (fun r => r.Valid env) where
  initial r h := by
    refine ⟨Valid.initial h, ?_, ?_⟩
    · have hvalid := h.1.valid
      simp only [Bool.or_eq_false_iff] at hvalid
      change r.core.archPc = 0
      rw [Core.archPc, Core.behindPc, hvalid.1.2, hvalid.1.1.2, hvalid.1.1.1.2, hvalid.1.1.1.1,
        h.1.iu]
      rfl
    · change r.accesses = []
      rw [accesses, h.1.lsu, h.2]
      rfl
  invariant _ _ h hp := h.next hp
  silent r p h _ hevent := by
    refine h.silent (Bool.eq_false_iff.2 fun hc => ?_)
    rw [event, if_pos hc] at hevent
    exact Option.some_ne_none _ hevent
  visible r p e h _ hevent := by
    rw [event] at hevent
    split at hevent
    · rename_i hc
      rw [Bool.and_eq_true, Bool.not_eq_true'] at hc
      obtain ⟨hv, hM⟩ := hc
      cases he : r.core.m.exceptionM with
      | true =>
          rw [he, if_pos rfl] at hevent
          obtain rfl := Option.some.inj hevent
          exact h.exception hv hM he
      | false =>
          rw [he, if_neg Bool.false_ne_true] at hevent
          split at hevent
          · rename_i hknown
            obtain rfl := Option.some.inj hevent
            exact h.instruction hv hM he hknown
          · rename_i hunknown
            obtain rfl := Option.some.inj hevent
            have hpc : r.arch.pc = r.core.iu.pcM := if_pos hv
            refine ⟨?_, rfl⟩
            change env.imem r.arch.pc = none
            rw [hpc]
            simpa using hunknown
    · exact absurd hevent (Option.some_ne_none _).symm

end Running

section Driven

variable (env : Outside)

/-- What buses drive that answer at once, when nothing else happens. -/
def Running.answers (r : Running) : Pins where
  iDatI := (env.imem (r.core.iu.iAdrO.extractLsb' 2 30)).getD 0
  iAckI := true
  iErrI := false
  dDatI := env.answer r.transfers r.core.lsu.dAdrO r.core.lsu.dSelO
  dAckI := true
  dErrI := false
  extBreak := false
  interruptException := false
  interruptCsrReadDataX := 0
  bpMatch := false
  wpMatch := false
  dcSs := false
  dcRe := false
  undefined := 0

/-- The pins of a number of cycles with such buses. -/
def drive : Nat → Running → List Pins
  | 0, _ => []
  | n + 1, r => r.answers env :: drive n ((lm32 env).next r (r.answers env))

/-- Such buses are allowed. -/
theorem drive_allowed (n : Nat) (r : Running) : (lm32 env).AllowedRun r (drive env n r) := by
  induction n generalizing r with
  | zero => trivial
  | succ n ih =>
      refine ⟨⟨fun _ _ known hknown => ?_, fun _ _ => rfl⟩, ih _⟩
      change (env.imem _).getD 0 = known
      rw [Option.mem_def.1 hknown, Option.getD_some]

end Driven

/-- Whatever the buses, the interrupts and the debugger do, and whenever they do it: after any
number of cycles the program counter, the registers and the transfers are those that the
instruction set gives for the instructions and exceptions that have left the M stage, one after the
other. -/
theorem lm32_run {env : Outside} {r : Running} (hinit : (lm32 env).Initial r)
    {inputs : List Pins} (hrun : (lm32 env).AllowedRun r inputs) :
    (isa env).Initial r.arch ∧
      (isa env).AllowedRun r.arch ((lm32 env).events (Running.event env) r inputs) ∧
      ((lm32 env).run r inputs).arch =
        (isa env).run r.arch ((lm32 env).events (Running.event env) r inputs) := by
  obtain ⟨hvalid, hisa⟩ := (Running.simulates env).initial r hinit
  exact ⟨hisa, (Running.simulates env).run hvalid hrun⟩

/-- Fifteen cycles of a memory full of `addi r1, r1, 1`, each of which needs the result of the one
before it. -/
theorem lm32_run_addi :
    ((lm32 ⟨fun _ => some 0x34210001, fun _ _ _ => 0⟩).run ⟨.reset, []⟩
      (drive ⟨fun _ => some 0x34210001, fun _ _ _ => 0⟩ 15 ⟨.reset, []⟩)).arch.regs 1 = 4 :=
  (congrArg (fun a => a.regs 1)
    (lm32_run ⟨Core.afterReset_reset, rfl⟩ (drive_allowed _ 15 _)).2.2).trans (by decide +kernel)

end Soc.Lm32
