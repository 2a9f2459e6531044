import Soc.Lm32.Datapath

/-!
# How instructions move through the LM32

The stages of the core stall from the front: when a stage waits, all earlier ones do. So a cycle is
one of four: nothing moves, the M stage empties, the X and M stages move on, or all do. In each of
them `Path` is kept: the program counters of the stages follow each other along the predicted path,
and the stages hold what was fetched there.
-/

namespace Soc.Lm32

namespace Core

variable (s : Core) (p : Pins)

/-- What is in the M stage turns away from the predicted path. -/
def redirects : Bool :=
  s.m.branchM && s.validM &&
    (s.m.conditionMetM && !s.m.branchPredictTakenM || s.branchMispredictTakenM) || s.m.exceptionM

section Stalls

variable {s p}

/-- The X stage waits for the M stage. -/
theorem stallX_of_stallM (h : s.stallM p = true) : s.stallX p = true := by
  rw [stallX, h, Bool.true_or]

/-- The D stage waits for the X stage. -/
theorem stallD_of_stallX (h : s.stallX p = true) : s.stallD p = true := by
  simp only [stallD, h, Bool.true_or]

/-- The M stage moves when the X stage does. -/
theorem stallM_of_stallX (h : s.stallX p = false) : s.stallM p = false :=
  Bool.eq_false_iff.2 fun hm => absurd (stallX_of_stallM hm) (Bool.eq_false_iff.1 h)

/-- The X stage moves when the D stage does. -/
theorem stallX_of_stallD (h : s.stallD p = false) : s.stallX p = false :=
  Bool.eq_false_iff.2 fun hx => absurd (stallD_of_stallX hx) (Bool.eq_false_iff.1 h)

/-- A branch is taken when it leaves the M stage. -/
theorem branchTakenM_eq : s.branchTakenM p = (!s.stallM p && s.redirects) := rfl

/-- A taken branch flushes the X stage. -/
theorem killX_of_branchTakenM (h : s.branchTakenM p = true) : s.killX p = true := by
  simp only [branchTakenM, killX, branchFlushXM, Bool.and_eq_true, Bool.or_eq_true] at h ⊢
  obtain ⟨hm, ⟨hb, ⟨hc, -⟩ | hc⟩ | he⟩ := h
  · exact ⟨hm, .inl ⟨hb, .inl hc⟩⟩
  · exact ⟨hm, .inl ⟨hb, .inr hc⟩⟩
  · exact ⟨hm, .inr he⟩

/-- The X stage does not wait when it is flushed. -/
theorem stallX_of_killX (h : s.killX p = true) : s.stallX p = false := by
  have hm : s.stallM p = false := by
    rw [killX, branchFlushXM, Bool.and_eq_true, Bool.not_eq_true'] at h
    exact h.1
  rw [stallX, hm, h, Bool.not_true, Bool.and_false, Bool.or_false]

/-- No stage waits when a branch is taken. -/
theorem stallD_of_branchTakenM (h : s.branchTakenM p = true) : s.stallD p = false := by
  have hkill := killX_of_branchTakenM h
  have hload : s.loadQX p = false := by simp [loadQX, qX, hkill]
  simp [stallD, stallX_of_killX hkill, killD, h, hload]

/-- A busy fetch holds the M stage. -/
theorem iCycO_of_stallM (h : s.stallM p = false) : s.iu.iCycO = false := by
  simp only [stallM, Bool.or_eq_false_iff] at h
  exact h.2

variable (s p)

/-- The ways a cycle can go: everything waits, the M stage moves, the M and X stages move, or all
stages do. A branch is taken in the last only, and the second never flushes the X stage. -/
theorem stall_cases :
    (s.stallM p = true ∧ s.stallX p = true ∧ s.stallD p = true ∧ s.branchTakenM p = false ∧
      s.killX p = false) ∨
    (s.stallM p = false ∧ s.stallX p = true ∧ s.stallD p = true ∧ s.branchTakenM p = false ∧
      s.killX p = false) ∨
    (s.stallM p = false ∧ s.stallX p = false ∧ s.stallD p = true ∧ s.branchTakenM p = false) ∨
    (s.stallM p = false ∧ s.stallX p = false ∧ s.stallD p = false) := by
  cases hD : s.stallD p with
  | false => exact .inr (.inr (.inr ⟨stallM_of_stallX (stallX_of_stallD hD), stallX_of_stallD hD,
      rfl⟩))
  | true =>
      have htaken : s.branchTakenM p = false := Bool.eq_false_iff.2 fun h =>
        absurd (stallD_of_branchTakenM h) (by rw [hD]; decide)
      cases hX : s.stallX p with
      | false => exact .inr (.inr (.inl ⟨stallM_of_stallX hX, rfl, rfl, htaken⟩))
      | true =>
          have hkill : s.killX p = false := Bool.eq_false_iff.2 fun h =>
            absurd (stallX_of_killX h) (by rw [hX]; decide)
          cases hM : s.stallM p with
          | false => exact .inr (.inl ⟨rfl, rfl, rfl, htaken, hkill⟩)
          | true => exact .inl ⟨rfl, rfl, rfl, htaken, hkill⟩

end Stalls

section Next

/-! The registers after a cycle. -/

/-- `pc_a`. -/
def pcA : Pc := s.iu.pcA (s.instructionIn p)

@[simp] theorem next_pcF :
    (s.next p).iu.pcF = if s.stallD p = false then s.pcA p else s.iu.pcF := rfl

@[simp] theorem next_pcD :
    (s.next p).iu.pcD = if s.stallD p = false then s.iu.pcF else s.iu.pcD := rfl

@[simp] theorem next_pcX :
    (s.next p).iu.pcX = if s.stallX p = false then s.iu.pcD else s.iu.pcX := rfl

@[simp] theorem next_pcM :
    (s.next p).iu.pcM = if s.stallM p = false then s.iu.pcX else s.iu.pcM := rfl

@[simp] theorem next_instructionD : (s.next p).iu.instructionD =
    if s.stallD p = false then s.iu.wbDataF else s.iu.instructionD := rfl

@[simp] theorem next_busErrorD : (s.next p).iu.busErrorD =
    if s.stallD p = false then s.iu.busErrorF else s.iu.busErrorD := rfl

@[simp] theorem next_validF :
    (s.next p).validF = if s.killF p || !s.stallD p then true else s.validF := rfl

@[simp] theorem next_validD : (s.next p).validD =
    if s.branchTakenM p then false
    else if s.stallD p = false then s.validF && !s.killF p
    else s.validD := rfl

@[simp] theorem next_validX : (s.next p).validX =
    if s.stallD p = false then s.validD && !s.branchTakenM p
    else if s.killX p then false
    else if s.stallX p = false then false
    else s.validX := rfl

@[simp] theorem next_validM : (s.next p).validM =
    if s.stallX p = false then s.validX && !s.killX p
    else if s.stallM p = false then false
    else s.validM := rfl

@[simp] theorem next_validW :
    (s.next p).validW = if s.stallM p = false then s.validM else false := rfl

@[simp] theorem next_x : (s.next p).x =
    if s.stallX p = false then
      dToX s.iu.instructionD s.iu.pcD s.iu.pcF (s.bypassData0 p) (s.bypassData1 p) s.iu.busErrorD
    else s.x := rfl

@[simp] theorem next_m : (s.next p).m = if s.stallM p = false then s.xToM p else s.m := rfl

end Next

section Fetch

variable {s p}

/-- The fetch goes on at the target of a branch that is taken. -/
theorem pcA_of_branchTakenM (h : s.branchTakenM p = true) : s.pcA p =
    if s.branchMispredictTakenM && !s.m.exceptionM then s.iu.pcX else s.m.branchTargetM := by
  simp [pcA, InstructionUnit.pcA, instructionIn, h]

/-- The fetch goes on at the target of a branch that is predicted taken. -/
theorem pcA_of_predicted (h : s.branchTakenM p = false) (hvalid : s.validD = true)
    (hpred : branchPredictTaken s.iu.instructionD = true) : s.pcA p =
    branchPredictAddress s.iu.instructionD s.iu.pcD s.iu.pcF := by
  simp [pcA, InstructionUnit.pcA, instructionIn, h, hvalid, hpred]

/-- Otherwise the next word is fetched. -/
theorem pcA_of_not_killF (h : s.killF p = false) : s.pcA p = s.iu.pcF + 1 := by
  rw [killF, Bool.or_eq_false_iff] at h
  simp [pcA, InstructionUnit.pcA, instructionIn, h.1, h.2]

/-- The F stage is flushed by branches only. -/
theorem killF_of_branchTakenM (h : s.branchTakenM p = false) :
    s.killF p = (s.validD && branchPredictTaken s.iu.instructionD) := by
  rw [killF, h, Bool.or_false]

/-- An exception is pending when its instruction enters the M stage. -/
theorem xToM_exceptionM (h : s.stallX p = false) (he : (s.xToM p).exceptionM = true) :
    (s.validX && !s.killX p) = true := by
  simp only [xToM, h, Bool.not_false, Bool.and_true, Bool.and_eq_true] at he
  exact he.2

end Fetch

/-- The program counters and what was fetched. A stage that holds an instruction is one behind the
program counter of the stage before it. A branch that is predicted taken is followed by a bubble,
and the fetch goes on at its target. -/
structure Path (imem : Pc → Option Word) : Prop where
  busy : s.iu.iCycO = true → s.validF = true
  address : s.validF = true → s.iu.iAdrO = s.iu.pcF ++ 0#2
  fetched : s.validF = true → s.iu.iCycO = false →
    s.iu.busErrorF = true ∨ Brings imem s.iu.pcF s.iu.wbDataF
  front : (s.validD || s.validX || s.validM) = true → s.validF = true
  exception : s.m.exceptionM = true → s.validM = true
  pcF : s.validD = true → s.iu.pcF = s.iu.pcD + 1
  pcD : s.validX = true → s.iu.pcD = s.iu.pcX + 1
  pcX : s.validM = true → s.iu.pcX = s.iu.pcM + 1
  instruction : s.validD = true →
    s.iu.busErrorD = true ∨ Brings imem s.iu.pcD s.iu.instructionD
  takenX : s.validX = true → s.x.branchPredictTakenX = true →
    s.validD = false ∧ s.iu.pcF = s.x.branchTargetX
  straightX : s.validX = true → s.x.branchPredictTakenX = false → s.validD = true
  takenM : s.validM = true → s.m.exceptionM = false → s.m.branchPredictTakenM = true →
    s.validX = false ∧
      (if s.validD then s.iu.pcD = s.m.branchTargetM else s.iu.pcF = s.m.branchTargetM)
  straightM : s.validM = true → s.m.branchPredictTakenM = false →
    s.validX = true ∨ s.validD = true ∧ s.iu.pcD = s.iu.pcM + 1

namespace Path

variable {s p} {imem : Pc → Option Word}

/-- Nothing is in the pipeline after reset. -/
theorem of_afterReset (h : s.AfterReset) : s.Path imem := by
  obtain ⟨hiu, -, -, -, -, hvalid, hexc⟩ := h
  simp only [Bool.or_eq_false_iff] at hvalid
  obtain ⟨⟨⟨⟨hF, hD⟩, hX⟩, hM⟩, -⟩ := hvalid
  constructor <;> simp [hF, hD, hX, hM, hexc, hiu, InstructionUnit.reset]

/-- A branch that is predicted taken has the target that the fetch goes on at. -/
theorem branchTargetX_of_predicted {i : Word} (h : branchPredictTaken i = true) (pcD pcF : Pc)
    (v0 v1 : Word) (busError : Bool) :
    (dToX i pcD pcF v0 v1 busError).branchTargetX = branchPredictAddress i pcD pcF := by
  have hreg : (decoder i).branchReg = false := by
    have hf := flow_kind i
    generalize kind i = k at hf
    simp only [Control.flow] at hf
    cases k <;> injection hf with _ _ _ _ hreg hcond huncond _ _ <;>
      first
        | exact hreg
        | simp [branchPredictTaken, hcond, huncond] at h
  simp [dToX, hreg, branchPredictAddress, h]

/-- What a fetch that is acknowledged brings. -/
def Answered (imem : Pc → Option Word) (s : Core) (p : Pins) : Prop :=
  s.iu.iCycO = true → p.iAckI = true → Brings imem (s.iu.iAdrO.extractLsb' 2 30) p.iDatI

/-- The address of an instruction on the bus. -/
theorem extract_address (pc : Pc) : (pc ++ 0#2).extractLsb' 2 30 = pc := by
  apply BitVec.eq_of_getLsbD_eq
  intro k hk
  rw [BitVec.getLsbD_extractLsb', BitVec.getLsbD_append, if_neg (by omega), decide_eq_true hk,
    Bool.true_and, Nat.add_sub_cancel_left]

/-- A stage that holds an instruction has one in the F stage behind it. -/
theorem validF_of_stallD (h : s.Path imem) (hD : s.stallD p = true)
    (hF : (s.next p).validF = true) : s.validF = true := by
  have htaken : s.branchTakenM p = false := Bool.eq_false_iff.2 fun ht =>
    absurd (stallD_of_branchTakenM ht) (by rw [hD]; decide)
  rw [next_validF, hD, Bool.not_true, Bool.or_false, killF_of_branchTakenM htaken] at hF
  by_cases hvalid : s.validD = true
  · exact h.front (by simp [hvalid])
  · simpa [hvalid] using hF

/-- The F stage holds what is at its program counter. -/
theorem next_fetch (h : s.Path imem) (hp : Answered imem s p) :
    ((s.next p).iu.iCycO = true → (s.next p).validF = true) ∧
    ((s.next p).validF = true → (s.next p).iu.iAdrO = (s.next p).iu.pcF ++ 0#2) ∧
    ((s.next p).validF = true → (s.next p).iu.iCycO = false →
      (s.next p).iu.busErrorF = true ∨
        Brings imem (s.next p).iu.pcF (s.next p).iu.wbDataF) := by
  have hcyc : (s.next p).iu.iCycO =
      if s.iu.iCycO then !(p.iAckI || p.iErrI) else !s.stallD p := rfl
  have hadr : (s.next p).iu.iAdrO =
      if !s.iu.iCycO && !s.stallD p then s.pcA p ++ 0#2 else s.iu.iAdrO := rfl
  have herr : (s.next p).iu.busErrorF =
      if s.iu.iCycO then s.iu.busErrorF || p.iErrI else s.iu.busErrorF && s.stallD p := rfl
  have hdat : (s.next p).iu.wbDataF =
      if s.iu.iCycO && (p.iAckI || p.iErrI) then p.iDatI else s.iu.wbDataF := rfl
  rw [hcyc, hadr, herr, hdat, next_pcF]
  cases hbusy : s.iu.iCycO with
  | true =>
      -- A fetch is under way, and the pipeline waits for it.
      have hM : s.stallM p = true := by
        by_contra hM
        exact absurd (iCycO_of_stallM (Bool.eq_false_iff.2 hM)) (by rw [hbusy]; decide)
      have hD := stallD_of_stallX (stallX_of_stallM hM)
      have hF := h.busy hbusy
      have hadr := h.address hF
      refine ⟨fun _ => by simp [hF], fun _ => by simpa [hD] using hadr, fun _ hdone => ?_⟩
      have hpc : s.iu.iAdrO.extractLsb' 2 30 = s.iu.pcF := by rw [hadr, extract_address]
      cases hE : p.iErrI with
      | true => simp
      | false =>
          have hack : p.iAckI = true := by simpa [hE] using hdone
          have hbrings := hp hbusy hack
          rw [hpc] at hbrings
          simpa [hD, hack] using .inr hbrings
  | false =>
      cases hD : s.stallD p with
      | true =>
          have hvalid := fun hF => validF_of_stallD h hD hF
          exact ⟨fun hc => by simp at hc, fun hF => by simpa using h.address (hvalid hF),
            fun hF _ => by simpa using h.fetched (hvalid hF) hbusy⟩
      | false => exact ⟨fun _ => by simp [hD], fun _ => by simp, fun _ hc => by simp at hc⟩

/-- The stages behind a valid one stay valid. -/
theorem next_front (h : s.Path imem)
    (hv : ((s.next p).validD || (s.next p).validX || (s.next p).validM) = true) :
    (s.next p).validF = true := by
  cases hD : s.stallD p with
  | false => simp [hD]
  | true =>
      have hvalid : s.validF = true → (s.next p).validF = true := fun hF => by simp [hF]
      apply hvalid
      apply h.front
      have htaken : s.branchTakenM p = false := Bool.eq_false_iff.2 fun ht =>
        absurd (stallD_of_branchTakenM ht) (by rw [hD]; decide)
      rw [next_validD, next_validX, next_validM, htaken, hD] at hv
      by_contra hnone
      simp only [Bool.or_eq_true, not_or, Bool.not_eq_true] at hnone
      simp [hnone.1.1, hnone.1.2, hnone.2] at hv

/-- The program counter of the F stage. -/
theorem next_pcF_eq (h : s.Path imem) (hv : (s.next p).validD = true) :
    (s.next p).iu.pcF = (s.next p).iu.pcD + 1 := by
  rw [next_validD] at hv
  rw [next_pcF, next_pcD]
  rcases s.stall_cases p with ⟨-, -, hD, ht, -⟩ | ⟨-, -, hD, ht, -⟩ | ⟨-, -, hD, ht⟩ | ⟨-, -, hD⟩
  · simpa [hD, ht] using h.pcF (by simpa [hD, ht] using hv)
  · simpa [hD, ht] using h.pcF (by simpa [hD, ht] using hv)
  · simpa [hD, ht] using h.pcF (by simpa [hD, ht] using hv)
  · have hkill : s.killF p = false := by
      cases ht : s.branchTakenM p with
      | true => simp [ht] at hv
      | false => simpa [hD, ht] using (show s.validF = true ∧ s.killF p = false by
          simpa [hD, ht] using hv).2
    rw [if_pos hD, if_pos hD, pcA_of_not_killF hkill]

/-- The program counter of the D stage. -/
theorem next_pcD_eq (h : s.Path imem) (hv : (s.next p).validX = true) :
    (s.next p).iu.pcD = (s.next p).iu.pcX + 1 := by
  rw [next_validX] at hv
  rw [next_pcD, next_pcX]
  rcases s.stall_cases p with ⟨-, hX, hD, -, hk⟩ | ⟨-, hX, hD, -, hk⟩ | ⟨-, hX, hD, -⟩ |
    ⟨-, hX, hD⟩
  · simpa [hD, hX] using h.pcD (by simpa [hD, hX, hk] using hv)
  · simpa [hD, hX] using h.pcD (by simpa [hD, hX, hk] using hv)
  · simp [hD, hX] at hv
  · have hvalid : s.validD = true := by simp_all
    simpa [hD, hX] using h.pcF hvalid

/-- The program counter of the X stage. -/
theorem next_pcX_eq (h : s.Path imem) (hv : (s.next p).validM = true) :
    (s.next p).iu.pcX = (s.next p).iu.pcM + 1 := by
  rw [next_validM] at hv
  rw [next_pcX, next_pcM]
  rcases s.stall_cases p with ⟨hM, hX, -⟩ | ⟨hM, hX, -⟩ | ⟨hM, hX, -⟩ | ⟨hM, hX, -⟩
  · simpa [hM, hX] using h.pcX (by simpa [hM, hX] using hv)
  · simp [hM, hX] at hv
  · have hvalid : s.validX = true := by simp_all
    simpa [hM, hX] using h.pcD hvalid
  · have hvalid : s.validX = true := by simp_all
    simpa [hM, hX] using h.pcD hvalid

/-- The D stage holds what is at its program counter. -/
theorem next_instruction (h : s.Path imem) (hv : (s.next p).validD = true) :
    (s.next p).iu.busErrorD = true ∨
      Brings imem (s.next p).iu.pcD (s.next p).iu.instructionD := by
  rw [next_validD] at hv
  rw [next_busErrorD, next_instructionD, next_pcD]
  rcases s.stall_cases p with ⟨-, -, hD, ht, -⟩ | ⟨-, -, hD, ht, -⟩ | ⟨-, -, hD, ht⟩ | ⟨hM, -, hD⟩
  · simpa [hD] using h.instruction (by simpa [hD, ht] using hv)
  · simpa [hD] using h.instruction (by simpa [hD, ht] using hv)
  · simpa [hD] using h.instruction (by simpa [hD, ht] using hv)
  · have hvalid : s.validF = true := by
      cases hF : s.validF with
      | true => rfl
      | false => simp [hF, hD] at hv
    simpa [hD] using h.fetched hvalid (iCycO_of_stallM hM)

/-- An exception in the M stage belongs to an instruction. -/
theorem next_exception (h : s.Path imem) (he : (s.next p).m.exceptionM = true) :
    (s.next p).validM = true := by
  rw [next_m] at he
  rw [next_validM]
  rcases s.stall_cases p with ⟨hM, hX, -⟩ | ⟨hM, hX, -⟩ | ⟨hM, hX, -⟩ | ⟨hM, hX, -⟩
  · simpa [hM, hX] using h.exception (by simpa [hM] using he)
  · simp [hM, hX, xToM] at he
  · rw [if_pos hX]
    exact xToM_exceptionM hX (by simpa [hM] using he)
  · rw [if_pos hX]
    exact xToM_exceptionM hX (by simpa [hM] using he)

/-- A branch that is predicted taken in the X stage. -/
theorem next_takenX (h : s.Path imem) (hv : (s.next p).validX = true)
    (hpred : (s.next p).x.branchPredictTakenX = true) :
    (s.next p).validD = false ∧ (s.next p).iu.pcF = (s.next p).x.branchTargetX := by
  rw [next_validX] at hv
  rw [next_x] at hpred
  rw [next_validD, next_pcF, next_x]
  rcases s.stall_cases p with ⟨-, hX, hD, ht, hk⟩ | ⟨-, hX, hD, ht, hk⟩ | ⟨-, hX, hD, -⟩ |
    ⟨-, hX, hD⟩
  · simpa [hD, hX, ht] using h.takenX (by simpa [hD, hX, hk] using hv) (by simpa [hX] using hpred)
  · simpa [hD, hX, ht] using h.takenX (by simpa [hD, hX, hk] using hv) (by simpa [hX] using hpred)
  · simp [hD, hX] at hv
  · rw [if_pos hD, Bool.and_eq_true, Bool.not_eq_true'] at hv
    rw [if_pos hX] at hpred
    have hkill : s.killF p = true := by
      rw [killF_of_branchTakenM hv.2, hv.1]
      exact hpred
    rw [if_pos hD, if_pos hX, if_pos hD, branchTargetX_of_predicted hpred,
      pcA_of_predicted hv.2 hv.1 hpred, hkill]
    simp

/-- An instruction that is not predicted taken in the X stage. -/
theorem next_straightX (h : s.Path imem) (hv : (s.next p).validX = true)
    (hpred : (s.next p).x.branchPredictTakenX = false) : (s.next p).validD = true := by
  rw [next_validX] at hv
  rw [next_x] at hpred
  rw [next_validD]
  rcases s.stall_cases p with ⟨-, hX, hD, ht, hk⟩ | ⟨-, hX, hD, ht, hk⟩ | ⟨-, hX, hD, -⟩ |
    ⟨-, hX, hD⟩
  · simpa [hD, ht] using h.straightX (by simpa [hD, hX, hk] using hv) (by simpa [hX] using hpred)
  · simpa [hD, ht] using h.straightX (by simpa [hD, hX, hk] using hv) (by simpa [hX] using hpred)
  · simp [hD, hX] at hv
  · rw [if_pos hD, Bool.and_eq_true, Bool.not_eq_true'] at hv
    rw [if_pos hX] at hpred
    have hkill : s.killF p = false := by
      rw [killF_of_branchTakenM hv.2, hv.1]
      exact hpred
    simp [hD, hv.2, hkill, h.front (by simp [hv.1])]

/-- An instruction in the M stage without an exception keeps the target it had. -/
theorem xToM_branchTargetM (hX : s.stallX p = false) (hv : (s.validX && !s.killX p) = true)
    (he : (s.xToM p).exceptionM = false) : (s.xToM p).branchTargetM = s.x.branchTargetX := by
  have hexc : s.exceptionX p = false := by simpa [xToM, qX, hv, hX] using he
  simp [xToM, hexc]

/-- A branch that is predicted taken in the M stage. -/
theorem next_takenM (h : s.Path imem) (hv : (s.next p).validM = true)
    (he : (s.next p).m.exceptionM = false) (hpred : (s.next p).m.branchPredictTakenM = true) :
    (s.next p).validX = false ∧
      (if (s.next p).validD then (s.next p).iu.pcD = (s.next p).m.branchTargetM
        else (s.next p).iu.pcF = (s.next p).m.branchTargetM) := by
  rw [next_validM] at hv
  rw [next_m] at he hpred
  rw [next_validX, next_validD, next_pcD, next_pcF, next_m]
  rcases s.stall_cases p with ⟨hM, hX, hD, ht, hk⟩ | ⟨hM, hX, hD, ht, hk⟩ | ⟨hM, hX, hD, ht⟩ |
    ⟨hM, hX, hD⟩
  · simpa [hD, hX, hM, ht, hk] using h.takenM (by simpa [hM, hX] using hv)
      (by simpa [hM] using he) (by simpa [hM] using hpred)
  · simp [hM, hX] at hv
  · rw [if_pos hX] at hv
    rw [if_pos hM] at he hpred
    have hvalid : s.validX = true := by simp_all
    obtain ⟨hD', hF'⟩ := h.takenX hvalid hpred
    rw [if_pos hM, xToM_branchTargetM hX hv he]
    simp [hD, hX, ht, hD', hF']
  · rw [if_pos hX] at hv
    rw [if_pos hM] at he hpred
    have hvalid : s.validX = true := by simp_all
    have ht : s.branchTakenM p = false := Bool.eq_false_iff.2 fun ht => by
      simp [killX_of_branchTakenM ht] at hv
    obtain ⟨hD', hF'⟩ := h.takenX hvalid hpred
    have hkill : s.killF p = false := by simp [killF_of_branchTakenM ht, hD']
    rw [if_pos hM, xToM_branchTargetM hX hv he]
    simp [hD, ht, hD', hF', hkill, h.front (by simp [hvalid])]

/-- An instruction that is not predicted taken in the M stage. -/
theorem next_straightM (h : s.Path imem) (hv : (s.next p).validM = true)
    (hpred : (s.next p).m.branchPredictTakenM = false) :
    (s.next p).validX = true ∨
      (s.next p).validD = true ∧ (s.next p).iu.pcD = (s.next p).iu.pcM + 1 := by
  rw [next_validM] at hv
  rw [next_m] at hpred
  rw [next_validX, next_validD, next_pcD, next_pcM]
  rcases s.stall_cases p with ⟨hM, hX, hD, ht, hk⟩ | ⟨hM, hX, hD, ht, hk⟩ | ⟨hM, hX, hD, ht⟩ |
    ⟨hM, hX, hD⟩
  · simpa [hD, hX, hM, ht, hk] using h.straightM (by simpa [hM, hX] using hv)
      (by simpa [hM] using hpred)
  · simp [hM, hX] at hv
  · rw [if_pos hX] at hv
    rw [if_pos hM] at hpred
    have hvalid : s.validX = true := by simp_all
    right
    simpa [hD, hM, ht, h.straightX hvalid hpred] using h.pcD hvalid
  · rw [if_pos hX] at hv
    rw [if_pos hM] at hpred
    have hvalid : s.validX = true := by simp_all
    have ht : s.branchTakenM p = false := Bool.eq_false_iff.2 fun ht => by
      simp [killX_of_branchTakenM ht] at hv
    left
    simp [hD, ht, h.straightX hvalid hpred]

/-- A cycle keeps the path. -/
theorem next (h : s.Path imem) (hp : Answered imem s p) : (s.next p).Path imem where
  busy := (h.next_fetch hp).1
  address := (h.next_fetch hp).2.1
  fetched := (h.next_fetch hp).2.2
  front := h.next_front
  exception := h.next_exception
  pcF := h.next_pcF_eq
  pcD := h.next_pcD_eq
  pcX := h.next_pcX_eq
  instruction := h.next_instruction
  takenX := h.next_takenX
  straightX := h.next_straightX
  takenM := h.next_takenM
  straightM := h.next_straightM

end Path

section Order

/-- The instruction that follows the one in the M stage, among those in the pipeline. -/
def behindPc : Pc :=
  if s.validX then s.iu.pcX
  else if s.validD then s.iu.pcD
  else if s.validF then s.iu.pcF
  else s.iu.pcF + 1

/-- The oldest instruction in the pipeline: the one to be carried out next. -/
def archPc : Pc := if s.validM then s.iu.pcM else s.behindPc

/-- Where the instruction in the M stage is followed, when it leaves. -/
def followPc : Pc :=
  if s.redirects then
    if s.branchMispredictTakenM && !s.m.exceptionM then s.iu.pcX else s.m.branchTargetM
  else if s.m.branchPredictTakenM then s.m.branchTargetM
  else s.iu.pcM + 1

variable {s p} {imem : Pc → Option Word}

/-- The F stage stays as it is while it waits. -/
theorem validF_of_waits (h : s.Path imem) (hD : s.stallD p = true) :
    (s.next p).validF = s.validF := by
  cases hv : s.validF with
  | true => simp [hv]
  | false =>
      exact Bool.eq_false_iff.2 fun hn =>
        absurd (h.validF_of_stallD hD hn) (by rw [hv]; decide)

/-- Without a branch that is taken, instructions only move on. -/
theorem archPc_moves (h : s.Path imem) (ht : s.branchTakenM p = false)
    (hkill : s.killX p = true → s.validX = false)
    (hM : s.validM = false ∨ s.stallM p = false) : (s.next p).archPc = s.behindPc := by
  have hdone : (s.validX && !s.killX p) = s.validX := by
    cases hX : s.validX with
    | false => rfl
    | true =>
        have hk : s.killX p = false := Bool.eq_false_iff.2 fun hk =>
          absurd (hkill hk) (by rw [hX]; decide)
        rw [hk]
        rfl
  rw [archPc, behindPc, behindPc, next_validM, next_validX, next_validD, next_pcM, next_pcX,
    next_pcD, next_pcF, hdone, ht]
  rcases s.stall_cases p with ⟨hM', hX, hD, -, hk⟩ | ⟨hM', hX, hD, -, hk⟩ | ⟨hM', hX, hD, -⟩ |
    ⟨hM', hX, hD⟩
  · have hvalid : s.validM = false := hM.resolve_right (by rw [hM']; decide)
    rw [validF_of_waits h hD]
    simp [hM', hX, hD, hk, hvalid]
  · rw [validF_of_waits h hD]
    simp [hM', hX, hD, hk]
  · rw [validF_of_waits h hD]
    cases hvX : s.validX <;> simp [hM', hX, hD]
  · cases hvX : s.validX with
    | true => simp [hX, hM']
    | false =>
        cases hvD : s.validD with
        | true => simp [hX, hD]
        | false =>
            have hk : s.killF p = false := by rw [killF_of_branchTakenM ht, hvD, Bool.false_and]
            cases hv : s.validF with
            | true => simp [hX, hD, hk]
            | false => simp [hX, hD, hk, pcA_of_not_killF hk]

/-- The X stage is flushed by an instruction in the M stage only. -/
theorem killX_validM (h : s.Path imem) (hk : s.killX p = true) : s.validM = true := by
  simp only [killX, branchFlushXM, Bool.and_eq_true, Bool.or_eq_true] at hk
  rcases hk.2 with ⟨⟨-, hv⟩, -⟩ | he
  · exact hv
  · exact h.exception he

/-- A branch that was predicted taken and is taken has a bubble in the X stage. -/
theorem validX_of_flushed (h : s.Path imem) (hr : s.redirects = false) (hk : s.killX p = true) :
    s.validX = false := by
  have hvalid := killX_validM h hk
  simp only [redirects, Bool.or_eq_false_iff] at hr
  obtain ⟨hbranch, he⟩ := hr
  simp only [killX, branchFlushXM, he, Bool.or_false, Bool.and_eq_true, Bool.or_eq_true] at hk
  obtain ⟨-, ⟨hb, hv⟩, hmet⟩ := hk
  rw [hb, hv, Bool.and_true, Bool.true_and, Bool.or_eq_false_iff] at hbranch
  rcases hmet with hmet | hmis
  · have hpred : s.m.branchPredictTakenM = true := by simpa [hmet] using hbranch.1
    exact (h.takenM hvalid he hpred).1
  · exact absurd hmis (by rw [hbranch.2]; decide)

/-- The path goes on where the instruction in the M stage was predicted to. -/
theorem behindPc_of_straight (h : s.Path imem) (hv : s.validM = true)
    (hr : s.redirects = false) : s.behindPc = s.followPc := by
  have he : s.m.exceptionM = false := by
    rw [redirects, Bool.or_eq_false_iff] at hr
    exact hr.2
  have hF : s.validF = true := h.front (by simp [hv])
  rw [behindPc, followPc, hr, if_neg Bool.false_ne_true]
  cases hpred : s.m.branchPredictTakenM with
  | true =>
      obtain ⟨hX, hD⟩ := h.takenM hv he hpred
      rw [hX, if_neg Bool.false_ne_true, hF, if_pos rfl, if_pos rfl]
      cases hvD : s.validD with
      | true => simpa [hvD] using hD
      | false => simpa [hvD] using hD
  | false =>
      rcases h.straightM hv hpred with hX | ⟨hD, hpc⟩
      · simpa [hX] using h.pcX hv
      · cases hX : s.validX with
        | true => simpa using h.pcX hv
        | false => simpa [hD] using hpc

/-- The program counter stays while no instruction leaves the M stage. -/
theorem archPc_silent (h : s.Path imem) (hc : (s.validM && !s.stallM p) = false) :
    (s.next p).archPc = s.archPc := by
  cases hv : s.validM with
  | false =>
      have hk : s.killX p = false := Bool.eq_false_iff.2 fun hk =>
        absurd (killX_validM h hk) (by rw [hv]; decide)
      have ht : s.branchTakenM p = false := Bool.eq_false_iff.2 fun ht =>
        absurd (killX_of_branchTakenM ht) (by rw [hk]; decide)
      rw [archPc_moves h ht (fun hk' => absurd hk' (by rw [hk]; decide)) (.inl hv), archPc, hv,
        if_neg Bool.false_ne_true]
  | true =>
      have hM : s.stallM p = true := by simpa [hv] using hc
      have hX := stallX_of_stallM hM
      rw [archPc, archPc, next_validM, next_pcM]
      simp [hM, hX, hv]

/-- An instruction that leaves the M stage is followed by the one it says. -/
theorem archPc_commit (h : s.Path imem) (hv : s.validM = true) (hM : s.stallM p = false) :
    (s.next p).archPc = s.followPc := by
  cases hr : s.redirects with
  | false =>
      have ht : s.branchTakenM p = false := by rw [branchTakenM_eq, hr, Bool.and_false]
      rw [archPc_moves h ht (validX_of_flushed h hr) (.inr hM), behindPc_of_straight h hv hr]
  | true =>
      have ht : s.branchTakenM p = true := by rw [branchTakenM_eq, hr, hM]; rfl
      have hD := stallD_of_branchTakenM ht
      have hX := stallX_of_stallD hD
      have hk := killX_of_branchTakenM ht
      rw [archPc, behindPc, next_validM, next_validX, next_validD, next_validF, next_pcF, hX, hD,
        hk, ht, pcA_of_branchTakenM ht, followPc, hr]
      simp

end Order

end Core

end Soc.Lm32
