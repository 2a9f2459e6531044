import Soc.Lm32.Refinement

/-!
# The LM32 makes progress

What happens in a run of the core is what the instruction set says, but not that anything happens.
Here it is bounded how long the core can go without carrying out an instruction or taking an
exception, in cycles in which it does not just wait for its buses. The oldest instruction in the
pipeline moves towards the M stage, and in each stage it waits for a fetch, for the data bus or for
the divider only, never for another instruction.
-/

namespace Soc.Lm32

open Library (Machine)

/-- The cycles until the divider is idle. -/
def McArithmetic.remaining (s : McArithmetic) : Nat :=
  if s.state = .IDLE then 0 else s.cycles.toNat + 1

/-- No operation takes longer than its counter says. -/
theorem McArithmetic.remaining_le (s : McArithmetic) : s.remaining ≤ s.cycles.toNat + 1 := by
  rw [remaining]
  split
  · exact Nat.zero_le _
  · exact Nat.le_refl _

/-- The divider goes on in every cycle in which no operation starts. -/
theorem McArithmetic.remaining_next {s : McArithmetic} {i : McIn} (h : i.stallD = true) :
    (s.next i).remaining ≤ s.remaining - 1 := by
  have hstep : ∀ result, (s.step i result).remaining ≤ s.cycles.toNat := by
    intro result
    by_cases hzero : s.cycles = 0
    · simp [remaining, step, hzero]
    · have hpos : s.cycles.toNat ≠ 0 := fun h0 => hzero (BitVec.eq_of_toNat_eq h0)
      have hlt := s.cycles.isLt
      have hsub : (s.cycles - 1).toNat + 1 = s.cycles.toNat := by
        rw [BitVec.toNat_sub]
        change (64 - 1 + s.cycles.toNat) % 64 + 1 = _
        omega
      rw [← hsub]
      exact remaining_le (s.step i result)
  rw [next]
  cases hs : s.state with
  | IDLE => simp [remaining, hs, h]
  | DIVIDE => simpa [remaining, hs] using hstep s.a
  | MODULUS => simpa [remaining, hs] using hstep s.p

namespace Core

variable (s : Core) (p : Pins)

/-- The core does not just wait for its buses: no transfer is under way, or one ends. -/
def served : Bool :=
  !s.iu.iCycO && !s.lsu.dCycO || s.iu.iCycO && (p.iAckI || p.iErrI) ||
    s.lsu.dCycO && (p.dAckI || p.dErrI)

/-- How far the oldest instruction is from the M stage. -/
def distance : Nat :=
  if s.validM then 0 else if s.validX then 1 else if s.validD then 2 else if s.validF then 3 else 4

/-- What the stages wait for. -/
def work : Nat :=
  2 * s.lsu.stallWbLoad.toNat + s.lsu.dCycO.toNat + s.iu.iCycO.toNat + s.mc.remaining

/-- The cycles that can pass until an instruction leaves the M stage, at most. -/
def patience : Nat := 38 * s.distance + s.work

/-- A load that waits for its transfer is in the M stage, and its transfer can start when the data
bus is free. -/
structure Waiting : Prop where
  load : s.lsu.stallWbLoad = true → s.m.loadM = true
  valid : s.lsu.stallWbLoad = true → s.validM = true
  select : s.lsu.stallWbLoad = true → s.lsu.wbSelectM = true
  ahead : s.lsu.stallWbLoad = true → s.lsu.wbLoadComplete = false
  writing : s.lsu.stallWbLoad = true → s.lsu.dCycO = true → s.lsu.dWeO = true

variable {s p} {env : Outside} {transfers : List Access}

/-- Nothing waits after reset. -/
theorem Waiting.of_afterReset (h : s.AfterReset) : s.Waiting := by
  constructor <;> simp [h.lsu, LoadStoreUnit.reset]

/-- The load that waits, after a cycle. -/
theorem stallWbLoad_next (s : Core) (p : Pins) : (s.next p).lsu.stallWbLoad =
    if s.m.exceptionM then false
    else if s.loadQX p && !s.stallX p then true
    else if s.lsu.startsLoad (s.loadStoreIn p) then false
    else s.lsu.stallWbLoad := by
  have hkill : (s.loadStoreIn p).killM = false := rfl
  rw [lsu_next, LoadStoreUnit.next]
  dsimp only
  rw [hkill, Bool.false_or]
  rfl

/-- A load that waits goes on waiting in the M stage. -/
theorem Waiting.next_waits (h : s.Waiting) (hM : s.stallM p = true) : (s.next p).Waiting := by
  have hX := stallX_of_stallM hM
  have hstall : (s.loadStoreIn p).stallM = true := hM
  have hkeep : (s.next p).lsu.stallWbLoad = true →
      s.lsu.stallWbLoad = true ∧ s.lsu.startsLoad (s.loadStoreIn p) = false := by
    intro hw
    rw [stallWbLoad_next, hX] at hw
    cases he : s.m.exceptionM <;> cases hl : s.lsu.startsLoad (s.loadStoreIn p) <;>
      simp [he, hl] at hw ⊢
    exact hw
  have hstore : s.lsu.startsStore (s.loadStoreIn p) = false := by
    simp [LoadStoreUnit.startsStore, hstall]
  constructor <;> intro hw <;> obtain ⟨hw', hno⟩ := hkeep hw
  · simpa [hM] using h.load hw'
  · simpa [hM, hX] using h.valid hw'
  · simpa [lsu_next, LoadStoreUnit.next, hstall] using h.select hw'
  · rw [lsu_next]
    cases hdone : s.lsu.completes (s.loadStoreIn p) with
    | false => simpa [LoadStoreUnit.next, hstall, hdone] using h.ahead hw'
    | true =>
        have hcyc : s.lsu.dCycO = true := by
          rw [LoadStoreUnit.completes, Bool.and_eq_true] at hdone
          exact hdone.1
        simp [LoadStoreUnit.next, hstall, hdone, h.writing hw' hcyc]
  · intro hcyc
    rw [lsu_next] at hcyc ⊢
    have hcyc' : s.lsu.dCycO = true := by
      cases hbusy : s.lsu.dCycO with
      | true => rfl
      | false => simp [LoadStoreUnit.next, hbusy, hstore, hno] at hcyc
    simpa [LoadStoreUnit.next, hstore, hno] using h.writing hw' hcyc'

/-- A load that enters the M stage starts waiting there. -/
theorem Waiting.next_moves (hbus : Running.Bus ⟨s, transfers⟩ env) (hM : s.stallM p = false) :
    (s.next p).Waiting := by
  have hstall : (s.loadStoreIn p).stallM = false := hM
  have hidle : s.lsu.stallWbLoad = false := by
    simp only [stallM, Bool.or_eq_false_iff] at hM
    exact hM.1.1
  have henters : (s.next p).lsu.stallWbLoad = true →
      s.stallX p = false ∧ s.loadQX p = true := by
    intro hw
    rw [stallWbLoad_next, hidle] at hw
    cases hX : s.stallX p <;> cases hl : s.loadQX p <;> simp [hX, hl] at hw ⊢
  constructor <;> intro hw <;> obtain ⟨hX, hl⟩ := henters hw
  · simp only [loadQX, Bool.and_eq_true] at hl
    simpa [hM, xToM] using hl.1.1
  · simp only [loadQX, qX, Bool.and_eq_true] at hl
    simpa [hX] using hl.1.2
  · simp [lsu_next, LoadStoreUnit.next, hstall]
  · simp [lsu_next, LoadStoreUnit.next, hstall]
  · exact writes_of_moves hbus hM

/-- A cycle keeps the invariant. -/
theorem Waiting.next (h : s.Waiting) (hbus : Running.Bus ⟨s, transfers⟩ env) :
    (s.next p).Waiting := by
  cases hM : s.stallM p with
  | true => exact h.next_waits hM
  | false => exact .next_moves hbus hM

section Measure

variable {imem : Pc → Option Word}

/-- No operation of the divider takes more than 33 cycles. -/
theorem remaining_le (h : s.Data imem) : s.mc.remaining ≤ 33 := by
  cases hop : s.validX && s.x.control.xResultSelMcArith with
  | false => simp [McArithmetic.remaining, h.idle hop]
  | true =>
      rw [Bool.and_eq_true] at hop
      rcases h.dividing hop.1 hop.2 with ⟨k, hbusy⟩ | hdone
      · have hle := s.mc.remaining_le
        have hcycles := hbusy.cycles
        omega
      · simp [McArithmetic.remaining, hdone.state]

/-- There is only so much to wait for. -/
theorem work_le (h : s.Data imem) : s.work ≤ 37 := by
  have hmc := remaining_le h
  have hload := Bool.toNat_le s.lsu.stallWbLoad
  have hdata := Bool.toNat_le s.lsu.dCycO
  have hfetch := Bool.toNat_le s.iu.iCycO
  rw [work]
  omega

/-- No instruction is more than four stages away. -/
theorem distance_le : s.distance ≤ 4 := by
  rw [distance]
  split_ifs <;> decide

/-- The patience of a state is bounded. -/
theorem patience_le (h : s.Data imem) : s.patience ≤ 189 := by
  have hwork := work_le h
  have hdistance := s.distance_le
  rw [patience]
  omega

/-- A load in the M stage that has not had its transfer starts it as soon as the data bus is
free. -/
theorem Waiting.starts (h : s.Waiting) (hw : s.lsu.stallWbLoad = true)
    (hcyc : s.lsu.dCycO = false) (he : s.m.exceptionM = false)
    (hstore : s.lsu.startsStore (s.loadStoreIn p) = false) :
    s.lsu.startsLoad (s.loadStoreIn p) = true := by
  have hl : (s.loadStoreIn p).loadQM = true := by
    change s.loadQM = true
    rw [loadQM, qM, h.load hw, h.valid hw, he]
    rfl
  rw [LoadStoreUnit.startsStore, hcyc, Bool.not_false, Bool.true_and] at hstore
  rw [LoadStoreUnit.startsLoad, hcyc, hstore, hl, h.select hw, h.ahead hw]
  rfl

/-- A fetch under way ends when it is answered, and none begins while the pipeline waits. -/
theorem fetch_next (hD : s.stallD p = true) :
    (s.next p).iu.iCycO.toNat + (s.iu.iCycO && (p.iAckI || p.iErrI)).toNat ≤
      s.iu.iCycO.toNat := by
  have hfetch : (s.next p).iu.iCycO = (s.iu.iCycO && !(p.iAckI || p.iErrI)) := by
    change (if s.iu.iCycO then !(p.iAckI || p.iErrI) else !s.stallD p) = _
    rw [hD]
    cases s.iu.iCycO <;> rfl
  rw [hfetch]
  cases s.iu.iCycO <;> cases p.iAckI || p.iErrI <;> decide

/-- A transfer under way ends when it is answered, and the only one that begins is that of a load
that was waiting. -/
theorem data_next (h : s.Waiting) (hbus : Running.Bus ⟨s, transfers⟩ env)
    (hload : (s.loadQX p && !s.stallX p) = false)
    (hstore : s.lsu.startsStore (s.loadStoreIn p) = false) :
    2 * (s.next p).lsu.stallWbLoad.toNat + (s.next p).lsu.dCycO.toNat +
        (s.lsu.dCycO && (p.dAckI || p.dErrI) || s.lsu.stallWbLoad && !s.lsu.dCycO).toNat ≤
      2 * s.lsu.stallWbLoad.toNat + s.lsu.dCycO.toNat := by
  have hdata : (s.next p).lsu.dCycO =
      if s.lsu.dCycO then !(p.dAckI || p.dErrI) else s.lsu.startsLoad (s.loadStoreIn p) := by
    have hdone : s.lsu.completes (s.loadStoreIn p) = (s.lsu.dCycO && (p.dAckI || p.dErrI)) := rfl
    rw [lsu_next, LoadStoreUnit.next]
    dsimp only
    rw [hstore, hdone]
    cases s.lsu.dCycO <;> rfl
  rw [hdata, stallWbLoad_next, hload, if_neg Bool.false_ne_true]
  cases hcyc : s.lsu.dCycO with
  | true =>
      have hno : s.lsu.startsLoad (s.loadStoreIn p) = false := by
        simp [LoadStoreUnit.startsLoad, hcyc]
      rw [hno]
      cases s.m.exceptionM <;> cases s.lsu.stallWbLoad <;> cases p.dAckI || p.dErrI <;> decide
  | false =>
      rw [if_neg Bool.false_ne_true, Bool.false_and, Bool.not_false, Bool.and_true, Bool.false_or]
      cases hl : s.lsu.startsLoad (s.loadStoreIn p) with
      | true =>
          obtain ⟨-, hq, -, hahead⟩ := startsLoad_waits hbus hl
          have hw : s.lsu.stallWbLoad = true := by
            rcases hbus.waiting hq with hw | ⟨hbusy, -⟩ | hdone
            · exact hw
            · exact absurd hbusy (by change ¬ s.lsu.dCycO = true; rw [hcyc]; decide)
            · exact absurd hdone (by change ¬ s.lsu.wbLoadComplete = true; rw [hahead]; decide)
          rw [hw]
          cases s.m.exceptionM <;> decide
      | false =>
          cases hw : s.lsu.stallWbLoad with
          | false => simp
          | true =>
              have he : s.m.exceptionM = true := by
                by_contra he
                exact absurd (h.starts hw hcyc (Bool.eq_false_iff.2 he) hstore)
                  (by rw [hl]; decide)
              rw [he]
              decide

/-- While the front of the pipeline waits and no access begins, what there is to wait for gets less
in every cycle in which the core does not just wait for its buses. -/
theorem work_next (h : s.Waiting) (hbus : Running.Bus ⟨s, transfers⟩ env)
    (hD : s.stallD p = true) (hload : (s.loadQX p && !s.stallX p) = false)
    (hstore : s.lsu.startsStore (s.loadStoreIn p) = false) (hwork : 0 < s.work) :
    (s.next p).work + (s.served p).toNat ≤ s.work := by
  have hmc : (s.next p).mc.remaining ≤ s.mc.remaining - 1 := McArithmetic.remaining_next hD
  have hfetch := fetch_next hD
  have hdata := data_next h hbus hload hstore
  have hone := Bool.toNat_le (s.served p)
  rw [work] at hwork ⊢
  rw [work]
  cases hends : s.iu.iCycO && (p.iAckI || p.iErrI) with
  | true =>
      rw [hends, Bool.toNat_true] at hfetch
      omega
  | false =>
      cases hdone : s.lsu.dCycO && (p.dAckI || p.dErrI) with
      | true =>
          rw [hdone, Bool.true_or, Bool.toNat_true] at hdata
          omega
      | false =>
          rw [hends, Bool.toNat_false] at hfetch
          rw [hdone, Bool.false_or] at hdata
          rw [served, hends, hdone, Bool.or_false, Bool.or_false]
          cases hi : s.iu.iCycO with
          | true =>
              rw [hi] at hfetch
              simp only [Bool.not_true, Bool.false_and, Bool.toNat_false, Bool.toNat_true] at *
              omega
          | false =>
              cases hcyc : s.lsu.dCycO with
              | true =>
                  rw [hi] at hfetch
                  simp only [hcyc, Bool.not_true, Bool.and_false, Bool.toNat_false] at *
                  omega
              | false =>
                  rw [hcyc, Bool.not_false, Bool.and_true] at hdata
                  rw [hi] at hfetch
                  rw [hi, hcyc] at hwork
                  simp only [Bool.toNat_false, Bool.not_false, Bool.and_true, Bool.toNat_true,
                    Nat.add_zero] at hfetch hdata hwork ⊢
                  omega

end Measure

section Step

variable {imem : Pc → Option Word}

/-- Without an instruction in the X or M stage the pipeline waits for the data bus only. -/
theorem dCycO_of_stallD (hvM : s.validM = false) (hvX : s.validX = false)
    (hX : s.stallX p = false) (hD : s.stallD p = true) : s.lsu.dCycO = true := by
  have hbusy : s.memoryBusy p = s.lsu.dCycO := by
    simp [memoryBusy, loadQX, loadQM, storeQX, storeQM, qX, qM, hvM, hvX]
  have hlock : s.interlock p = false := by
    simp [interlock, rawX, rawM, writeEnableQX, writeEnableQM, hvM, hvX]
  have hload : s.loadQX p = false := by simp [loadQX, qX, hvX]
  rw [stallD, hX, hbusy, hlock, hload] at hD
  by_contra hcyc
  simp [Bool.eq_false_iff.2 hcyc] at hD

/-- The instructions stay where they are when the D stage waits, unless one enters the M stage. -/
theorem distance_waits (h : s.Path imem) (hD : s.stallD p = true) (hk : s.killX p = false)
    (hM : s.validM = true → s.stallM p = true)
    (hX : s.validX = true → s.stallX p = true) : (s.next p).distance = s.distance := by
  have ht : s.branchTakenM p = false := Bool.eq_false_iff.2 fun ht =>
    absurd (killX_of_branchTakenM ht) (by rw [hk]; decide)
  have hvX : (s.next p).validX = s.validX := by
    rw [next_validX, hD, hk]
    cases hv : s.validX with
    | true => simp [hX hv]
    | false => simp
  have hvM : (s.next p).validM = s.validM := by
    rw [next_validM, hk]
    cases hv : s.validM with
    | true => simp [hM hv, stallX_of_stallM (hM hv)]
    | false =>
        cases hv' : s.validX with
        | true => simp [hX hv']
        | false => simp
  have hvD : (s.next p).validD = s.validD := by simp [hD, ht]
  rw [distance, distance, hvX, hvM, hvD, validF_of_waits h hD]

/-- The oldest instruction moves on with the X stage, when nothing is ahead of it. -/
theorem distance_moves (hv : s.validM = false) (hk : s.killX p = false)
    (hX : s.stallX p = false) (hD : s.validX = true ∨ s.stallD p = false) :
    (s.next p).distance + 1 = s.distance := by
  have ht : s.branchTakenM p = false := Bool.eq_false_iff.2 fun ht =>
    absurd (killX_of_branchTakenM ht) (by rw [hk]; decide)
  rw [distance, distance, next_validM, next_validX, next_validD, next_validF, hk, ht, hX, hv]
  cases hvX : s.validX with
  | true => simp
  | false =>
      have hD' := hD.resolve_left (by rw [hvX]; decide)
      cases hvD : s.validD with
      | true => simp [hD']
      | false =>
          have hkill : s.killF p = false := by
            rw [killF_of_branchTakenM ht, hvD, Bool.false_and]
          cases hvF : s.validF <;> simp [hD', hkill]

/-- In a cycle in which nothing leaves the M stage, the patience of a state never gets more,
and less unless the core just waits for its buses. -/
theorem patience_next (hpath : s.Path imem) (hdata : s.Data imem) (hwait : s.Waiting)
    (hbus : Running.Bus ⟨s, transfers⟩ env) (hc : (s.validM && !s.stallM p) = false) :
    (s.next p).patience + (s.served p).toNat ≤ s.patience := by
  have hmoves : (s.next p).distance + 1 = s.distance →
      (s.next p).patience + (s.served p).toNat ≤ s.patience := by
    intro hdistance
    have hwork := work_le (hdata.next (p := p) hpath)
    have hone := Bool.toNat_le (s.served p)
    rw [patience, patience]
    omega
  have hstays : s.stallD p = true → s.killX p = false → (s.validX = true → s.stallX p = true) →
      0 < s.work → (s.next p).patience + (s.served p).toNat ≤ s.patience := by
    intro hD hk hX hwork
    have hM : s.validM = true → s.stallM p = true := by
      intro hv
      simpa [hv] using hc
    have hload : (s.loadQX p && !s.stallX p) = false := by
      cases hv : s.validX with
      | true => rw [hX hv, Bool.not_true, Bool.and_false]
      | false => simp [loadQX, qX, hv]
    have hstore : s.lsu.startsStore (s.loadStoreIn p) = false := by
      have hq : (s.loadStoreIn p).storeQM = s.storeQM := rfl
      have hstall : (s.loadStoreIn p).stallM = s.stallM p := rfl
      rw [LoadStoreUnit.startsStore, hq, hstall, storeQM, qM]
      cases hv : s.validM with
      | true => simp [hM hv]
      | false => simp
    have hless := work_next hwait hbus hD hload hstore hwork
    rw [patience, patience, distance_waits hpath hD hk hM hX]
    omega
  have hnoKill : s.validM = false → s.killX p = false := fun hv =>
    Bool.eq_false_iff.2 fun hk => absurd (killX_validM hpath hk) (by rw [hv]; decide)
  rcases s.stall_cases p with ⟨hM, hX, hD, -, hk⟩ | ⟨hM, hX, hD, -, hk⟩ | ⟨hM, hX, hD, -⟩ |
    ⟨hM, hX, hD⟩
  · refine hstays hD hk (fun _ => hX) ?_
    -- the M stage waits for a load, for the data bus or for a fetch
    rw [work]
    cases hload : s.lsu.stallWbLoad with
    | true =>
        rw [Bool.toNat_true]
        omega
    | false =>
        cases hfetch : s.iu.iCycO with
        | true =>
            rw [Bool.toNat_true]
            omega
        | false =>
            have hcyc : s.lsu.dCycO = true := by
              rw [stallM, hload, hfetch, Bool.false_or, Bool.or_false, Bool.and_eq_true] at hM
              exact hM.1
            rw [hcyc, Bool.toNat_true]
            omega
  · refine hstays hD hk (fun _ => hX) ?_
    -- the X stage waits for the divider
    have hbusy : s.mc.stallRequestX = true := by
      rw [stallX, hM, hk] at hX
      simpa using hX
    have hstate : s.mc.state ≠ .IDLE := by
      rw [McArithmetic.stallRequestX, decide_eq_true_eq] at hbusy
      exact hbusy
    rw [work, McArithmetic.remaining, if_neg hstate]
    omega
  · have hv : s.validM = false := by simpa [hM] using hc
    cases hvX : s.validX with
    | true => exact hmoves (distance_moves hv (hnoKill hv) hX (.inl hvX))
    | false =>
        refine hstays hD (hnoKill hv) (fun h => absurd h (by rw [hvX]; decide)) ?_
        -- the D stage waits for a store
        rw [work, dCycO_of_stallD hv hvX hX hD, Bool.toNat_true]
        omega
  · have hv : s.validM = false := by simpa [hM] using hc
    exact hmoves (distance_moves hv (hnoKill hv) hX (.inr hD))

end Step

end Core

namespace Running

variable {env : Outside}

/-- The invariant behind progress. -/
theorem waiting_of_reachable {r : Running} (h : (lm32 env).Reachable r) :
    r.Valid env ∧ r.core.Waiting := by
  refine Machine.invariant (P := fun r => r.Valid env ∧ r.core.Waiting) (fun r hinit => ?_)
    (fun r p hI hp => ?_) h
  · exact ⟨Valid.initial hinit, .of_afterReset hinit.1⟩
  · exact ⟨hI.1.next hp, hI.2.next hI.1.bus⟩

end Running

/-- The core never comes to rest: of any 190 cycles in which it does not just wait for its buses, in
at least one an instruction is carried out or an exception is taken. -/
theorem lm32_progress {env : Outside} {r : Running} (hreach : (lm32 env).Reachable r)
    {inputs : List Pins} (hrun : (lm32 env).AllowedRun r inputs) :
    (lm32 env).count (fun r p => r.core.served p) r inputs <
      190 * (((lm32 env).events (Running.event env) r inputs).length + 1) := by
  have hle : (lm32 env).count (fun r p => r.core.served p) r inputs ≤
      r.core.patience + (189 + 1) * ((lm32 env).events (Running.event env) r inputs).length := by
    refine Machine.count_le (I := fun r => r.Valid env ∧ r.core.Waiting)
      (fun r => r.core.patience) 189 (fun r p hI hp => ⟨hI.1.next hp, hI.2.next hI.1.bus⟩)
      (fun r hI => Core.patience_le hI.1.data) (fun r p hI _ hevent => ?_)
      (Running.waiting_of_reachable hreach) hrun
    refine Core.patience_next hI.1.path hI.1.data hI.2 hI.1.bus (Bool.eq_false_iff.2 fun hc => ?_)
    rw [Running.event, if_pos hc] at hevent
    exact Option.some_ne_none _ hevent
  have hfirst := Core.patience_le (Running.waiting_of_reachable hreach).1.data
  omega

/-- Buses that answer at once never keep the core waiting. -/
theorem count_drive (env : Outside) (n : Nat) (r : Running) :
    (lm32 env).count (fun r p => r.core.served p) r (drive env n r) = n := by
  induction n generalizing r with
  | zero => rfl
  | succ n ih =>
      have hready : r.core.served (r.answers env) = true := by
        rw [Core.served]
        cases r.core.iu.iCycO <;> cases r.core.lsu.dCycO <;> rfl
      rw [drive, Machine.count, ih, hready, Bool.toNat_true, Nat.add_comm]

/-- In 1900 cycles with such buses, at least ten instructions of a memory full of
`addi r1, r1, 1` are carried out. -/
theorem lm32_progress_addi :
    10 ≤ ((lm32 ⟨fun _ => some 0x34210001, fun _ _ _ => 0⟩).events
      (Running.event ⟨fun _ => some 0x34210001, fun _ _ _ => 0⟩) ⟨.reset, []⟩
      (drive ⟨fun _ => some 0x34210001, fun _ _ _ => 0⟩ 1900 ⟨.reset, []⟩)).length := by
  have hbound := lm32_progress (.initial ⟨Core.afterReset_reset, rfl⟩) (drive_allowed
    ⟨fun _ => some 0x34210001, fun _ _ _ => 0⟩ 1900 ⟨.reset, []⟩)
  rw [count_drive] at hbound
  omega

end Soc.Lm32
