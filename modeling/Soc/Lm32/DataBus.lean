import Soc.Lm32.Forwarding

/-!
# The order of transfers on the data bus of the LM32

A load waits in the M stage until its transfer is over, but a store leaves the M stage when its
transfer starts. So the transfers that are over are, up to one, those of the instructions that have
left the M stage: a store can be missing, and the load in the M stage can be ahead. `accesses`
corrects for the one or the other, and `Bus` is what it takes to see that an instruction that leaves
the M stage adds its own transfer to them and nothing else does.
-/

namespace Soc.Lm32

namespace Running

variable (r : Running)

/-- The transfers of the instructions that have left the M stage. -/
def accesses : List Access :=
  if r.core.lsu.wbLoadComplete then r.transfers.dropLast
  else if r.core.lsu.dCycO && r.core.lsu.dWeO then
    r.transfers ++ [⟨r.core.lsu.dAdrO, r.core.lsu.dSelO, true, r.core.lsu.dDatO⟩]
  else r.transfers

/-- A read on the data bus, under way or over, belongs to the load in the M stage, and that load
waits for it. -/
structure Bus (env : Outside) : Prop where
  reading : r.core.lsu.dCycO = true → r.core.lsu.dWeO = false → r.core.loadQM = true ∧
    r.core.lsu.dAdrO = r.core.m.operandM ∧ r.core.lsu.dSelO = r.core.lsu.byteEnableM
  complete : r.core.lsu.wbLoadComplete = true → r.core.loadQM = true ∧
    r.core.lsu.dCycO = false ∧ ∃ earlier, r.transfers = earlier ++
      [⟨r.core.m.operandM, r.core.lsu.byteEnableM, false, r.core.lsu.wbDataM⟩] ∧
      r.core.lsu.wbDataM = env.answer earlier r.core.m.operandM r.core.lsu.byteEnableM
  waiting : r.core.loadQM = true → r.core.lsu.stallWbLoad = true ∨
    r.core.lsu.dCycO = true ∧ r.core.lsu.dWeO = false ∨ r.core.lsu.wbLoadComplete = true

end Running

namespace Core

/-- The transfer of the instruction in the M stage. -/
def accessM (s : Core) : Option Access :=
  if s.storeQM then some ⟨s.m.operandM, s.lsu.byteEnableM, true, s.lsu.storeDataM⟩
  else if s.loadQM then some ⟨s.m.operandM, s.lsu.byteEnableM, false, s.lsu.wbDataM⟩
  else none

variable {s : Core} {p : Pins} {env : Outside}

/-- An instruction in the M stage stays what it is while it waits. -/
theorem loadQM_waits (hM : s.stallM p = true) : (s.next p).loadQM = s.loadQM := by
  rw [loadQM, loadQM, qM, qM, next_m, next_validM, hM, stallX_of_stallM hM]
  simp

/-- A load that enters the M stage without an exception has asked for its transfer. -/
theorem loadQX_of_enters (hX : s.stallX p = false) (hl : (s.next p).loadQM = true) :
    s.loadQX p = true := by
  rw [loadQM, qM, next_m, next_validM, if_pos hX, if_pos (stallM_of_stallX hX)] at hl
  simp only [Bool.and_eq_true, Bool.not_eq_true'] at hl
  obtain ⟨hload, ⟨hvalid, hkill⟩, he⟩ := hl
  have hq : s.qX p = true := by simp [qX, hvalid, hkill]
  have hexc : s.exceptionX p = false := by
    simpa [xToM, hq, hX] using he
  have hmatch : p.bpMatch = false := by
    simp only [exceptionX, debugExceptionX, breakpointException, Bool.or_eq_false_iff, hvalid,
      Bool.and_true] at hexc
    exact hexc.1.1.1.2
  rw [loadQX, hq, hmatch]
  simpa [xToM] using hload

/-- The data bus after a cycle. -/
theorem lsu_next (s : Core) (p : Pins) : (s.next p).lsu = s.lsu.next (s.loadStoreIn p) := rfl

/-- A load that leaves the M stage has had its transfer. -/
theorem wbLoadComplete_of_leaves {transfers : List Access} (h : Running.Bus ⟨s, transfers⟩ env)
    (hM : s.stallM p = false) (hl : s.loadQM = true) : s.lsu.wbLoadComplete = true := by
  have hload : s.m.loadM = true := by
    rw [loadQM, Bool.and_eq_true] at hl
    exact hl.1
  simp only [stallM, Bool.or_eq_false_iff, hload, Bool.or_true, Bool.true_or, Bool.and_true] at hM
  rcases h.waiting hl with hstall | ⟨hcyc, -⟩ | hdone
  · exact absurd hstall (by rw [hM.1.1]; decide)
  · exact absurd hcyc (by rw [hM.1.2]; decide)
  · exact hdone

/-- No read is under way when the M stage moves on. -/
theorem writing_of_moves {transfers : List Access} (h : Running.Bus ⟨s, transfers⟩ env)
    (hM : s.stallM p = false) (hcyc : s.lsu.dCycO = true) : s.lsu.dWeO = true := by
  by_contra hwe
  have hl := (h.reading hcyc (Bool.eq_false_iff.2 hwe)).1
  exact absurd (h.complete (wbLoadComplete_of_leaves h hM hl)).2.1 (by rw [hcyc]; decide)

/-- A read starts for a load that waits. -/
theorem startsLoad_waits {transfers : List Access} (h : Running.Bus ⟨s, transfers⟩ env)
    (hstart : s.lsu.startsLoad (s.loadStoreIn p) = true) :
    s.stallM p = true ∧ s.loadQM = true ∧ s.lsu.dCycO = false ∧ s.lsu.wbLoadComplete = false := by
  simp only [LoadStoreUnit.startsLoad, loadStoreIn, Bool.and_eq_true, Bool.not_eq_true'] at hstart
  obtain ⟨⟨⟨⟨hcyc, -⟩, hl⟩, -⟩, hdone⟩ := hstart
  refine ⟨?_, hl, hcyc, hdone⟩
  by_contra hM
  exact absurd (wbLoadComplete_of_leaves h (Bool.eq_false_iff.2 hM) hl) (by rw [hdone]; decide)

/-- When the M stage moves on, what is on the data bus afterwards is a store. -/
theorem writes_of_moves {transfers : List Access} (h : Running.Bus ⟨s, transfers⟩ env)
    (hM : s.stallM p = false) (hcyc : (s.next p).lsu.dCycO = true) :
    (s.next p).lsu.dWeO = true := by
  have hload : s.lsu.startsLoad (s.loadStoreIn p) = false := Bool.eq_false_iff.2 fun hload =>
    absurd (startsLoad_waits h hload).1 (by rw [hM]; decide)
  rw [lsu_next] at hcyc ⊢
  cases hstart : s.lsu.startsStore (s.loadStoreIn p) with
  | true => simp [LoadStoreUnit.next, hstart]
  | false =>
      have hcyc' : s.lsu.dCycO = true := by
        cases hbusy : s.lsu.dCycO with
        | true => rfl
        | false => simp [LoadStoreUnit.next, hbusy, hstart, hload] at hcyc
      simpa [LoadStoreUnit.next, hstart, hload] using writing_of_moves h hM hcyc'

end Core

namespace Running

variable {env : Outside} {s : Core} {p : Pins} {transfers : List Access}

/-- While the M stage waits, no instruction adds a transfer. -/
theorem accesses_waits (h : Bus ⟨s, transfers⟩ env) (hM : s.stallM p = true) :
    ((lm32 env).next ⟨s, transfers⟩ p).accesses = accesses ⟨s, transfers⟩ := by
  have hstore : s.lsu.startsStore (s.loadStoreIn p) = false := by
    simp [LoadStoreUnit.startsStore, Core.loadStoreIn, hM]
  change accesses ⟨s.next p, transfers ++ (s.lsu.transfer (s.loadStoreIn p)).toList⟩ = _
  rw [accesses, accesses, Core.lsu_next]
  cases hcyc : s.lsu.dCycO with
  | true =>
      have hwb : s.lsu.wbLoadComplete = false := Bool.eq_false_iff.2 fun hwb =>
        absurd (h.complete hwb).2.1 (by rw [hcyc]; decide)
      have hload : s.lsu.startsLoad (s.loadStoreIn p) = false := by
        simp [LoadStoreUnit.startsLoad, hcyc]
      cases hdone : s.lsu.completes (s.loadStoreIn p) with
      | false =>
          simp [LoadStoreUnit.next, LoadStoreUnit.transfer, hdone, hstore, hload, hcyc, hwb]
      | true =>
          cases hwe : s.lsu.dWeO with
          | true =>
              simp [LoadStoreUnit.next, LoadStoreUnit.transfer, hdone, hstore, hload, hcyc, hwb,
                hwe]
          | false =>
              have hstall : (s.loadStoreIn p).stallM = true := hM
              simp [LoadStoreUnit.next, LoadStoreUnit.transfer, hdone, hcyc, hwb, hwe, hstall]
  | false =>
      have hdone : s.lsu.completes (s.loadStoreIn p) = false := by
        simp [LoadStoreUnit.completes, hcyc]
      have hstall : (s.loadStoreIn p).stallM = true := hM
      cases hload : s.lsu.startsLoad (s.loadStoreIn p) with
      | true =>
          have hwb := (Core.startsLoad_waits h hload).2.2.2
          simp [LoadStoreUnit.next, LoadStoreUnit.transfer, hdone, hstore, hload, hcyc, hwb, hstall]
      | false =>
          simp [LoadStoreUnit.next, LoadStoreUnit.transfer, hdone, hstore, hload, hcyc, hstall]

/-- An instruction that leaves the M stage adds its transfer. -/
theorem accesses_leaves (h : Bus ⟨s, transfers⟩ env) (hM : s.stallM p = false)
    (hone : s.storeQM = true → s.loadQM = false) :
    ((lm32 env).next ⟨s, transfers⟩ p).accesses =
      accesses ⟨s, transfers⟩ ++ s.accessM.toList := by
  have hstall : (s.loadStoreIn p).stallM = false := hM
  have hwb' : (s.lsu.next (s.loadStoreIn p)).wbLoadComplete = false := by
    simp [LoadStoreUnit.next, hstall]
  have hload : s.lsu.startsLoad (s.loadStoreIn p) = false := Bool.eq_false_iff.2 fun hload =>
    absurd (Core.startsLoad_waits h hload).1 (by rw [hM]; decide)
  change accesses ⟨s.next p, transfers ++ (s.lsu.transfer (s.loadStoreIn p)).toList⟩ = _
  rw [accesses, accesses, Core.lsu_next, hwb', if_neg Bool.false_ne_true, Core.accessM]
  cases hcyc : s.lsu.dCycO with
  | true =>
      have hwb : s.lsu.wbLoadComplete = false := Bool.eq_false_iff.2 fun hwb =>
        absurd (h.complete hwb).2.1 (by rw [hcyc]; decide)
      have hwe := Core.writing_of_moves h hM hcyc
      have hnone : s.loadQM = false := Bool.eq_false_iff.2 fun hl =>
        absurd (Core.wbLoadComplete_of_leaves h hM hl) (by rw [hwb]; decide)
      have hbusy := hM
      simp only [Core.stallM, hcyc, Bool.true_and, Bool.or_eq_false_iff] at hbusy
      have hstoreQM : s.storeQM = false := by rw [Core.storeQM, hbusy.1.2.1.1.1, Bool.false_and]
      have hstore : s.lsu.startsStore (s.loadStoreIn p) = false := by
        simp [LoadStoreUnit.startsStore, hcyc]
      cases hdone : s.lsu.completes (s.loadStoreIn p) with
      | false =>
          simp [LoadStoreUnit.next, LoadStoreUnit.transfer, hdone, hstore, hload, hcyc, hwb, hnone,
            hstoreQM]
      | true =>
          simp [LoadStoreUnit.next, LoadStoreUnit.transfer, hdone, hcyc, hwb, hwe, hnone, hstoreQM]
  | false =>
      have hdone : s.lsu.completes (s.loadStoreIn p) = false := by
        simp [LoadStoreUnit.completes, hcyc]
      have htransfer : s.lsu.transfer (s.loadStoreIn p) = none := by
        simp [LoadStoreUnit.transfer, hdone]
      have hstore : s.lsu.startsStore (s.loadStoreIn p) = s.storeQM := by
        simp [LoadStoreUnit.startsStore, Core.loadStoreIn, hcyc, hM]
      rw [htransfer]
      cases hwb : s.lsu.wbLoadComplete with
      | true =>
          obtain ⟨hl, -, earlier, heq, -⟩ := h.complete hwb
          change s.loadQM = true at hl
          change transfers = _ at heq
          have hno : s.storeQM = false := Bool.eq_false_iff.2 fun hs =>
            absurd (hone hs) (by rw [hl]; decide)
          simp [LoadStoreUnit.next, hstore, hload, hcyc, hno, hl, heq]
      | false =>
          have hnone : s.loadQM = false := Bool.eq_false_iff.2 fun hl =>
            absurd (Core.wbLoadComplete_of_leaves h hM hl) (by rw [hwb]; decide)
          cases hs : s.storeQM with
          | true =>
              have hadr : (s.loadStoreIn p).addressM = s.m.operandM := rfl
              simp [LoadStoreUnit.next, hstore, hcyc, hs, hadr]
          | false => simp [LoadStoreUnit.next, hstore, hload, hcyc, hs, hnone]

/-- A load that leaves the M stage has been answered after the transfers of all instructions before
it. -/
theorem answer_of_leaves (h : Bus ⟨s, transfers⟩ env) (hM : s.stallM p = false) {t : Access}
    (ht : s.accessM = some t) (hread : t.we = false) :
    s.lsu.wbDataM = env.answer (accesses ⟨s, transfers⟩) t.adr t.sel := by
  rw [Core.accessM] at ht
  split at ht
  · obtain rfl := Option.some.inj ht
    exact absurd hread (Bool.eq_false_iff.1 · rfl)
  · split at ht
    · rename_i hl
      obtain rfl := Option.some.inj ht
      have hwb := Core.wbLoadComplete_of_leaves h hM hl
      obtain ⟨-, -, earlier, heq, hanswer⟩ := h.complete hwb
      change transfers = _ at heq
      rw [accesses, if_pos hwb, heq, List.dropLast_concat]
      exact hanswer
    · exact absurd ht (Option.some_ne_none t).symm

/-- Nothing is on the data bus after reset. -/
theorem Bus.of_afterReset (h : s.AfterReset) : Bus ⟨s, transfers⟩ env := by
  have hvalid := h.valid
  simp only [Bool.or_eq_false_iff] at hvalid
  have hl : s.loadQM = false := by simp [Core.loadQM, Core.qM, hvalid.1.2]
  constructor <;> simp [h.lsu, hl, LoadStoreUnit.reset]

/-- The load in the M stage is the one it was while it waits. -/
theorem Bus.next_waits (h : Bus ⟨s, transfers⟩ env)
    (hp : (lm32 env).Allowed ⟨s, transfers⟩ p) (hM : s.stallM p = true) :
    Bus ((lm32 env).next ⟨s, transfers⟩ p) env := by
  have hstall : (s.loadStoreIn p).stallM = true := hM
  have hl := Core.loadQM_waits hM
  have hm : (s.next p).m = s.m := by simp [hM]
  have hen : (s.next p).lsu.byteEnableM = s.lsu.byteEnableM := by
    simp [Core.lsu_next, LoadStoreUnit.next, hstall]
  have hstore : s.lsu.startsStore (s.loadStoreIn p) = false := by
    simp [LoadStoreUnit.startsStore, hstall]
  change Bus ⟨s.next p, transfers ++ (s.lsu.transfer (s.loadStoreIn p)).toList⟩ env
  constructor
  all_goals dsimp only
  all_goals rw [hl]
  · -- a read that is under way, or that starts
    intro hcyc hwe
    rw [hm, hen]
    rw [Core.lsu_next] at hcyc hwe ⊢
    cases hload : s.lsu.startsLoad (s.loadStoreIn p) with
    | true =>
        have hadr : (s.loadStoreIn p).addressM = s.m.operandM := rfl
        exact ⟨(Core.startsLoad_waits h hload).2.1, by simp [LoadStoreUnit.next, hload, hadr],
          by simp [LoadStoreUnit.next, hload]⟩
    | false =>
        have hcyc' : s.lsu.dCycO = true := by
          cases hbusy : s.lsu.dCycO with
          | true => rfl
          | false => simp [LoadStoreUnit.next, hbusy, hstore, hload] at hcyc
        have hwe' : s.lsu.dWeO = false := by
          simpa [LoadStoreUnit.next, hstore, hload] using hwe
        simpa [LoadStoreUnit.next, hstore, hload] using h.reading hcyc' hwe'
  · -- a read that is over, or that ends
    intro hwb
    rw [hm, hen]
    rw [Core.lsu_next] at hwb ⊢
    cases hdone : s.lsu.completes (s.loadStoreIn p) with
    | true =>
        have hwe : s.lsu.dWeO = false := by
          simpa [LoadStoreUnit.next, hdone, hstall] using hwb
        have hcyc : s.lsu.dCycO = true := by
          rw [LoadStoreUnit.completes, Bool.and_eq_true] at hdone
          exact hdone.1
        obtain ⟨hload, hadr, hsel⟩ := h.reading hcyc hwe
        change s.lsu.dAdrO = s.m.operandM at hadr
        change s.lsu.dSelO = s.lsu.byteEnableM at hsel
        have hanswer := hp.2 hdone hwe
        change p.dDatI = env.answer transfers s.lsu.dAdrO s.lsu.dSelO at hanswer
        have hdat : (s.loadStoreIn p).dDatI = p.dDatI := rfl
        refine ⟨hload, by simp [LoadStoreUnit.next, hcyc, hdone], transfers, ?_, ?_⟩
        · simp [LoadStoreUnit.next, LoadStoreUnit.transfer, hdone, hwe, hadr, hsel]
        · rw [← hadr, ← hsel, ← hanswer]
          simp [LoadStoreUnit.next, hdone, hdat]
    | false =>
        have hwb' : s.lsu.wbLoadComplete = true := by
          simpa [LoadStoreUnit.next, hdone, hstall] using hwb
        obtain ⟨hload, hcyc, earlier, heq, hanswer⟩ := h.complete hwb'
        change s.lsu.dCycO = false at hcyc
        change s.lsu.wbLoadComplete = true at hwb'
        change transfers = _ at heq
        have hno : s.lsu.startsLoad (s.loadStoreIn p) = false := by
          simp [LoadStoreUnit.startsLoad, hwb']
        refine ⟨hload, by simp [LoadStoreUnit.next, hcyc, hstore, hno], earlier, ?_, ?_⟩
        · simpa [LoadStoreUnit.next, LoadStoreUnit.transfer, hdone] using heq
        · simpa [LoadStoreUnit.next, hdone] using hanswer
  · -- the load goes on waiting
    intro hload
    have hkeep : s.lsu.stallWbLoad = true →
        s.lsu.startsLoad (s.loadStoreIn p) = false → (s.next p).lsu.stallWbLoad = true := by
      intro hw hno
      have hexc : (s.loadStoreIn p).exceptionM = false := by
        rw [Core.loadQM, Core.qM] at hload
        simp only [Bool.and_eq_true, Bool.not_eq_true'] at hload
        exact hload.2.2
      have hkill : (s.loadStoreIn p).killM = false := rfl
      simp [Core.lsu_next, LoadStoreUnit.next, hexc, hkill, hno, hw]
    rw [Core.lsu_next] at hkeep ⊢
    cases hstart : s.lsu.startsLoad (s.loadStoreIn p) with
    | true =>
        have hcyc := (Core.startsLoad_waits h hstart).2.2.1
        exact .inr (.inl ⟨by simp [LoadStoreUnit.next, hcyc, hstart],
          by simp [LoadStoreUnit.next, hstore, hstart]⟩)
    | false =>
        rcases h.waiting hload with hw | ⟨hcyc, hwe⟩ | hwb
        · exact .inl (hkeep hw hstart)
        · change s.lsu.dCycO = true at hcyc
          change s.lsu.dWeO = false at hwe
          cases hdone : s.lsu.completes (s.loadStoreIn p) with
          | true => exact .inr (.inr (by simp [LoadStoreUnit.next, hdone, hstall, hwe]))
          | false =>
              exact .inr (.inl ⟨by simp [LoadStoreUnit.next, hcyc, hdone],
                by simp [LoadStoreUnit.next, hstore, hstart, hwe]⟩)
        · have hcyc := (h.complete hwb).2.1
          change s.lsu.dCycO = false at hcyc
          change s.lsu.wbLoadComplete = true at hwb
          have hdone : s.lsu.completes (s.loadStoreIn p) = false := by
            simp [LoadStoreUnit.completes, hcyc]
          exact .inr (.inr (by simp [LoadStoreUnit.next, hdone, hstall, hwb]))

/-- A load that enters the M stage waits for its read. -/
theorem Bus.next_moves (h : Bus ⟨s, transfers⟩ env) (hM : s.stallM p = false) :
    Bus ((lm32 env).next ⟨s, transfers⟩ p) env := by
  have hstall : (s.loadStoreIn p).stallM = false := hM
  refine ⟨fun hcyc hwe => ?_, fun hwb => ?_, fun hl => .inl ?_⟩
  · exact absurd (Core.writes_of_moves h hM hcyc) (Bool.eq_false_iff.1 hwe)
  · change (s.next p).lsu.wbLoadComplete = true at hwb
    rw [Core.lsu_next] at hwb
    simp [LoadStoreUnit.next, hstall] at hwb
  · change (s.next p).loadQM = true at hl
    change (s.next p).lsu.stallWbLoad = true
    have hX : s.stallX p = false := by
      by_contra hX
      have hX' : s.stallX p = true := by simpa using hX
      rw [Core.loadQM, Core.qM, Core.next_validM, hX', hM] at hl
      simp at hl
    have hq := Core.loadQX_of_enters hX hl
    have hexc : (s.loadStoreIn p).exceptionM = false := by
      change s.m.exceptionM = false
      by_contra he
      have he' : s.m.exceptionM = true := by simpa using he
      have hkill : s.killX p = true := by simp [Core.killX, Core.branchFlushXM, hM, he']
      simp [Core.loadQX, Core.qX, hkill] at hq
    have hkill : (s.loadStoreIn p).killM = false := rfl
    have hqX : (s.loadStoreIn p).loadQX = true := hq
    have hstallX : (s.loadStoreIn p).stallX = false := hX
    simp [Core.lsu_next, LoadStoreUnit.next, hexc, hkill, hqX, hstallX]

/-- A cycle keeps the invariant. -/
theorem Bus.next (h : Bus ⟨s, transfers⟩ env) (hp : (lm32 env).Allowed ⟨s, transfers⟩ p) :
    Bus ((lm32 env).next ⟨s, transfers⟩ p) env := by
  cases hM : s.stallM p with
  | true => exact h.next_waits hp hM
  | false => exact h.next_moves hM

end Running

end Soc.Lm32
