import Mathlib.Tactic.ByContra
import Mathlib.Tactic.SplitIfs
import Soc.Conbus.Bus

/-!
# Every request is answered once, by its own slave

The ack of a master is the disjunction of all slaves' acks, and the read data is selected by
`slave_sel_r`, the selection of the cycle before. Neither goes wrong: a slave that has taken up a
request keeps the bus with the master that made it, because that master holds cyc, the arbiter
does not move away from it, and its address does not change before the ack. So at most one
slave is busy, with the request of the granted master, and `slave_sel_r` points to it.
-/

namespace Soc.Conbus

open Library (Machine nextJob of_nextJob_eq_some nextJob_isSome_of_job nextJob_isSome_of_request)

/-- The arbiter does not move while the granted master holds cyc. -/
theorem nextGnt_of_req (req : Fin 5 → Bool) (gnt : Fin 5) (h : req gnt = true) :
    nextGnt req gnt = gnt :=
  if_pos h

/-- The data of the selected slave reaches the masters. -/
theorem iDatS_of_select {slaveSelR : Fin 6 → Bool} {k : Fin 6}
    (h : ∀ j, slaveSelR j = decide (j = k)) (dat : Fin 6 → Word) :
    iDatS slaveSelR dat = dat k := by
  simp only [iDatS, h, gate]
  match k with
  | 0 | 1 | 2 | 3 | 4 | 5 => simp

namespace Bus

variable {s : Bus} {c : Cycle} {m : Fin 5} {k : Fin 6} {n : Nat}

/-- In the cycle before, the master had a request to the slave that was not acknowledged. -/
structure Waits (s : Bus) (m : Fin 5) (k : Fin 6) : Prop where
  cyc : (s.last m).cyc = true
  stb : (s.last m).stb = true
  unanswered : s.acked m = false
  adr : select (s.last m).adr = k

/-- The invariant. A request that a slave has taken up is the current one of the granted master,
which is still waiting for it, and `slave_sel_r` points to the slave. A slave that may answer in
this cycle has taken up a request. -/
structure Serving (s : Bus) : Prop where
  job : ∀ k m n, s.job k = some (m, n) →
    m = s.gnt ∧ n = s.number m ∧ s.Waits m k ∧ ∀ j, s.slaveSelR j = decide (j = k)
  port : ∀ k, k ≠ 3 → k ≠ 5 → s.portSaw k = true → s.portAcked k = false → (s.job k).isSome
  memory : s.memory.wbAckO = true → (s.job 3).isSome
  csrbrg : s.csrbrg.state ≠ .idle → (s.job 5).isSome
  acks : ∀ m, s.acks m ≤ 1 ∧ ((s.last m).cyc = true → s.acked m = false → s.acks m = 0)

/-- A master that waits keeps its request, with its number. -/
theorem Waits.held (h : s.Waits m k) (hallowed : s.Allowed c) :
    (c.master m).cyc = true ∧ (c.master m).stb = true ∧ select (c.master m).adr = k ∧
      s.current c m = s.number m := by
  have hrule := hallowed.1 m h.cyc
  rw [h.unanswered, if_neg Bool.false_ne_true] at hrule
  obtain ⟨hcyc, hstb, hadr, -⟩ := hrule
  refine ⟨hcyc.trans h.cyc, hstb.trans h.stb, hadr ▸ h.adr, ?_⟩
  rw [current, starts, h.cyc, Bool.not_true, Bool.and_false]
  exact if_neg Bool.false_ne_true

/-- The ports without a module answer as the environment says. -/
theorem slaveAck_of_port (hmemory : k ≠ 3) (hcsrbrg : k ≠ 5) :
    s.slaveAck c k = c.portAck k := by
  match k, hmemory, hcsrbrg with
  | 0, _, _ | 1, _, _ | 2, _, _ | 4, _, _ => rfl
  | 3, h, _ => exact absurd rfl h
  | 5, _, h => exact absurd rfl h

/-- A slave only answers a request that it has taken up. -/
theorem Serving.job_of_ack (h : s.Serving) (hallowed : s.Allowed c)
    (hack : s.slaveAck c k = true) : (s.job k).isSome := by
  by_cases hmemory : k = 3
  · subst hmemory
    exact h.memory hack
  by_cases hcsrbrg : k = 5
  · subst hcsrbrg
    refine h.csrbrg fun hidle => ?_
    have hstate : s.csrbrg.state = .ack := of_decide_eq_true hack
    rw [hidle] at hstate
    cases hstate
  · rw [slaveAck_of_port hmemory hcsrbrg] at hack
    obtain ⟨hsaw, hnot⟩ := hallowed.2 k hmemory hcsrbrg hack
    exact h.port k hmemory hcsrbrg hsaw (Bool.not_eq_true _ ▸ hnot)

/-- A slave that answers has taken up the current request of the granted master. -/
theorem Serving.of_ack (h : s.Serving) (hallowed : s.Allowed c) (hack : s.slaveAck c k = true) :
    s.job k = some (s.gnt, s.number s.gnt) ∧ s.Waits s.gnt k ∧
      ∀ j, s.slaveSelR j = decide (j = k) := by
  obtain ⟨⟨m, n⟩, hjob⟩ := Option.isSome_iff_exists.1 (h.job_of_ack hallowed hack)
  obtain ⟨rfl, rfl, hwaits, hsel⟩ := h.job k m n hjob
  exact ⟨hjob, hwaits, hsel⟩

/-- The bus carries an ack when a slave answers. -/
theorem iBusAck_iff : s.iBusAck c = true ↔ ∃ k, s.slaveAck c k = true := by
  constructor
  · intro h
    simp only [iBusAck, Bool.or_eq_true] at h
    obtain ((((h | h) | h) | h) | h) | h := h
    · exact ⟨0, h⟩
    · exact ⟨1, h⟩
    · exact ⟨2, h⟩
    · exact ⟨3, h⟩
    · exact ⟨4, h⟩
    · exact ⟨5, h⟩
  · rintro ⟨k, hk⟩
    simp only [iBusAck, Bool.or_eq_true]
    match k, hk with
    | 0, hk => exact .inl (.inl (.inl (.inl (.inl hk))))
    | 1, hk => exact .inl (.inl (.inl (.inl (.inr hk))))
    | 2, hk => exact .inl (.inl (.inl (.inr hk)))
    | 3, hk => exact .inl (.inl (.inr hk))
    | 4, hk => exact .inl (.inr hk)
    | 5, hk => exact .inr hk

/-- A master that sees ack is granted, and a slave has answered it. -/
theorem of_ackO (h : s.ackO c m = true) : m = s.gnt ∧ ∃ k, s.slaveAck c k = true := by
  rw [ackO, Bool.and_eq_true, decide_eq_true_iff, iBusAck_iff] at h
  exact ⟨h.2.symm, h.1⟩

/-- While a slave has a request that it does not answer, its master sees no ack. -/
theorem Serving.not_ackO (h : s.Serving) (hallowed : s.Allowed c)
    (hselect : select (c.master s.gnt).adr = k) (hack : s.slaveAck c k = false) :
    s.ackO c s.gnt = false := by
  by_contra hseen
  obtain ⟨-, j, hj⟩ := of_ackO (Bool.not_eq_false _ ▸ hseen)
  obtain ⟨-, hwaits, -⟩ := h.of_ack hallowed hj
  have hjk : j = k := (hwaits.held hallowed).2.2.1.symm.trans hselect
  rw [hjk, hack] at hj
  cases hj

/-- What a slave that sees a request sees. -/
theorem of_slaveRequest (h : s.slaveRequest c k = some (m, n)) :
    m = s.gnt ∧ n = s.current c m ∧ (c.master m).cyc = true ∧ (c.master m).stb = true ∧
      select (c.master m).adr = k := by
  rw [slaveRequest] at h
  split_ifs at h with hin
  cases h
  simp only [slaveIn, iBusM, slaveSel_eq, Bool.and_eq_true, decide_eq_true_iff] at hin
  exact ⟨rfl, rfl, hin.1.1, hin.2, hin.1.2.symm⟩

/-- A request that a slave has taken up after a cycle. -/
theorem Serving.next_job (h : s.Serving) (hallowed : s.Allowed c)
    (hjob : (s.next c).job k = some (m, n)) :
    m = (s.next c).gnt ∧ n = (s.next c).number m ∧ (s.next c).Waits m k ∧
      ∀ j, (s.next c).slaveSelR j = decide (j = k) := by
  obtain ⟨hack, hfrom⟩ := of_nextJob_eq_some hjob
  -- old or new, the request is the one on the bus
  have hrequest : m = s.gnt ∧ n = s.current c m ∧ (c.master m).cyc = true ∧
      (c.master m).stb = true ∧ select (c.master m).adr = k := by
    obtain hold | ⟨-, hnew⟩ := hfrom
    · obtain ⟨hm, hn, hwaits, -⟩ := h.job k m n hold
      obtain ⟨hcyc, hstb, hadr, hcurrent⟩ := hwaits.held hallowed
      exact ⟨hm, hn.trans hcurrent.symm, hcyc, hstb, hadr⟩
    · exact of_slaveRequest hnew
  obtain ⟨rfl, rfl, hcyc, hstb, hadr⟩ := hrequest
  have hstay : (s.next c).gnt = s.gnt := nextGnt_of_req (fun m => (c.master m).cyc) s.gnt hcyc
  refine ⟨hstay.symm, rfl, ⟨hcyc, hstb, h.not_ackO hallowed hadr hack, hadr⟩, fun j => ?_⟩
  show slaveSel (c.master s.gnt).adr j = _
  rw [slaveSel_eq, hadr]

/-- A slave that sees a request and does not answer at once has taken one up. -/
theorem next_job_isSome (hsaw : ((s.slaveIn c k).cyc && (s.slaveIn c k).stb) = true)
    (hack : s.slaveAck c k = false) : ((s.next c).job k).isSome := by
  show (nextJob (s.job k) (s.slaveRequest c k) (s.slaveAck c k)).isSome
  rw [hack, slaveRequest, if_pos hsaw]
  exact nextJob_isSome_of_request rfl

/-- `csrbrg` is busy only with a request. -/
theorem Serving.next_csrbrg (h : s.Serving) (hbusy : (s.next c).csrbrg.state ≠ .idle) :
    ((s.next c).job 5).isSome := by
  have hstays : s.csrbrg.state ≠ .idle → s.slaveAck c 5 = false →
      ((s.next c).job 5).isSome := by
    intro hstate hack
    show (nextJob (s.job 5) (s.slaveRequest c 5) (s.slaveAck c 5)).isSome
    rw [hack]
    exact nextJob_isSome_of_job (h.csrbrg hstate)
  have hnext : (s.next c).csrbrg.state = s.csrbrg.nextState (s.slaveIn c 5) := rfl
  rw [hnext, Csrbrg.nextState] at hbusy
  match hstate : s.csrbrg.state with
  | .idle =>
      -- it leaves IDLE for a request only
      rw [hstate] at hbusy
      refine next_job_isSome ?_ (by simp [slaveAck, Csrbrg.wbAckO, hstate])
      by_contra hnot
      exact hbusy (if_neg hnot)
  | .delayack1 => exact hstays (hstate ▸ nofun) (by simp [slaveAck, Csrbrg.wbAckO, hstate])
  | .delayack2 => exact hstays (hstate ▸ nofun) (by simp [slaveAck, Csrbrg.wbAckO, hstate])
  | .ack =>
      rw [hstate] at hbusy
      exact absurd rfl hbusy

/-- The acks of a master's current request. -/
theorem Serving.next_acks (h : s.Serving) (hallowed : s.Allowed c) (m : Fin 5) :
    (s.next c).acks m ≤ 1 ∧
      ((c.master m).cyc = true → s.ackO c m = false → (s.next c).acks m = 0) := by
  have hnext : (s.next c).acks m =
      (if s.starts c m then 0 else s.acks m) + (s.ackO c m).toNat := rfl
  obtain ⟨hle, hzero⟩ := h.acks m
  -- a request that goes on has had no ack
  have hcurrent : (c.master m).cyc = true → (if s.starts c m then 0 else s.acks m) = 0 := by
    intro hcyc
    split_ifs with hstarts
    · rfl
    · have hlast : (s.last m).cyc = true := by
        simpa [starts, hcyc] using hstarts
      have hunanswered : s.acked m = false := by
        by_contra hacked
        have hdrop := hallowed.1 m hlast
        rw [if_pos (Bool.not_eq_false _ ▸ hacked), hcyc] at hdrop
        cases hdrop
      exact hzero hlast hunanswered
  constructor
  · match hseen : s.ackO c m with
    | true =>
        obtain ⟨rfl, k, hk⟩ := of_ackO hseen
        obtain ⟨-, hwaits, -⟩ := h.of_ack hallowed hk
        rw [hnext, hcurrent (hwaits.held hallowed).1, hseen]
        exact Nat.le_refl 1
    | false =>
        rw [hnext, hseen]
        show (if s.starts c m then 0 else s.acks m) ≤ 1
        split_ifs
        · exact Nat.zero_le 1
        · exact hle
  · intro hcyc hunseen
    rw [hnext, hcurrent hcyc, hunseen]
    rfl

/-- Every cycle keeps the invariant. -/
theorem Serving.next (h : s.Serving) (hallowed : s.Allowed c) : (s.next c).Serving where
  job _ _ _ hjob := h.next_job hallowed hjob
  port _ _ _ hsaw hack := next_job_isSome hsaw hack
  memory hack := by
    have hin : ((s.slaveIn c 3).cyc && (s.slaveIn c 3).stb && !s.memory.wbAckO) = true := hack
    rw [Bool.and_eq_true, Bool.not_eq_true'] at hin
    exact next_job_isSome hin.1 hin.2
  csrbrg hbusy := h.next_csrbrg hbusy
  acks m := h.next_acks hallowed m

/-- The invariant holds after reset. -/
theorem Initial.serving (h : s.Initial) : s.Serving := by
  obtain ⟨-, hmemory, hcsrbrg, hmasters, hports⟩ := h
  constructor
  · intro k m n hjob
    rw [(hports k).2.2] at hjob
    cases hjob
  · intro k _ _ hsaw
    rw [(hports k).1] at hsaw
    cases hsaw
  · intro hack
    rw [hmemory] at hack
    cases hack
  · exact fun hbusy => absurd hcsrbrg hbusy
  · intro m
    rw [(hmasters m).2.2]
    exact ⟨Nat.zero_le 1, fun _ _ => rfl⟩

/-- What holds of the acks of a cycle. -/
structure Answered (s : Bus) (c : Cycle) : Prop where
  /-- A master that sees ack has a request. -/
  outstanding : ∀ m, s.ackO c m = true → (c.master m).cyc = true ∧ (c.master m).stb = true
  /-- The slave its address selects answers, and no other one. -/
  selected : ∀ m, s.ackO c m = true → ∀ k, s.slaveAck c k = true ↔ k = select (c.master m).adr
  /-- What that slave has taken up is this very request. -/
  request : ∀ m, s.ackO c m = true →
    s.job (select (c.master m).adr) = some (m, s.current c m)
  /-- With this cycle, no request has received two acks. -/
  once : ∀ m, (s.next c).acks m ≤ 1
  /-- A slave that sees cyc sees a request addressed to it. -/
  cyc : ∀ k, (s.slaveIn c k).cyc = true →
    (c.master s.gnt).cyc = true ∧ select (c.master s.gnt).adr = k
  /-- The read data is the data output of the slave that answers. -/
  data : ∀ m, s.ackO c m = true → s.datO c = s.slaveDat c (select (c.master m).adr)

/-- The invariant determines the acks of a cycle. -/
theorem Serving.answered (h : s.Serving) (hallowed : s.Allowed c) : s.Answered c := by
  -- the slave behind an ack
  have hslave : ∀ m, s.ackO c m = true → ∃ k, s.slaveAck c k = true ∧
      s.job k = some (m, s.number m) ∧ s.Waits m k ∧ ∀ j, s.slaveSelR j = decide (j = k) := by
    intro m hseen
    obtain ⟨rfl, k, hk⟩ := of_ackO hseen
    exact ⟨k, hk, h.of_ack hallowed hk⟩
  constructor
  · intro m hseen
    obtain ⟨k, -, -, hwaits, -⟩ := hslave m hseen
    obtain ⟨hcyc, hstb, -, -⟩ := hwaits.held hallowed
    exact ⟨hcyc, hstb⟩
  · intro m hseen k
    obtain ⟨j, hj, -, hwaits, -⟩ := hslave m hseen
    rw [(hwaits.held hallowed).2.2.1]
    constructor
    · intro hk
      obtain ⟨rfl, -, -⟩ := of_ackO hseen
      obtain ⟨-, hwaits', -⟩ := h.of_ack hallowed hk
      exact hwaits'.adr.symm.trans hwaits.adr
    · rintro rfl
      exact hj
  · intro m hseen
    obtain ⟨k, -, hjob, hwaits, -⟩ := hslave m hseen
    obtain ⟨-, -, hadr, hcurrent⟩ := hwaits.held hallowed
    rw [hadr, hcurrent, hjob]
  · exact fun m => (h.next_acks hallowed m).1
  · intro k hcyc
    rw [slaveIn, iBusM, slaveSel_eq, Bool.and_eq_true, decide_eq_true_iff] at hcyc
    exact ⟨hcyc.1, hcyc.2.symm⟩
  · intro m hseen
    obtain ⟨k, -, -, hwaits, hsel⟩ := hslave m hseen
    rw [datO, iDatS_of_select hsel, (hwaits.held hallowed).2.2.1]

end Bus

/-- In every run after reset, every request is answered at most once, by the slave its address
selects, while it is outstanding and with that slave's data. -/
theorem requests_answered_once {s : Bus} (h : bus.Reachable s) {c : Cycle}
    (hallowed : bus.Allowed s c) : s.Answered c := by
  have hserving : s.Serving := by
    refine Machine.invariant (fun s hinit => ?_) (fun s c hserving hstep => ?_) h
    · exact Bus.Initial.serving hinit
    · exact hserving.next hstep
  exact hserving.answered hallowed

/-- Master 1 writes to a CSR while master 0 reads a receive buffer. -/
def contention : Cycle where
  master
    | 0 => ⟨0x30000000, 0, 0xf, 0, false, true, true⟩
    | 1 => ⟨0x60001000, 0, 0xf, 1, true, true, true⟩
    | _ => quiet
  portAck _ := false
  portDat _ := 0
  csrDi := 0
  memories := ⟨0xd5555555, 0, 0⟩

/-- Master 0 is answered first, by `minimac2_memory`. -/
theorem requests_answered_once_contention :
    (bus.run afterReset [contention]).ackO contention 0 = true ∧
      (bus.run afterReset [contention]).Answered contention := by
  refine ⟨by decide, requests_answered_once (Machine.Reachable.run ?_ (by decide)) (by decide)⟩
  exact .initial (M := bus) ⟨rfl, rfl, rfl, fun _ => ⟨rfl, rfl, rfl⟩, fun _ => ⟨rfl, rfl, rfl⟩⟩

end Soc.Conbus
