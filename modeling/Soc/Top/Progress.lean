import Soc.Lm32.Progress
import Soc.Top.Program

/-!
# The system makes progress

The switch answers every request that goes to a slave that is there: the granted one after at most
three more cycles, and another one gets its turn in between. So the processor never waits for its
buses for long, and with the bound on what else it waits for, an instruction is carried out or an
exception is taken every so many cycles.
-/

namespace Soc.Top

open Conbus (Bus Connected Request CsrbrgState dbus ibus monitorBlk ramBlk select)
open Conbus.Bus (Held)
open Ebr (Slave presents)
open Library (Machine)
open Lm32 (Outside Running lm32)

namespace Lm32TestTop

variable (s : Lm32TestTop)

/-- The cycles until slave `k` answers, when it sees a request from now on. -/
def latency (k : Fin 6) (we : Bool) : Nat :=
  match k with
  | 0 => (!s.ram.ctrl.ebrAckO).toNat
  | 1 => (!s.monitor.ctrl.ebrAckO).toNat
  | 3 => (!s.wbswitch.memory.wbAckO).toNat
  | 5 =>
      match s.wbswitch.csrbrg.state with
      | .idle => if we then 1 else 3
      | .delayack1 => 2
      | .delayack2 => 1
      | .ack => 0
  | _ => 0

/-- The cycles until some request of the processor is answered, at most. -/
def delay : Nat :=
  match s.wbswitch.gnt with
  | 0 => if s.cpuibus.cyc then s.latency (select s.cpuibus.adr) s.cpuibus.we else 4
  | 1 => if s.cpudbus.cyc then s.latency (select s.cpudbus.adr) s.cpudbus.we else 4
  | _ => 4

/-- The granted request of the processor goes to an address at which nothing is connected. -/
def Lost : Prop :=
  s.wbswitch.gnt = ibus ∧ s.cpuibus.cyc = true ∧ ¬ Connected (select s.cpuibus.adr) ∨
    s.wbswitch.gnt = dbus ∧ s.cpudbus.cyc = true ∧ ¬ Connected (select s.cpudbus.adr)

instance : Decidable s.Lost := inferInstanceAs (Decidable (_ ∨ _))

variable {s}

/-- No slave takes more than three more cycles. -/
theorem latency_le (k : Fin 6) (we : Bool) : s.latency k we ≤ 3 := by
  match k with
  | 0 | 1 | 3 => exact (Bool.toNat_le _).trans (by decide)
  | 2 | 4 => exact Nat.zero_le _
  | 5 =>
      change (match s.wbswitch.csrbrg.state with
        | .idle => if we then 1 else 3
        | .delayack1 => 2
        | .delayack2 => 1
        | .ack => 0) ≤ 3
      cases s.wbswitch.csrbrg.state <;> cases we <;> decide

/-- An answer takes at most four more cycles. -/
theorem delay_le : s.delay ≤ 4 := by
  rw [delay]
  split
  · split
    · exact (latency_le _ _).trans (by decide)
    · exact Nat.le_refl _
  · split
    · exact (latency_le _ _).trans (by decide)
    · exact Nat.le_refl _
  · exact Nat.le_refl _

/-- The delay is that of the granted request. -/
theorem delay_eq (s : Lm32TestTop) (c : Cycle) : s.delay =
    if ((s.busCycle c).master s.wbswitch.gnt).cyc then
      s.latency (select ((s.busCycle c).master s.wbswitch.gnt).adr)
        ((s.busCycle c).master s.wbswitch.gnt).we
    else 4 := by
  rw [delay]
  match s.wbswitch.gnt with
  | 0 | 1 | 2 | 3 | 4 => rfl

end Lm32TestTop

/-- A memory answers a request in the next cycle. -/
theorem Attached.ack_next {w : Nat} {bus : Bus} {slave : Slave w} {k : Fin 6} {e : Ebr.Cycle}
    (h : Attached bus slave k) (hready : slave.ctrl.ebrAckO = false)
    (hpresents : presents e.wb = true) : (slave.next e).ctrl.ebrAckO = true := by
  refine (h.serving.starts_ending ?_).2.2
  cases h.serving with
  | idle _ _ hwaits => rw [Slave.starts, hpresents, hwaits, Bool.not_false, Bool.and_true]
  | ending _ hack => exact absurd (hready.symm.trans hack) Bool.false_ne_true

/-- Some master that asks for the bus gets it when the granted one does not. -/
theorem nextGnt_requests (req : Fin 5 → Bool) {gnt m : Fin 5} (hgnt : req gnt = false)
    (hreq : req m = true) : req (Conbus.nextGnt req gnt) = true := by
  have hother : m ∈ Conbus.others gnt := by
    have hall : ∀ gnt m : Fin 5, m ≠ gnt → m ∈ Conbus.others gnt := by decide
    exact hall gnt m fun hm => Bool.false_ne_true (hgnt.symm.trans (hm ▸ hreq))
  have hsome : ((Conbus.others gnt).find? req).isSome = true :=
    List.find?_isSome.2 ⟨m, hother, hreq⟩
  obtain ⟨next, hnext⟩ := Option.isSome_iff_exists.1 hsome
  rw [Conbus.nextGnt, hgnt, if_neg Bool.false_ne_true, hnext, Option.getD_some]
  exact List.find?_some hnext

/-- The slaves that are there. -/
theorem cases_of_connected {k : Fin 6} (h : Connected k) :
    k = ramBlk ∨ k = monitorBlk ∨ k = 3 ∨ k = 5 := by
  have hall : ∀ k : Fin 6, Connected k → k = ramBlk ∨ k = monitorBlk ∨ k = 3 ∨ k = 5 := by decide
  exact hall k h

namespace Lm32TestTop

variable {s : Lm32TestTop} {c : Cycle}

/-- A slave that is there comes closer to its answer in every cycle in which it sees a request. -/
theorem Wired.latency_next (h : s.Wired) {k : Fin 6} (hthere : Connected k)
    (hcyc : ((s.busCycle c).master s.wbswitch.gnt).cyc = true)
    (hstb : ((s.busCycle c).master s.wbswitch.gnt).stb = true)
    (hselect : select ((s.busCycle c).master s.wbswitch.gnt).adr = k)
    (hack : s.wbswitch.slaveAck (s.busCycle c) k = false) :
    (s.next c).latency k ((s.busCycle c).master s.wbswitch.gnt).we <
      s.latency k ((s.busCycle c).master s.wbswitch.gnt).we := by
  have hin := slaveIn_of_select (c := s.busCycle c) hselect
  have hsees : ((s.busCycle c).master s.wbswitch.gnt).cyc &&
      ((s.busCycle c).master s.wbswitch.gnt).stb := by rw [hcyc, hstb]; rfl
  generalize hrequest : (s.busCycle c).master s.wbswitch.gnt = r at *
  rcases cases_of_connected hthere with rfl | rfl | rfl | rfl
  · have hready : s.ram.ctrl.ebrAckO = false := hack
    have hnext : (s.next c).ram.ctrl.ebrAckO = true := by
      refine h.ram.ack_next (e := s.ramCycle c) hready ?_
      change presents (s.wbswitch.slaveIn (s.busCycle c) 0) = true
      rw [hin]
      exact hsees
    change (!(s.next c).ram.ctrl.ebrAckO).toNat < (!s.ram.ctrl.ebrAckO).toNat
    rw [hready, hnext]
    decide
  · have hready : s.monitor.ctrl.ebrAckO = false := hack
    have hnext : (s.next c).monitor.ctrl.ebrAckO = true := by
      refine h.monitor.ack_next (e := (s.monitorCycle c).ramBlk) hready ?_
      change presents (s.wbswitch.slaveIn (s.busCycle c) 1) = true
      rw [hin]
      exact hsees
    change (!(s.next c).monitor.ctrl.ebrAckO).toNat < (!s.monitor.ctrl.ebrAckO).toNat
    rw [hready, hnext]
    decide
  · have hready : s.wbswitch.memory.wbAckO = false := hack
    have hnext : (s.next c).wbswitch.memory.wbAckO = true := by
      change ((s.wbswitch.slaveIn (s.busCycle c) 3).cyc &&
        (s.wbswitch.slaveIn (s.busCycle c) 3).stb && !s.wbswitch.memory.wbAckO) = true
      rw [hin, hready, hsees]
      rfl
    change (!(s.next c).wbswitch.memory.wbAckO).toNat < (!s.wbswitch.memory.wbAckO).toNat
    rw [hready, hnext]
    decide
  · have hnext : (s.next c).wbswitch.csrbrg.state = s.wbswitch.csrbrg.nextState r := by
      rw [← hin]
      rfl
    rw [Conbus.Csrbrg.nextState] at hnext
    rw [latency, latency]
    cases hstate : s.wbswitch.csrbrg.state with
    | idle =>
        rw [hstate] at hnext
        dsimp only at hnext
        rw [if_pos hsees] at hnext
        rw [hnext]
        cases r.we <;> decide
    | delayack1 =>
        rw [hstate] at hnext
        rw [hnext]
        exact Nat.lt_succ_self 1
    | delayack2 =>
        rw [hstate] at hnext
        rw [hnext]
        exact Nat.lt_succ_self 0
    | ack =>
        have hdone : s.wbswitch.slaveAck (s.busCycle c) 5 = true := by
          change decide (s.wbswitch.csrbrg.state = .ack) = true
          exact decide_eq_true hstate
        exact absurd (hdone.symm.trans hack) (by decide)

/-- A request that is not answered is there in the next cycle. -/
theorem held_next {m : Fin 5} (hcyc : ((s.busCycle c).master m).cyc = true)
    (hack : s.wbswitch.ackO (s.busCycle c) m = false) :
    Held ((s.busCycle c).master m) (((s.next c).busCycle c).master m) := by
  have hrule := s.rule_next c c m hcyc
  change if s.wbswitch.ackO (s.busCycle c) m then _ else _ at hrule
  rw [hack, if_neg Bool.false_ne_true] at hrule
  exact hrule

/-- Such a request is the granted one. -/
theorem lost_iff (c : Cycle) : s.Lost ↔ ((s.busCycle c).master s.wbswitch.gnt).cyc = true ∧
    ¬ Connected (select ((s.busCycle c).master s.wbswitch.gnt).adr) := by
  rw [Lost]
  constructor
  · rintro (⟨hgnt, hlost⟩ | ⟨hgnt, hlost⟩) <;> rw [hgnt] <;> exact hlost
  · rintro ⟨hcyc, hnowhere⟩
    rcases master_of_cyc hcyc with hgnt | hgnt <;> rw [hgnt] at hcyc hnowhere
    · exact .inl ⟨hgnt, hcyc, hnowhere⟩
    · exact .inr ⟨hgnt, hcyc, hnowhere⟩

/-- No master is answered then. -/
theorem Wired.not_ackO_of_lost (h : s.Wired) (hlost : s.Lost) (c : Cycle) (m : Fin 5) :
    s.wbswitch.ackO (s.busCycle c) m = false := by
  by_contra hseen
  rw [Bool.not_eq_false] at hseen
  obtain ⟨-, hnowhere⟩ := (lost_iff c).1 hlost
  obtain rfl := (Bus.of_ackO hseen).1
  have hready := ((h.serving.answered (h.allowed c)).selected _ hseen _).2 rfl
  rw [Connected, not_and_or, not_not, not_not] at hnowhere
  rcases hnowhere with hnowhere | hnowhere <;> rw [hnowhere] at hready <;>
    exact absurd hready Bool.false_ne_true

/-- The request stays. -/
theorem Wired.lost_next (h : s.Wired) (hlost : s.Lost) (c : Cycle) : (s.next c).Lost := by
  obtain ⟨hcyc, hnowhere⟩ := (lost_iff c).1 hlost
  have hstay : (s.next c).wbswitch.gnt = s.wbswitch.gnt :=
    Conbus.nextGnt_of_req (fun m => ((s.busCycle c).master m).cyc) s.wbswitch.gnt hcyc
  have hheld := held_next hcyc (h.not_ackO_of_lost hlost c _)
  rw [lost_iff c, hstay, hheld.1, hheld.2.2.1]
  exact ⟨hcyc, hnowhere⟩

/-- Once lost, it is lost for good. -/
theorem Wired.lost_run (h : s.Wired) (hlost : s.Lost) (cs : List Cycle) :
    (lm32TestTop.run s cs).Lost := by
  induction cs generalizing s with
  | nil => exact hlost
  | cons c cs ih => exact ih (h.next c) (h.lost_next hlost c)

/-- In a cycle in which the processor just waits for its buses, no request is answered, but one
comes closer to its answer. -/
theorem Wired.delay_next (h : s.Wired) (hfound : ¬ s.Lost)
    (hwaits : s.cpu.core.served (s.cpuPins c) = false) : (s.next c).delay < s.delay := by
  rw [Lm32.Core.served, Bool.or_eq_false_iff, Bool.or_eq_false_iff] at hwaits
  obtain ⟨⟨hbusy, hfetch⟩, hdata⟩ := hwaits
  change (!s.cpuibus.cyc && !s.cpudbus.cyc) = false at hbusy
  change (s.cpuibus.cyc && (s.wbswitch.ackO (s.busCycle c) 0 || false)) = false at hfetch
  change (s.cpudbus.cyc && (s.wbswitch.ackO (s.busCycle c) 1 || false)) = false at hdata
  have hunanswered : ∀ m, ((s.busCycle c).master m).cyc = true →
      s.wbswitch.ackO (s.busCycle c) m = false := by
    intro m hcyc
    rcases master_of_cyc hcyc with rfl | rfl
    · change s.cpuibus.cyc = true at hcyc
      simpa [hcyc] using hfetch
    · change s.cpudbus.cyc = true at hcyc
      simpa [hcyc] using hdata
  have hrequest : ∃ m, ((s.busCycle c).master m).cyc = true := by
    cases hi : s.cpuibus.cyc with
    | true => exact ⟨0, hi⟩
    | false =>
        rw [hi, Bool.not_false, Bool.true_and, Bool.not_eq_false'] at hbusy
        exact ⟨1, hbusy⟩
  rw [delay_eq s c, delay_eq (s.next c) c]
  cases hcyc : ((s.busCycle c).master s.wbswitch.gnt).cyc with
  | true =>
      -- the granted request goes on
      have hack := hunanswered _ hcyc
      have hheld := held_next hcyc hack
      have hstay : (s.next c).wbswitch.gnt = s.wbswitch.gnt :=
        Conbus.nextGnt_of_req (fun m => ((s.busCycle c).master m).cyc) s.wbswitch.gnt hcyc
      have hstb : ((s.busCycle c).master s.wbswitch.gnt).stb = true := by
        rcases master_of_cyc hcyc with hgnt | hgnt <;> rw [hgnt] at hcyc ⊢ <;> exact hcyc
      have hthere : Connected (select ((s.busCycle c).master s.wbswitch.gnt).adr) := by
        by_contra hnowhere
        exact hfound ((lost_iff c).2 ⟨hcyc, hnowhere⟩)
      have hslave : s.wbswitch.slaveAck (s.busCycle c)
          (select ((s.busCycle c).master s.wbswitch.gnt).adr) = false := by
        by_contra hready
        rw [Bus.ackO, Bus.iBusAck_iff.2 ⟨_, Bool.not_eq_false _ ▸ hready⟩] at hack
        simp at hack
      rw [hstay, hheld.1, hcyc, if_pos rfl, if_pos rfl, hheld.2.2.1, hheld.2.2.2.1]
      exact h.latency_next hthere hcyc hstb rfl hslave
  | false =>
      -- the other one gets the bus
      obtain ⟨m, hm⟩ := hrequest
      have hgnt : ((s.busCycle c).master (s.next c).wbswitch.gnt).cyc = true :=
        nextGnt_requests (fun m => ((s.busCycle c).master m).cyc) hcyc hm
      have hheld := held_next hgnt (hunanswered _ hgnt)
      rw [if_neg Bool.false_ne_true, hheld.1, hgnt, if_pos rfl]
      exact Nat.lt_succ_of_le (latency_le _ _)

/-- What the system promises in a cycle in which its processor sees what it may see. -/
structure Valid (env : Outside) (s : Lm32TestTop) : Prop where
  wired : s.Wired
  cpu : s.cpu.Valid env
  waiting : s.cpu.core.Waiting

/-- The cycles that can pass until an instruction leaves the M stage, at most. -/
def patience (s : Lm32TestTop) : Nat := 5 * s.cpu.core.patience + s.delay

/-- The patience of the system is bounded. -/
theorem Valid.patience_le {env : Outside} (h : s.Valid env) : s.patience ≤ 949 := by
  have hcpu := Lm32.Core.patience_le h.cpu.data
  have hbus := s.delay_le
  rw [patience]
  omega

/-- In a cycle in which nothing leaves the M stage, the patience of the system gets less. -/
theorem Valid.patience_next {env : Outside} (h : s.Valid env) (hfound : ¬ s.Lost)
    (hleaves : s.leaves c = false) : (s.next c).patience < s.patience := by
  have hcpu : (s.next c).cpu.core.patience + (s.cpu.core.served (s.cpuPins c)).toNat ≤
      s.cpu.core.patience :=
    Lm32.Core.patience_next h.cpu.path h.cpu.data h.waiting h.cpu.bus hleaves
  have hbus := (s.next c).delay_le
  rw [patience, patience]
  cases hserved : s.cpu.core.served (s.cpuPins c) with
  | true =>
      rw [hserved, Bool.toNat_true] at hcpu
      omega
  | false =>
      have hdelay := h.wired.delay_next hfound hserved
      rw [hserved, Bool.toNat_false] at hcpu
      omega

/-- The invariant behind progress. -/
theorem Valid.next {env : Outside} (h : s.Valid env)
    (hallowed : (lm32 env).Allowed s.cpu (s.cpuPins c)) : (s.next c).Valid env :=
  ⟨h.wired.next c, h.cpu.next hallowed, h.waiting.next h.cpu.bus⟩

/-- The system keeps its invariant in every run. -/
theorem Wired.of_reachable (hreach : lm32TestTop.Reachable s) : s.Wired :=
  Machine.invariant (fun _ => .of_initial) (fun _ c h _ => h.next c) hreach

/-- Every run is possible. -/
theorem allowedRun (s : Lm32TestTop) (cs : List Cycle) : lm32TestTop.AllowedRun s cs := by
  induction cs generalizing s with
  | nil => trivial
  | cons c cs ih => exact ⟨trivial, ih _⟩

/-- In a run from a reachable state the processor sees what some outside world brings it. -/
theorem valid_of_reachable (hreach : lm32TestTop.Reachable s) (cs : List Cycle) :
    ∃ env, s.Valid env ∧ (lm32 env).AllowedRun s.cpu (s.runPins cs) := by
  obtain ⟨first, before, hinit, -, rfl⟩ := hreach.exists_run
  -- no part of the memories needs to be known
  have hspares : Spares (fun _ => False) (lm32TestTop.run first (before ++ cs)).cpu.transfers :=
    fun _ _ _ _ hcode => hcode.elim
  obtain ⟨hrun, -⟩ := (Wired.of_initial hinit).allowedRun_cpu (m := first.memory)
    (by rw [hinit.2.1]; rfl) hspares
  generalize outside first.memory (fun _ => False) _ = env at hrun
  rw [runPins_append, Machine.allowedRun_append, ← run_cpu] at hrun
  have hfirst : (lm32 env).Reachable first.cpu := .initial ⟨hinit.1, hinit.2.1⟩
  have hcpu : (lm32 env).Reachable (lm32TestTop.run first before).cpu := by
    rw [run_cpu env]
    exact hfirst.run hrun.1
  obtain ⟨hvalid, hwaiting⟩ := Lm32.Running.waiting_of_reachable hcpu
  exact ⟨env, ⟨.of_reachable hreach, hvalid, hwaiting⟩, hrun.2⟩

/-- If no request is lost at the end of a run, none is lost in between. -/
theorem allowedRun_of_cpu {env : Outside} (h : s.Wired) {cs : List Cycle}
    (hrun : (lm32 env).AllowedRun s.cpu (s.runPins cs)) (hfound : ¬ (lm32TestTop.run s cs).Lost) :
    (lm32TestTop.restrict fun s c =>
      (lm32 env).Allowed s.cpu (s.cpuPins c) ∧ ¬ s.Lost).AllowedRun s cs := by
  induction cs generalizing s with
  | nil => trivial
  | cons c cs ih =>
      exact ⟨⟨trivial, hrun.1, fun hlost => hfound (h.lost_run hlost (c :: cs))⟩,
        ih (h.next c) hrun.2 hfound⟩

end Lm32TestTop

/-- The system never comes to rest unless the processor asks for an address without a slave: from
every reachable state, of any 950 cycles in which no request is lost, in at least one an
instruction is carried out or an exception is taken. -/
theorem program_progress {s : Lm32TestTop} (hreach : lm32TestTop.Reachable s) {cs : List Cycle}
    (hfound : ¬ (lm32TestTop.run s cs).Lost) :
    cs.length < 950 * (lm32TestTop.count Lm32TestTop.leaves s cs + 1) := by
  obtain ⟨env, hvalid, hrun⟩ := Lm32TestTop.valid_of_reachable hreach cs
  have hallowed := Lm32TestTop.allowedRun_of_cpu hvalid.wired hrun hfound
  generalize hmachine : lm32TestTop.restrict _ = system at hallowed
  have hle : system.count (fun _ _ => true) s cs ≤ s.patience + (949 + 1) *
      (system.events (fun s c => if s.leaves c then some () else none) s cs).length := by
    subst hmachine
    refine Machine.count_le (I := Lm32TestTop.Valid env) Lm32TestTop.patience 949
      (fun s c h hp => ?_) (fun s h => h.patience_le) (fun s c h hp hnone => ?_) hvalid hallowed
    · exact h.next hp.2.1
    refine h.patience_next hp.2.2 (Bool.eq_false_iff.2 fun hleaves => ?_)
    rw [if_pos hleaves] at hnone
    exact Option.some_ne_none _ hnone
  have hevents : (fun (s : Lm32TestTop) c =>
      (if s.leaves c then some () else none).isSome) = Lm32TestTop.leaves := by
    funext s c
    cases s.leaves c <;> rfl
  have hfirst := hvalid.patience_le
  subst hmachine
  rw [Machine.length_events, hevents, Machine.count_restrict, Machine.count_restrict,
    Machine.count_true] at hle
  omega

/-- A board whose RAM is full of divisions of 1 by 1. -/
def dividing : Lm32TestTop :=
  -- divu r3, r1, r2
  { counting with
    cpu.core.file.port0.ram := fun _ => 1
    cpu.core.file.port1.ram := fun _ => 1
    ram.ctrl.ram.cells := fun _ => 0x8c221800 }

set_option maxRecDepth 100000 in
/-- In 1000 cycles, 20 cycles after reset, an instruction is carried out. -/
theorem program_progress_dividing :
    1 ≤ lm32TestTop.count Lm32TestTop.leaves (lm32TestTop.run dividing (List.replicate 20 calm))
      (List.replicate 1000 calm) := by
  have hinit : lm32TestTop.Initial dividing :=
    ⟨⟨rfl, rfl, rfl, rfl, rfl, rfl, rfl⟩, counting_initial.2⟩
  have hfound : ¬ (lm32TestTop.run (lm32TestTop.run dividing (List.replicate 20 calm))
      (List.replicate 1000 calm)).Lost := by decide +kernel
  have hbound := program_progress (.run (.initial hinit) (Lm32TestTop.allowedRun _ _)) hfound
  rw [List.length_replicate] at hbound
  omega

end Soc.Top
