import Mathlib.Tactic.ByContra
import Soc.CsrSystem.Fabric

/-!
# CSR accesses are exact

The bridge leaves IDLE when a request starts and returns to it with the ack, so a request that is
held meets the bridge in IDLE exactly once. From there a write takes one cycle and a read three:
the address and the data reach the CSR bus in the first of them, the peripherals sample the
addressed register at the end of it, and the disjunction of their outputs is the read data one
cycle later. `accesses_exact` is the main theorem.
-/

namespace Soc.CsrSystem

open Conbus (Request Csrbrg CsrbrgState)
open Library (Machine)

variable {noutputs : Nat} {addr : Peripheral → BitVec 4}

/-- `csr_a[13:10]` is `adr[15:12]`. -/
theorem selected_adr (adr : Word) :
    (adr.extractLsb' 2 14).extractLsb' 10 4 = adr.extractLsb' 12 4 := by
  apply BitVec.eq_of_getLsbD_eq
  intro i hi
  have hinside : 10 + i < 14 := by omega
  simp only [BitVec.getLsbD_extractLsb', hi, hinside, decide_true, Bool.true_and]
  congr 1
  omega

/-- The bridge strobes `csr_we` after a cycle in IDLE with a write. -/
theorem of_nextCsrWe {c : Csrbrg} {wb : Request} (h : c.nextCsrWe wb = true) :
    c.state = .idle ∧ presents wb = true ∧ wb.we = true := by
  unfold Csrbrg.nextCsrWe at h
  cases hstate : c.state with
  | idle =>
      rw [hstate] at h
      dsimp only at h
      split at h
      case isTrue hpresents => exact ⟨rfl, hpresents, h⟩
      case isFalse => cases h
  | delayack1 | delayack2 | ack =>
      rw [hstate] at h
      cases h

namespace Fabric

variable {s : Fabric noutputs} {c : Cycle}

/-- A peripheral shows the addressed register when it is selected, and zero otherwise. -/
theorem csrDo_next (p : Peripheral) : (s.next addr c).csrDo p =
    if s.bus.selects (addr p) then s.register c p else 0 := by
  cases p with
  | uart | sysctl | ethernet => rfl

/-- Without a store to it, a peripheral is left to itself. -/
theorem undisturbed_of_not_written {p : Peripheral}
    (h : (s.bus.selects (addr p) && s.bus.we) = false) : s.Undisturbed addr c p := by
  cases p with
  | uart =>
      show s.uart.clock (addr .uart) s.bus c.jtagFull c.jtagEmpty c.jtagQ = _
      rw [Uart.clock_of_not_written h]
      rfl
  | sysctl =>
      show s.sysctl.clock (addr .sysctl) s.bus = _
      rw [Sysctl.clock_of_not_written h]
      rfl
  | ethernet =>
      show s.ethernet.clock c.mac (addr .ethernet) s.bus = _
      rw [Minimac2.Ctlif.clock_of_not_written _ _ h]
      rfl

/-- The invariant: the bridge is busy exactly with a request that waits for its ack. -/
def Serving (s : Fabric noutputs) : Prop := s.csrbrg.state ≠ .idle ↔ s.waits = true

/-- A request that starts finds the bridge in IDLE. -/
theorem Serving.starts_iff (h : s.Serving) :
    s.starts c = true ↔ s.csrbrg.state = .idle ∧ presents c.wb = true := by
  have hbusy : s.csrbrg.state ≠ .idle ↔ s.waits = true := h
  rw [starts, Bool.and_eq_true, Bool.not_eq_true', ← Bool.not_eq_true, ← hbusy,
    Decidable.not_not]
  exact and_comm

/-- A request that waits is presented again. -/
theorem presents_of_waits (hallowed : s.MasterRule c) (h : s.waits = true) :
    presents c.wb = true := by
  have hlast : presents s.last = true := ((Bool.and_eq_true _ _).mp h).1
  obtain ⟨hcyc, hstb, -⟩ := hallowed h
  rw [presents, hcyc, hstb]
  exact hlast

/-- Every cycle keeps the invariant. -/
theorem Serving.next (h : s.Serving) (hallowed : s.MasterRule c) :
    (s.next addr c).Serving := by
  have hwaits : (s.next addr c).waits = (presents c.wb && !s.csrbrg.wbAckO) := rfl
  have hnext : (s.next addr c).csrbrg.state = s.csrbrg.nextState c.wb := rfl
  rw [Serving, hwaits, hnext, Csrbrg.wbAckO]
  have hbusy : s.csrbrg.state ≠ .idle → presents c.wb = true :=
    fun hstate => presents_of_waits hallowed (h.1 hstate)
  unfold Csrbrg.nextState
  cases hstate : s.csrbrg.state with
  | idle =>
      cases hpresents : presents c.wb with
      | false =>
          have hnone : (c.wb.cyc && c.wb.stb) = false := hpresents
          simp [hnone]
      | true =>
          have hsome : (c.wb.cyc && c.wb.stb) = true := hpresents
          cases hwe : c.wb.we with
          | false | true => simp [hsome]
  | delayack1 | delayack2 =>
      rw [hstate] at hbusy
      simp [hbusy nofun]
  | ack => simp

/-- The invariant holds after reset, and the strobe is low. -/
theorem of_initial (h : (fabric addr noutputs).Initial s) :
    s.Serving ∧ s.csrbrg.csrWe = false := by
  obtain ⟨before, c, hquiet, rfl⟩ := h
  constructor
  · have hwaits : (before.reset c).waits = (presents c.wb && !false) := rfl
    rw [Serving, hwaits, hquiet]
    exact iff_of_false (fun hstate => hstate rfl) nofun
  · show before.csrbrg.nextCsrWe c.wb = false
    by_contra hstrobe
    obtain ⟨-, hpresents, -⟩ := of_nextCsrWe (Bool.not_eq_false _ ▸ hstrobe)
    rw [hquiet] at hpresents
    cases hpresents

end Fabric

section Runs

variable (e : (fabric addr noutputs).Execution)

/-- A request starts in cycle `t` of a run. -/
def Starts (t : Nat) : Prop := (e.state t).starts (e.input t) = true

/-- A write request that starts in cycle `t`: the ack comes in the next cycle, which is the one with
the strobe. -/
structure Written (t : Nat) : Prop where
  ack : ∀ u, t ≤ u → u ≤ t + 1 → ((e.state u).csrbrg.wbAckO = true ↔ u = t + 1)
  strobe : ∀ u, t ≤ u → u ≤ t + 1 → ((e.state u).csrbrg.csrWe = true ↔ u = t + 1)
  adr : (e.state (t + 1)).csrbrg.csrA = (e.input t).wb.adr.extractLsb' 2 14
  data : (e.state (t + 1)).csrbrg.csrDo = (e.input t).wb.dat

/-- A read request that starts in cycle `t`: `csr_a` presents its address in the next cycle, and
with the ack two cycles later comes what the addressed register was then. -/
structure ReadBack (t : Nat) : Prop where
  ack : ∀ u, t ≤ u → u ≤ t + 3 → ((e.state u).csrbrg.wbAckO = true ↔ u = t + 3)
  adr : (e.state (t + 1)).csrbrg.csrA = (e.input t).wb.adr.extractLsb' 2 14
  value : ∀ p, addr p = (e.input t).wb.adr.extractLsb' 12 4 →
    (e.state (t + 3)).csrbrg.wbDatO = (e.state (t + 1)).register (e.input (t + 1)) p
  others : ∀ p, addr p ≠ (e.input t).wb.adr.extractLsb' 12 4 → (e.state (t + 2)).csrDo p = 0
  unselected : (∀ p, addr p ≠ (e.input t).wb.adr.extractLsb' 12 4) →
    (e.state (t + 3)).csrbrg.wbDatO = 0

/-- What the CSR bus does in a run. -/
structure Exact : Prop where
  write : ∀ t, Starts e t → (e.input t).wb.we = true → Written e t
  read : ∀ t, Starts e t → (e.input t).wb.we = false → ReadBack e t
  /-- An ack ends a request. -/
  acks : ∀ t, (e.state t).csrbrg.wbAckO = true →
    ∃ u, Starts e u ∧ t = if (e.input u).wb.we then u + 1 else u + 3
  /-- The strobe belongs to a write request. -/
  strobes : ∀ t, (e.state t).csrbrg.csrWe = true →
    ∃ u, Starts e u ∧ (e.input u).wb.we = true ∧ t = u + 1
  /-- Only the strobe of a write to it disturbs a peripheral. -/
  undisturbed : ∀ t p, (¬ ∃ u, Starts e u ∧ (e.input u).wb.we = true ∧ t = u + 1 ∧
    addr p = (e.input u).wb.adr.extractLsb' 12 4) → (e.state t).Undisturbed addr (e.input t) p

variable {e : (fabric addr noutputs).Execution} {t : Nat}

/-- The bridge in the next cycle. -/
theorem csrbrg_succ (t : Nat) : (e.state (t + 1)).csrbrg =
    (e.state t).csrbrg.next (e.input t).wb (e.state t).csrDi := by
  rw [e.step t]
  rfl

/-- The bridge's state in the next cycle. -/
theorem state_succ (t : Nat) : (e.state (t + 1)).csrbrg.state =
    (e.state t).csrbrg.nextState (e.input t).wb := by
  rw [csrbrg_succ]
  rfl

/-- The invariant holds in every cycle. -/
theorem serving (t : Nat) : (e.state t).Serving :=
  e.invariant (fun _ hinit => (Fabric.of_initial hinit).1)
    (fun _ _ hserving hallowed => hserving.next hallowed) t

/-- A request starts in a cycle in IDLE in which one is presented. -/
theorem starts_iff : Starts e t ↔
    (e.state t).csrbrg.state = .idle ∧ presents (e.input t).wb = true :=
  (serving t).starts_iff

/-- The bridge after a request has started. -/
theorem state_of_starts (h : Starts e t) : (e.state (t + 1)).csrbrg.state =
    if (e.input t).wb.we then .ack else .delayack1 := by
  obtain ⟨hidle, hpresents⟩ := starts_iff.1 h
  have hsome : ((e.input t).wb.cyc && (e.input t).wb.stb) = true := hpresents
  rw [state_succ, Csrbrg.nextState, hidle]
  exact if_pos hsome

/-- The second wait cycle follows the first. -/
theorem state_of_delayack1 (h : (e.state t).csrbrg.state = .delayack1) :
    (e.state (t + 1)).csrbrg.state = .delayack2 := by
  rw [state_succ, Csrbrg.nextState, h]

/-- The ack follows the second wait cycle. -/
theorem state_of_delayack2 (h : (e.state t).csrbrg.state = .delayack2) :
    (e.state (t + 1)).csrbrg.state = .ack := by
  rw [state_succ, Csrbrg.nextState, h]

/-- Where a busy bridge comes from. -/
theorem of_busy {state : CsrbrgState} (h : (e.state t).csrbrg.state = state)
    (hbusy : state ≠ .idle) : ∃ u, t = u + 1 ∧
      ((Starts e u ∧ state = if (e.input u).wb.we then .ack else .delayack1) ∨
        ((e.state u).csrbrg.state = .delayack1 ∧ state = .delayack2) ∨
        ((e.state u).csrbrg.state = .delayack2 ∧ state = .ack)) := by
  subst h
  cases t with
  | zero =>
      -- a reset leads to IDLE
      obtain ⟨before, c, -, hreset⟩ := e.initial
      rw [hreset] at hbusy
      exact absurd rfl hbusy
  | succ u =>
      refine ⟨u, rfl, ?_⟩
      cases hstate : (e.state u).csrbrg.state with
      | idle =>
          have hpresents : presents (e.input u).wb = true := by
            by_contra hquiet
            rw [state_succ, Csrbrg.nextState, hstate] at hbusy
            exact hbusy (if_neg hquiet)
          have hstarts : Starts e u := starts_iff.2 ⟨hstate, hpresents⟩
          exact .inl ⟨hstarts, state_of_starts hstarts⟩
      | delayack1 => exact .inr (.inl ⟨rfl, state_of_delayack1 hstate⟩)
      | delayack2 => exact .inr (.inr ⟨rfl, state_of_delayack2 hstate⟩)
      | ack =>
          rw [state_succ, Csrbrg.nextState, hstate] at hbusy
          exact absurd rfl hbusy

/-- The first wait cycle belongs to a read that started in the cycle before. -/
theorem of_delayack1 (h : (e.state t).csrbrg.state = .delayack1) :
    ∃ u, t = u + 1 ∧ Starts e u ∧ (e.input u).wb.we = false := by
  obtain ⟨u, rfl, ⟨hstarts, hstate⟩ | ⟨-, hstate⟩ | ⟨-, hstate⟩⟩ := of_busy h nofun
  · cases hwe : (e.input u).wb.we with
    | false => exact ⟨u, rfl, hstarts, hwe⟩
    | true =>
        rw [hwe] at hstate
        cases hstate
  · cases hstate
  · cases hstate

/-- The second wait cycle belongs to a read that started two cycles before. -/
theorem of_delayack2 (h : (e.state t).csrbrg.state = .delayack2) :
    ∃ u, t = u + 2 ∧ Starts e u ∧ (e.input u).wb.we = false := by
  obtain ⟨u, rfl, ⟨-, hstate⟩ | ⟨hbefore, -⟩ | ⟨-, hstate⟩⟩ := of_busy h nofun
  · split at hstate <;> cases hstate
  · obtain ⟨v, rfl, hread⟩ := of_delayack1 hbefore
    exact ⟨v, rfl, hread⟩
  · cases hstate

/-- An ack belongs to a write that started in the cycle before or to a read that started three
cycles before. -/
theorem of_ack (h : (e.state t).csrbrg.state = .ack) :
    ∃ u, Starts e u ∧ t = if (e.input u).wb.we then u + 1 else u + 3 := by
  obtain ⟨u, rfl, ⟨hstarts, hstate⟩ | ⟨-, hstate⟩ | ⟨hbefore, -⟩⟩ := of_busy h nofun
  · refine ⟨u, hstarts, ?_⟩
    cases hwe : (e.input u).wb.we with
    | false =>
        rw [hwe] at hstate
        cases hstate
    | true => rfl
  · cases hstate
  · obtain ⟨v, rfl, hstarts, hread⟩ := of_delayack2 hbefore
    refine ⟨v, hstarts, ?_⟩
    rw [hread]
    rfl

/-- The strobe belongs to a write that started in the cycle before. -/
theorem of_csrWe (h : (e.state t).csrbrg.csrWe = true) :
    ∃ u, Starts e u ∧ (e.input u).wb.we = true ∧ t = u + 1 := by
  cases t with
  | zero =>
      rw [(Fabric.of_initial e.initial).2] at h
      cases h
  | succ u =>
      rw [csrbrg_succ] at h
      obtain ⟨hidle, hpresents, hwe⟩ := of_nextCsrWe h
      exact ⟨u, starts_iff.2 ⟨hidle, hpresents⟩, hwe, rfl⟩

/-- The CSR bus in the cycle after a request has started. -/
theorem bus_of_starts (h : Starts e t) : (e.state (t + 1)).bus =
    ⟨(e.input t).wb.adr.extractLsb' 2 14, (e.input t).wb.we, (e.input t).wb.dat⟩ := by
  obtain ⟨hidle, hpresents⟩ := starts_iff.1 h
  have hsome : ((e.input t).wb.cyc && (e.input t).wb.stb) = true := hpresents
  have hstrobe : (e.state t).csrbrg.nextCsrWe (e.input t).wb = (e.input t).wb.we := by
    rw [Csrbrg.nextCsrWe, hidle]
    exact if_pos hsome
  rw [Fabric.bus, csrbrg_succ, ← hstrobe]
  rfl

/-- The bridge acknowledges in one state. -/
theorem wbAckO_iff : (e.state t).csrbrg.wbAckO = true ↔ (e.state t).csrbrg.state = .ack := by
  rw [Csrbrg.wbAckO, decide_eq_true_iff]

/-- A write request is exact. -/
theorem Starts.written (h : Starts e t) (hwe : (e.input t).wb.we = true) : Written e t := by
  have hidle : (e.state t).csrbrg.state = .idle := (starts_iff.1 h).1
  have hack : (e.state (t + 1)).csrbrg.state = .ack := by
    rw [state_of_starts h, hwe]
    rfl
  have hbus := bus_of_starts h
  have hnot : (e.state t).csrbrg.csrWe ≠ true := by
    intro hstrobe
    obtain ⟨u, hstarts, hwrite, rfl⟩ := of_csrWe hstrobe
    rw [state_of_starts hstarts, hwrite] at hidle
    cases hidle
  constructor
  · intro u hfrom hto
    obtain rfl | rfl : u = t ∨ u = t + 1 := by omega
    · rw [wbAckO_iff, hidle]
      simp
    · rw [wbAckO_iff, hack]
      simp
  · intro u hfrom hto
    obtain rfl | rfl : u = t ∨ u = t + 1 := by omega
    · simpa using hnot
    · exact iff_of_true ((congrArg CsrBus.we hbus).trans hwe) rfl
  · exact congrArg CsrBus.a hbus
  · exact congrArg CsrBus.di hbus

/-- A peripheral's output in the second cycle of a request. -/
theorem csrDo_of_starts (h : Starts e t) (p : Peripheral) : (e.state (t + 2)).csrDo p =
    if addr p = (e.input t).wb.adr.extractLsb' 12 4 then
      (e.state (t + 1)).register (e.input (t + 1)) p
    else 0 := by
  have hstep : e.state (t + 2) = (e.state (t + 1)).next addr (e.input (t + 1)) := e.step (t + 1)
  have hselects : (e.state (t + 1)).bus.selects (addr p) =
      decide (addr p = (e.input t).wb.adr.extractLsb' 12 4) := by
    rw [bus_of_starts h, CsrBus.selects, selected_adr, Bool.beq_eq_decide_eq]
    exact decide_eq_decide.2 eq_comm
  rw [hstep, Fabric.csrDo_next, hselects]
  exact if_congr decide_eq_true_iff rfl rfl

/-- The disjunction of the outputs when at most one peripheral shows something. -/
theorem csrDi_eq {s : Fabric noutputs} {p : Peripheral} (h : ∀ q, q ≠ p → s.csrDo q = 0) :
    s.csrDi = s.csrDo p := by
  unfold Fabric.csrDi
  cases p with
  | uart =>
      rw [h .sysctl nofun, h .ethernet nofun]
      simp
  | sysctl =>
      rw [h .uart nofun, h .ethernet nofun]
      simp
  | ethernet =>
      rw [h .uart nofun, h .sysctl nofun]
      simp

/-- A read request is exact. -/
theorem Starts.readBack (haddr : Function.Injective addr) (h : Starts e t)
    (hwe : (e.input t).wb.we = false) : ReadBack e t := by
  have hidle : (e.state t).csrbrg.state = .idle := (starts_iff.1 h).1
  have hfirst : (e.state (t + 1)).csrbrg.state = .delayack1 := by
    rw [state_of_starts h, hwe]
    rfl
  have hsecond : (e.state (t + 2)).csrbrg.state = .delayack2 := state_of_delayack1 hfirst
  have hack : (e.state (t + 3)).csrbrg.state = .ack := state_of_delayack2 hsecond
  have hdat : (e.state (t + 3)).csrbrg.wbDatO = (e.state (t + 2)).csrDi := by
    rw [csrbrg_succ (t + 2)]
    rfl
  have hothers : ∀ p, addr p ≠ (e.input t).wb.adr.extractLsb' 12 4 →
      (e.state (t + 2)).csrDo p = 0 := by
    intro p hp
    rw [csrDo_of_starts h, if_neg hp]
  constructor
  · intro u hfrom hto
    obtain rfl | rfl | rfl | rfl : u = t ∨ u = t + 1 ∨ u = t + 2 ∨ u = t + 3 := by omega
    · rw [wbAckO_iff, hidle]
      simp
    · rw [wbAckO_iff, hfirst]
      simp
    · rw [wbAckO_iff, hsecond]
      simp
    · rw [wbAckO_iff, hack]
      simp
  · exact congrArg CsrBus.a (bus_of_starts h)
  · intro p hp
    have hzero : ∀ q, q ≠ p → (e.state (t + 2)).csrDo q = 0 :=
      fun q hq => hothers q fun hsame => hq (haddr (hsame.trans hp.symm))
    rw [hdat, csrDi_eq hzero, csrDo_of_starts h, if_pos hp]
  · exact hothers
  · intro hnone
    rw [hdat, csrDi_eq (p := .uart) fun q _ => hothers q (hnone q)]
    exact hothers _ (hnone _)

end Runs

/-- In every run after reset, every access through the bridge is exact. -/
theorem accesses_exact (haddr : Function.Injective addr)
    (e : (fabric addr noutputs).Execution) : Exact e where
  write _ hstarts hwe := hstarts.written hwe
  read _ hstarts hwe := hstarts.readBack haddr hwe
  acks _ hack := of_ack (wbAckO_iff.1 hack)
  strobes _ hstrobe := of_csrWe hstrobe
  undisturbed t p hnot := by
    apply Fabric.undisturbed_of_not_written
    by_contra hwritten
    obtain ⟨hselects, hwe⟩ := (Bool.and_eq_true _ _).mp (Bool.not_eq_false _ ▸ hwritten)
    obtain ⟨u, hstarts, hwrite, rfl⟩ := of_csrWe hwe
    refine hnot ⟨u, hstarts, hwrite, rfl, ?_⟩
    rw [bus_of_starts hstarts, CsrBus.selects, selected_adr] at hselects
    exact (beq_iff_eq.1 hselects).symm

/-- The addresses of the board. -/
def boardAddr : Peripheral → BitVec 4
  | .uart => 0x0
  | .sysctl => 0x1
  | .ethernet => 0x8

/-- A cycle with a request, nothing in the FIFOs and a silent MAC. -/
def present (wb : Request) : Cycle := ⟨wb, false, true, 0, ⟨0, 0, 0, false, false⟩⟩

/-- The outputs of the system controller are written and read back. -/
def gpioAccesses : Nat → Cycle
  | 0 | 1 => present ⟨0x60001004, 0, 0xf, 0xa5, true, true, true⟩
  | 2 | 3 | 4 | 5 => present ⟨0x60001004, 0, 0xf, 0, false, true, true⟩
  | _ => present Conbus.quiet

/-- Some registers at power-up. -/
def powerUp : Fabric 8 where
  csrbrg := ⟨.ack, 0, 0, true, 0⟩
  uart := .reset
  sysctl := .reset
  ethernet := ⟨0, false, false, false, false, false, false, 0, 0, 0, 0, false⟩
  last := Conbus.quiet
  acked := false

/-- The rule holds in every cycle of these accesses. -/
theorem gpio_accesses_allowed (t : Nat) :
    (fabric boardAddr 8).Allowed (Machine.Execution.states (fabric boardAddr 8)
      (powerUp.reset (present Conbus.quiet)) gpioAccesses t) (gpioAccesses t) := by
  match t with
  | 0 | 1 | 2 | 3 | 4 | 5 | 6 => decide +kernel
  | t + 7 =>
      -- nothing waits after a cycle without a request
      intro hwaits
      cases hwaits

/-- The run of these accesses. -/
def gpioRun : (fabric boardAddr 8).Execution :=
  .ofInputs (powerUp.reset (present Conbus.quiet)) gpioAccesses ⟨_, _, rfl, rfl⟩
    gpio_accesses_allowed

/-- The accesses of this run are exact, and the second returns what the first has written. -/
theorem accesses_exact_gpio : Exact gpioRun ∧ (gpioRun.state 5).csrbrg.wbAckO = true ∧
    (gpioRun.state 5).csrbrg.wbDatO = 0xa5 := by
  refine ⟨accesses_exact (fun p q => ?_) gpioRun, by decide +kernel, by decide +kernel⟩
  cases p <;> cases q <;> decide

end Soc.CsrSystem
