import Soc.Library.Machine
import Soc.Gdbstub.Exception

/-!
# The breakpoint table over sessions

Debug stops follow one another, and within each GDB sends breakpoint packets until one
resumes the application. `Agrees` says that the stub's table and its copy of DC are what was
last written to the CSRs. Single steps, inserts and removals keep them equal. Detach and
kill clear the CSRs but not the table, so they keep them equal exactly when the table is
empty.
-/

namespace Soc.Gdbstub

open Library (Machine)
open Lm32 (CSR_BP CSR_DC)
open Lm32.Debug (dcField)

/-- The table of breakpoints is what was last written to the breakpoint registers, and the
watchpoint fields of `dc` are those last written to DC. -/
structure Stub.Agrees (s : Stub) : Prop where
  enabled : ∀ i : Fin 4, test s.bpwpEnabled (bpBit i) = true ↔
    ∃ value, s.written (CSR_BP i) = some value ∧ bit value 0 = true
  address : ∀ i : Fin 4, test s.bpwpEnabled (bpBit i) = true →
    s.written (CSR_BP i) = some (s.bpAddress i ||| 1)
  fields : ∀ value, s.written CSR_DC = some value →
    ∀ i : Fin 4, dcField value i = dcField s.dc i

/-- No breakpoint is in the table. -/
def Stub.TableEmpty (s : Stub) : Prop :=
  ∀ i : Fin 4, test s.bpwpEnabled (bpBit i) = false

instance (s : Stub) : Decidable s.TableEmpty :=
  inferInstanceAs (Decidable (∀ _ : Fin 4, _))

section Registers

variable {s : Stub}

/-- Breakpoint registers are told apart by their index. -/
theorem csr_bp_inj : ∀ i j : Fin 4, CSR_BP i = CSR_BP j ↔ i = j := by
  decide

/-- DC is no breakpoint register. -/
theorem csr_dc_ne_bp : ∀ i : Fin 4, CSR_DC ≠ CSR_BP i := by
  decide

/-- Each breakpoint register has its own bit of `bpwp_enabled`. -/
theorem test_set_bpBit (v : Word) (i j : Fin 4) :
    test (v ||| bpBit i) (bpBit j) = (test v (bpBit j) || decide (j = i)) := by
  rw [bpBit, bpBit, test_set v (by omega)]
  simp [Fin.ext_iff]

/-- The same for clearing a bit. -/
theorem test_clear_bpBit (v : Word) (i j : Fin 4) :
    test (v &&& ~~~bpBit i) (bpBit j) = (test v (bpBit j) && !decide (j = i)) := by
  rw [bpBit, bpBit, test_clear v (by omega)]
  simp [Fin.ext_iff]

/-- The enable bit of a word with bit 0 set. -/
@[simp] theorem enable_bit (address : Word) : bit (address ||| 1#32) 0 = true := by
  simp [bit]

/-- A breakpoint that takes a register keeps the table equal to the CSRs. -/
theorem Stub.Agrees.useBreakpoint (h : s.Agrees) (i : Fin 4) (address : Word) :
    (s.useBreakpoint i address).Agrees := by
  refine ⟨?_, ?_, ?_⟩
  · intro j
    simp only [Stub.useBreakpoint, Stub.wcsr, test_set_bpBit, Function.update_apply, csr_bp_inj]
    by_cases hji : j = i
    · simp [hji]
    · simpa [hji] using h.enabled j
  · intro j
    simp only [Stub.useBreakpoint, Stub.wcsr, test_set_bpBit, Function.update_apply, csr_bp_inj,
      Fin.val_inj]
    by_cases hji : j = i
    · simp [hji]
    · simpa [hji] using h.address j
  · intro value hvalue j
    simp only [Stub.useBreakpoint, Stub.wcsr, Function.update_apply, csr_dc_ne_bp, if_false]
      at hvalue
    exact h.fields value hvalue j

/-- A breakpoint that gives its register up keeps the table equal to the CSRs. -/
theorem Stub.Agrees.freeBreakpoint (h : s.Agrees) (i : Fin 4) : (s.freeBreakpoint i).Agrees := by
  refine ⟨?_, ?_, ?_⟩
  · intro j
    simp only [Stub.freeBreakpoint, Stub.wcsr, test_clear_bpBit, Function.update_apply, csr_bp_inj]
    by_cases hji : j = i
    · simp [hji]
    · simpa [hji] using h.enabled j
  · intro j
    simp only [Stub.freeBreakpoint, Stub.wcsr, test_clear_bpBit, Function.update_apply, csr_bp_inj]
    by_cases hji : j = i
    · simp [hji]
    · simpa [hji] using h.address j
  · intro value hvalue j
    simp only [Stub.freeBreakpoint, Stub.wcsr, Function.update_apply, csr_dc_ne_bp, if_false]
      at hvalue
    exact h.fields value hvalue j

/-- The table does not depend on the packet buffers, the CPU registers or the connection. -/
theorem Stub.Agrees.congr {s' : Stub} (h : s.Agrees) (henabled : s'.bpwpEnabled = s.bpwpEnabled)
    (haddress : s'.bpAddress = s.bpAddress) (hdc : s'.dc = s.dc)
    (hwritten : s'.written = s.written) : s'.Agrees := by
  refine ⟨?_, ?_, ?_⟩
  · intro i
    rw [henabled, hwritten]
    exact h.enabled i
  · intro i
    rw [henabled, hwritten, haddress]
    exact h.address i
  · intro value hvalue i
    rw [hwritten] at hvalue
    rw [hdc]
    exact h.fields value hvalue i

/-- What `set_hw_breakpoint` can do. -/
theorem Stub.setHwBreakpoint_cases (s : Stub) (address : Word) :
    s.setHwBreakpoint address = (false, s) ∨
      ∃ i : Fin 4, s.setHwBreakpoint address = (true, s.useBreakpoint i address) := by
  unfold Stub.setHwBreakpoint
  simp only
  split_ifs
  · exact .inr ⟨0, rfl⟩
  · exact .inr ⟨1, rfl⟩
  · exact .inr ⟨2, rfl⟩
  · exact .inr ⟨3, rfl⟩
  · exact .inl rfl

/-- What `disable_hw_breakpoint` can do. -/
theorem Stub.disableHwBreakpoint_cases (s : Stub) (address : Word) :
    s.disableHwBreakpoint address = (false, s) ∨
      ∃ i : Fin 4, s.disableHwBreakpoint address = (true, s.freeBreakpoint i) := by
  unfold Stub.disableHwBreakpoint
  split_ifs
  · exact .inr ⟨0, rfl⟩
  · exact .inr ⟨1, rfl⟩
  · exact .inr ⟨2, rfl⟩
  · exact .inr ⟨3, rfl⟩
  · exact .inl rfl

end Registers

/-! ## Commands -/

section Commands

variable {s : Stub}

/-- `cmd_break` on a breakpoint packet. -/
theorem Stub.cmdBreak_breakpoint (hkind : s.remcomInBuffer 1 = ascii '1') :
    s.cmdBreak =
      match breakArgs s.remcomInBuffer with
      | none => s.reply "E22"
      | some addr =>
          let result :=
            if s.remcomInBuffer 0 = ascii 'Z' then s.setHwBreakpoint addr
            else s.disableHwBreakpoint addr
          result.2.reply (if result.1 then "OK" else "E28") := by
  rw [Stub.cmdBreak]
  cases breakArgs s.remcomInBuffer with
  | none => rfl
  | some addr => exact if_pos hkind

/-- Breakpoint packets keep the table equal to the CSRs. -/
theorem Stub.Agrees.cmdBreak (h : s.Agrees) (hkind : s.remcomInBuffer 1 = ascii '1') :
    s.cmdBreak.Agrees := by
  have hreply : ∀ {st : Stub} (r : String), st.Agrees → (st.reply r).Agrees :=
    fun _ h => h.congr rfl rfl rfl rfl
  rw [Stub.cmdBreak_breakpoint hkind]
  cases breakArgs s.remcomInBuffer with
  | none => exact hreply _ h
  | some address =>
      by_cases hinsert : s.remcomInBuffer 0 = ascii 'Z'
      · simp only [hinsert, if_true]
        obtain heq | ⟨i, heq⟩ := s.setHwBreakpoint_cases address
        · rw [heq]
          exact hreply _ h
        · rw [heq]
          exact hreply _ (h.useBreakpoint i address)
      · simp only [hinsert, if_false]
        obtain heq | ⟨i, heq⟩ := s.disableHwBreakpoint_cases address
        · rw [heq]
          exact hreply _ h
        · rw [heq]
          exact hreply _ (h.freeBreakpoint i)

/-- Breakpoint packets leave `dc` and the scratchpad alone. -/
theorem Stub.cmdBreak_dc (hkind : s.remcomInBuffer 1 = ascii '1') :
    s.cmdBreak.dc = s.dc ∧ s.cmdBreak.scratchpad = s.scratchpad := by
  rw [Stub.cmdBreak_breakpoint hkind]
  cases breakArgs s.remcomInBuffer with
  | none => exact ⟨rfl, rfl⟩
  | some address =>
      by_cases hinsert : s.remcomInBuffer 0 = ascii 'Z'
      · simp only [hinsert, if_true]
        obtain heq | ⟨i, heq⟩ := s.setHwBreakpoint_cases address <;> rw [heq] <;>
          exact ⟨rfl, rfl⟩
      · simp only [hinsert, if_false]
        obtain heq | ⟨i, heq⟩ := s.disableHwBreakpoint_cases address <;> rw [heq] <;>
          exact ⟨rfl, rfl⟩

/-- `remove_all_break` forgets to clear the table. -/
theorem Stub.removeAllBreak_bpwpEnabled (s : Stub) :
    s.removeAllBreak.bpwpEnabled = s.bpwpEnabled := by
  simp only [Stub.removeAllBreak, Stub.wcsr_bpwpEnabled]

/-- `remove_all_break` leaves `dc` alone. -/
theorem Stub.removeAllBreak_dc (s : Stub) : s.removeAllBreak.dc = s.dc := by
  simp only [Stub.removeAllBreak, Stub.wcsr_dc]

/-- `remove_all_break` disables every breakpoint register. -/
theorem Stub.removeAllBreak_written (s : Stub) :
    s.removeAllBreak.written CSR_DC = some 0 ∧
      ∀ i : Fin 4, s.removeAllBreak.written (CSR_BP i) = some 0 := by
  simp only [Stub.removeAllBreak, Stub.wcsr_written]
  refine ⟨rfl, fun i => ?_⟩
  match i with
  | 0 | 1 | 2 | 3 => rfl

/-- `remove_all_break` leaves the table equal to the CSRs exactly when the table is empty. -/
theorem Stub.agrees_removeAllBreak_iff (hdc : s.dc = 0) :
    s.removeAllBreak.Agrees ↔ s.TableEmpty := by
  obtain ⟨hwritten, hbp⟩ := s.removeAllBreak_written
  constructor
  · intro h i
    rw [← Bool.not_eq_true]
    intro hset
    rw [← s.removeAllBreak_bpwpEnabled] at hset
    obtain ⟨value, hvalue, henable⟩ := (h.enabled i).1 hset
    rw [hbp i] at hvalue
    cases hvalue
    simp at henable
  · intro hempty
    have hclear : ∀ i : Fin 4, test s.removeAllBreak.bpwpEnabled (bpBit i) = true → False := by
      intro i hset
      rw [s.removeAllBreak_bpwpEnabled, hempty i] at hset
      exact Bool.false_ne_true hset
    refine ⟨?_, fun i hset => (hclear i hset).elim, ?_⟩
    · intro i
      refine iff_of_false (hclear i) ?_
      rintro ⟨value, hvalue, henable⟩
      rw [hbp i] at hvalue
      cases hvalue
      simp at henable
    · intro value hvalue i
      rw [hwritten] at hvalue
      cases hvalue
      rw [s.removeAllBreak_dc, hdc]

/-- The single-step bit is in no watchpoint field. -/
theorem dcField_step (dc : Word) (i : Fin 4) : dcField (dc ||| 1) i = dcField dc i := by
  apply BitVec.eq_of_getLsbD_eq
  intro k hk
  simp [dcField, BitVec.getLsbD_extractLsb', BitVec.getLsbD_one]

/-- Continuing and stepping keep the table equal to the CSRs. -/
theorem Stub.Agrees.cmdContinuestep (h : s.Agrees) :
    s.cmdContinuestep.Agrees := by
  have hpc : ∀ mem : Word → Byte, Stub.Agrees { s with mem := mem } :=
    fun _ => h.congr rfl rfl rfl rfl
  have hstep : ∀ {st : Stub}, st.Agrees → (st.wcsr CSR_DC (st.dc ||| 1)).Agrees := by
    intro st hst
    refine ⟨?_, ?_, ?_⟩
    · intro i
      simpa [Function.update_apply, Ne.symm (csr_dc_ne_bp i)] using hst.enabled i
    · intro i
      simpa [Function.update_apply, Ne.symm (csr_dc_ne_bp i)] using hst.address i
    · intro value hvalue i
      simp only [Stub.wcsr, Function.update_self, Option.some.injEq] at hvalue ⊢
      rw [← hvalue, dcField_step]
  unfold Stub.cmdContinuestep
  cases hexArg s.remcomInBuffer 1 with
  | none =>
      simp only
      split_ifs
      · exact hstep h
      · exact h
  | some result =>
      simp only
      split_ifs
      · exact hstep (hpc _)
      · exact hpc _

/-- Continuing and stepping leave `dc` and the scratchpad alone. -/
theorem Stub.cmdContinuestep_dc :
    s.cmdContinuestep.dc = s.dc ∧ s.cmdContinuestep.scratchpad = s.scratchpad := by
  unfold Stub.cmdContinuestep
  cases hexArg s.remcomInBuffer 1 with
  | none =>
      simp only
      split_ifs <;> exact ⟨rfl, rfl⟩
  | some result =>
      simp only
      split_ifs <;> exact ⟨rfl, rfl⟩

end Commands

/-! ## Sessions -/

/-- The stub, and whether `handle_exception` is running. -/
structure Debuggee where
  stub : Stub
  stopped : Bool

/-- What happens next: the application stops with a debug exception, or a packet arrives. -/
inductive Event where
  | exception
  | packet (packet : Nat → Byte)

/-- The packets `Z1` and `z1`. -/
def IsBreakpoint (packet : Nat → Byte) : Prop :=
  (packet 0 = ascii 'Z' ∨ packet 0 = ascii 'z') ∧ packet 1 = ascii '1'

/-- The packets `D` and `k`. -/
def IsDetachKill (packet : Nat → Byte) : Prop :=
  packet 0 = ascii 'D' ∨ packet 0 = ascii 'k'

/-- The packets `c` and `s`. -/
def IsContinueStep (packet : Nat → Byte) : Prop :=
  packet 0 = ascii 'c' ∨ packet 0 = ascii 's'

instance (packet : Nat → Byte) : Decidable (IsBreakpoint packet) :=
  inferInstanceAs (Decidable (_ ∧ _))

instance (packet : Nat → Byte) : Decidable (IsDetachKill packet) :=
  inferInstanceAs (Decidable (_ ∨ _))

instance (packet : Nat → Byte) : Decidable (IsContinueStep packet) :=
  inferInstanceAs (Decidable (_ ∨ _))

namespace Sessions

/-- The debuggee after an event. -/
def next (s : Debuggee) : Event → Debuggee
  | .exception => ⟨s.stub.enter, true⟩
  | .packet packet =>
      let result := (s.stub.accept packet).execute
      ⟨result.1, result.2 = .reply⟩

/-- When an event can happen. -/
def Possible (s : Debuggee) : Event → Prop
  | .exception => s.stopped = false
  | .packet packet => s.stopped = true ∧
      (IsBreakpoint packet ∨ IsDetachKill packet ∨ IsContinueStep packet)

instance (s : Debuggee) : ∀ event, Decidable (Possible s event)
  | .exception => inferInstanceAs (Decidable (_ = _))
  | .packet _ => inferInstanceAs (Decidable (_ ∧ _))

/-- Debug stops from the first one after a board reset on, in which no CSR was written yet. -/
def machine : Machine Debuggee Event where
  Initial s := ∃ board : Stub, board.scratchpad = 0 ∧ (∀ csr, board.written csr = none) ∧
    s = ⟨board.enter, true⟩
  Allowed := Possible
  next := next

instance (s : Debuggee) (event : Event) : Decidable (machine.Allowed s event) :=
  inferInstanceAs (Decidable (Possible s event))

/-- Detach and kill come when no breakpoint is in the table. -/
def CleanExit (s : Debuggee) : Event → Prop
  | .exception => True
  | .packet packet => IsDetachKill packet → s.stub.TableEmpty

instance (s : Debuggee) : ∀ event, Decidable (CleanExit s event)
  | .exception => isTrue trivial
  | .packet _ => inferInstanceAs (Decidable (_ → _))

/-- The commands of a breakpoint session. -/
theorem execute_break {s : Stub} (h : IsBreakpoint s.remcomInBuffer) :
    s.execute = (s.cmdBreak, .reply) := by
  obtain ⟨hc | hc, -⟩ := h <;> simp only [Stub.execute, hc] <;> rfl

/-- Detach and kill. -/
theorem execute_detachkill {s : Stub} (h : IsDetachKill s.remcomInBuffer) :
    s.execute.1 = s.cmdDetachkill := by
  obtain hc | hc := h <;> simp only [Stub.execute, hc] <;> rfl

/-- Continue and step. -/
theorem execute_continuestep {s : Stub} (h : IsContinueStep s.remcomInBuffer) :
    s.execute.1 = s.cmdContinuestep := by
  obtain hc | hc := h <;> simp only [Stub.execute, hc] <;> rfl

/-- What holds in every session without watchpoints: `dc` is zero, and the static data is not
cleared again. -/
structure Settled (s : Debuggee) : Prop where
  dc : s.stub.dc = 0
  scratchpad : s.stub.scratchpad ≠ 0

variable {s : Debuggee} {event : Event}

/-- Entering the stub again changes nothing. -/
theorem Settled.enter (h : Settled s) : s.stub.enter = s.stub := by
  rw [Stub.enter, if_neg h.scratchpad]

/-- What detaching does to `dc` and the scratchpad. -/
theorem cmdDetachkill_dc (s : Stub) :
    s.cmdDetachkill.dc = s.dc ∧ s.cmdDetachkill.scratchpad = s.scratchpad := by
  have hscratchpad : s.removeAllBreak.scratchpad = s.scratchpad := by
    simp only [Stub.removeAllBreak, Stub.wcsr_scratchpad]
  have hdc := s.removeAllBreak_dc
  unfold Stub.cmdDetachkill
  generalize s.removeAllBreak = cleared at hdc hscratchpad
  simp only
  split_ifs <;> exact ⟨hdc, hscratchpad⟩

/-- Detaching leaves the table equal to the CSRs exactly when it is empty. -/
theorem agrees_cmdDetachkill_iff (s : Stub) (hdc : s.dc = 0) :
    s.cmdDetachkill.Agrees ↔ s.TableEmpty := by
  rw [← Stub.agrees_removeAllBreak_iff hdc]
  -- neither the connection nor the reply is part of the table
  unfold Stub.cmdDetachkill
  generalize s.removeAllBreak = cleared
  simp only
  split_ifs <;> exact ⟨fun h => h.congr rfl rfl rfl rfl, fun h => h.congr rfl rfl rfl rfl⟩

/-- Every event keeps `dc` and the scratchpad settled. -/
theorem Settled.next (h : Settled s) (hallowed : machine.Allowed s event) :
    Settled (machine.next s event) := by
  cases event with
  | exception =>
      have henter := h.enter
      refine ⟨?_, ?_⟩
      · show s.stub.enter.dc = 0
        rw [henter, h.dc]
      · show s.stub.enter.scratchpad ≠ 0
        rw [henter]
        exact h.scratchpad
  | packet packet =>
      have hsettled : (s.stub.accept packet).execute.1.dc = (s.stub.accept packet).dc ∧
          (s.stub.accept packet).execute.1.scratchpad = (s.stub.accept packet).scratchpad := by
        obtain ⟨-, hkind | hkind | hkind⟩ := hallowed
        · rw [execute_break (s := s.stub.accept packet) hkind]
          exact Stub.cmdBreak_dc hkind.2
        · rw [execute_detachkill (s := s.stub.accept packet) hkind]
          exact cmdDetachkill_dc _
        · rw [execute_continuestep (s := s.stub.accept packet) hkind]
          exact Stub.cmdContinuestep_dc
      exact ⟨hsettled.1.trans h.dc, fun hz => h.scratchpad (hsettled.2.symm.trans hz)⟩

/-- From a table equal to the CSRs, an event leads to one exactly when it is no detach or kill with
breakpoints in the table. -/
theorem Settled.agrees_next_iff (h : Settled s) (hagrees : s.stub.Agrees)
    (hallowed : machine.Allowed s event) :
    (machine.next s event).stub.Agrees ↔ CleanExit s event := by
  cases event with
  | exception =>
      refine iff_of_true ?_ trivial
      show s.stub.enter.Agrees
      rw [h.enter]
      exact hagrees
  | packet packet =>
      have haccept : (s.stub.accept packet).Agrees := hagrees.congr rfl rfl rfl rfl
      show (s.stub.accept packet).execute.1.Agrees ↔ (IsDetachKill packet → s.stub.TableEmpty)
      by_cases hdetach : IsDetachKill packet
      · -- only here the CSRs are cleared behind the back of the table
        have hiff := agrees_cmdDetachkill_iff (s.stub.accept packet) h.dc
        rw [execute_detachkill (s := s.stub.accept packet) hdetach]
        exact hiff.trans ⟨fun hempty _ => hempty, fun hempty => hempty hdetach⟩
      · refine iff_of_true ?_ fun hd => absurd hd hdetach
        obtain ⟨-, hkind | hkind | hkind⟩ := hallowed
        · rw [execute_break (s := s.stub.accept packet) hkind]
          exact haccept.cmdBreak hkind.2
        · exact absurd hkind hdetach
        · rw [execute_continuestep (s := s.stub.accept packet) hkind]
          exact haccept.cmdContinuestep

/-- The first debug stop after a board reset finds the table empty and nothing written. -/
theorem settled_initial (h : machine.Initial s) : Settled s ∧ s.stub.Agrees := by
  obtain ⟨board, hreset, hwritten, rfl⟩ := h
  have henter : board.enter = { board.clearBss with scratchpad := 1 } := by
    rw [Stub.enter, if_pos hreset]
  refine ⟨⟨?_, ?_⟩, ⟨?_, ?_, ?_⟩⟩
  · show board.enter.dc = 0
    rw [henter]
    rfl
  · show board.enter.scratchpad ≠ 0
    rw [henter]
    show (1 : Byte) ≠ 0
    decide
  · intro i
    have hnone : board.enter.written = board.written := by rw [henter]; rfl
    have hclear : board.enter.bpwpEnabled = 0 := by rw [henter]; rfl
    simp [hnone, hclear, hwritten, test]
  · intro i hset
    have hclear : board.enter.bpwpEnabled = 0 := by rw [henter]; rfl
    simp [hclear, test] at hset
  · intro value hvalue
    have hnone : board.enter.written = board.written := by rw [henter]; rfl
    simp [hnone, hwritten] at hvalue

/-- Over whole sessions, the table and the copy of DC agree with the CSRs in all states exactly when
every detach and kill finds the table empty. -/
theorem table_agrees_iff (h : machine.Initial s) {events : List Event}
    (hrun : machine.AllowedRun s events) :
    machine.Always (fun s => s.stub.Agrees) s events ↔
      (machine.restrict CleanExit).AllowedRun s events := by
  obtain ⟨hsettled, hagrees⟩ := settled_initial h
  exact Machine.always_iff_restrict (fun _ _ => Settled.next) (fun _ _ => Settled.agrees_next_iff)
    hsettled hagrees hrun

/-- A board after reset. -/
def board : Stub where
  remcomInBuffer := fun _ => 0
  remcomOutBuffer := fun _ => 0
  bpAddress := fun _ => 0
  wpAddress := fun _ => 0
  bpwpEnabled := 0
  gdbConnected := false
  dc := 0
  cfg := 0x01100000
  debug := ⟨fun _ => 0, fun _ => false, fun _ => 0, fun _ => 0, false⟩
  written := fun _ => none
  mem := fun _ => 0
  registers := 0x10001f00
  scratchpad := 0

/-- A breakpoint is inserted, GDB detaches, and the application stops again. -/
def detachRun : List Event :=
  [.packet (packet "Z1,1000,4"), .packet (packet "D"), .exception]

/-- After the detach the table still has the breakpoint, which the CSR has lost. -/
theorem stale_breakpoint :
    ¬ ∀ s events, machine.Initial s → machine.AllowedRun s events →
      (machine.run s events).stub.Agrees := by
  intro h
  have hagrees := h ⟨board.enter, true⟩ detachRun ⟨board, rfl, fun _ => rfl, rfl⟩ (by decide)
  have haddress := hagrees.address 0 (by decide)
  exact absurd haddress (by decide)

/-- Insert, step, stop again and remove: a session that agrees throughout. -/
theorem table_agrees_iff_step :
    machine.Always (fun s => s.stub.Agrees) ⟨board.enter, true⟩
      [.packet (packet "Z1,1000,4"), .packet (packet "s"), .exception,
        .packet (packet "z1,1000,4"), .packet (packet "k")] :=
  (table_agrees_iff ⟨board, rfl, fun _ => rfl, rfl⟩ (by decide)).2 (by decide)

end Sessions

end Soc.Gdbstub
