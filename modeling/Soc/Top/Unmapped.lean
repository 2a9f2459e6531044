import Soc.Top.Progress

/-!
# An address without a slave

The board has no bus errors and its switch no timeout. If the processor asks for an address at which
nothing is connected, the bus stays with this request for good: nothing else is ever transferred,
and the pipeline runs dry. So `program_progress` needs what it assumes about the addresses.
-/

namespace Soc.Lm32.Core

variable {s : Core} {p : Pins}

/-- The instructions that can still leave the M stage when no bus answers any more. -/
def inFlight (s : Core) : Nat :=
  if s.iu.iCycO then 0 else 1 + s.validX.toNat + s.validM.toNat

/-- Without answers the pipeline runs dry. -/
theorem inFlight_next (hack : p.iAckI = false) (herr : p.iErrI = false) :
    (s.next p).inFlight + (s.validM && !s.stallM p).toNat ≤ s.inFlight := by
  have hfetch : (s.next p).iu.iCycO = if s.iu.iCycO then true else !s.stallD p := by
    change (if s.iu.iCycO then !(p.iAckI || p.iErrI) else !s.stallD p) = _
    rw [hack, herr, Bool.or_false, Bool.not_false]
  rw [inFlight, inFlight, hfetch]
  cases hi : s.iu.iCycO with
  | true =>
      -- the fetch that waits keeps the M stage waiting
      have hM : s.stallM p = true := by rw [stallM, hi, Bool.or_true]
      rw [hM, Bool.not_true, Bool.and_false]
      exact Nat.le_refl _
  | false =>
      have hvM := Bool.toNat_le s.validM
      rcases s.stall_cases p with ⟨hM, hX, hD, -, hk⟩ | ⟨hM, hX, hD, -, hk⟩ | ⟨hM, hX, hD, -⟩ |
        ⟨hM, hX, hD⟩
      · simp [hM, hX, hD, hk]
      · simp [hM, hX, hD, hk]
      · cases hv : s.validX <;> cases hk : s.killX p <;> simp [hM, hX, hD, hv, hk]
      · simp [hM, hD]

end Soc.Lm32.Core

namespace Soc.Top

open Conbus (ibus)
open Library (Machine)

namespace Lm32TestTop

variable {s : Lm32TestTop}

/-- Nothing is transferred. -/
theorem Wired.transfer_of_lost (h : s.Wired) (hlost : s.Lost) (c : Cycle) :
    s.transfer c = none := by
  rw [h.transfer_eq, h.not_ackO_of_lost hlost, if_neg Bool.false_ne_true]

/-- A lost request stays lost, and nothing is stored or loaded any more. -/
theorem Wired.run_of_lost (h : s.Wired) (hlost : s.Lost) (cs : List Cycle) :
    (lm32TestTop.run s cs).memory = s.memory ∧
      (lm32TestTop.run s cs).cpu.transfers = s.cpu.transfers := by
  induction cs generalizing s with
  | nil => exact ⟨rfl, rfl⟩
  | cons c cs ih =>
      obtain ⟨hmemory, htransfers⟩ := ih (h.next c) (h.lost_next hlost c)
      refine ⟨hmemory.trans ?_, htransfers.trans ?_⟩
      · rw [h.memory_next, h.transfer_of_lost hlost]
        rfl
      · rw [transfers_next, h.transfer_of_lost hlost]
        exact List.append_nil _

end Lm32TestTop

/-- An access to an address without a slave stops the board. Whatever happens then, interrupts and
breakpoints included, nothing is ever stored or loaded again, and at most three more instructions
or exceptions leave the pipeline. -/
theorem program_stops {s : Lm32TestTop} (hreach : lm32TestTop.Reachable s) (hlost : s.Lost)
    (cs : List Cycle) :
    lm32TestTop.count Lm32TestTop.leaves s cs ≤ 3 ∧
      (lm32TestTop.run s cs).memory = s.memory ∧
      (lm32TestTop.run s cs).cpu.transfers = s.cpu.transfers := by
  have hwired := Lm32TestTop.Wired.of_reachable hreach
  refine ⟨?_, hwired.run_of_lost hlost cs⟩
  have hfew : s.cpu.core.inFlight ≤ 3 := by
    have hX := Bool.toNat_le s.cpu.core.validX
    have hM := Bool.toNat_le s.cpu.core.validM
    rw [Lm32.Core.inFlight]
    split <;> omega
  have hleaves : lm32TestTop.count Lm32TestTop.leaves s cs ≤ s.cpu.core.inFlight := by
    clear hfew hreach
    induction cs generalizing s with
    | nil => exact Nat.zero_le _
    | cons c cs ih =>
        have hstep : (s.next c).cpu.core.inFlight + (s.leaves c).toNat ≤ s.cpu.core.inFlight :=
          Lm32.Core.inFlight_next (hwired.not_ackO_of_lost hlost c ibus) rfl
        have hlater := ih (hwired.lost_next hlost c) (hwired.next c)
        rw [Machine.count]
        change (s.leaves c).toNat + lm32TestTop.count _ (s.next c) cs ≤ _
        omega
  exact hleaves.trans hfew

/-- A board whose RAM holds a program that loads from 0x20000000. -/
def straying : Lm32TestTop :=
  -- orhi r1, r0, 0x2000; lw r2, (r1+0)
  { counting with ram.ctrl.ram.cells := fun i => if i = 0 then 0x78012000 else 0x28220000 }

/-- It has not carried out four instructions after a million cycles. -/
theorem program_stops_straying :
    lm32TestTop.count Lm32TestTop.leaves (lm32TestTop.run straying (List.replicate 20 calm))
      (List.replicate 1000000 calm) ≤ 3 := by
  have hinit : lm32TestTop.Initial straying := counting_initial
  have hlost : (lm32TestTop.run straying (List.replicate 20 calm)).Lost := by decide +kernel
  exact (program_stops (.run (.initial hinit) (Lm32TestTop.allowedRun _ _)) hlost _).1

end Soc.Top
