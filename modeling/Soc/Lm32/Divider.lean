import Mathlib.Tactic.Ring
import Soc.Library.Machine
import Soc.Lm32.InstructionSet

/-!
# The divider of the LM32

`lm32_mc_arithmetic.v` as the board configures it: a divider and nothing else. An operation takes
32 steps that shift the dividend through `a` into `p` and subtract the divisor where they can; the
bits of the quotient follow the dividend in `a`.

`Progress` relates the registers to the operands while an operation is under way. Every step keeps
it, and after the last one it leaves quotient and remainder.
-/

namespace Soc.Lm32

open Library (Machine)

/-- The states of `lm32_mc_arithmetic` that this configuration has. -/
inductive McState where
  | IDLE
  | MODULUS
  | DIVIDE
  deriving DecidableEq

/-- The registers of `lm32_mc_arithmetic`. -/
structure McArithmetic where
  cycles : BitVec 6
  p : Word
  a : Word
  b : Word
  divideByZeroX : Bool
  resultX : Word
  state : McState

/-- What the pipeline presents in a cycle. -/
structure McIn where
  stallD : Bool
  killX : Bool
  divideD : Bool
  modulusD : Bool
  operand0D : Word
  operand1D : Word

namespace McArithmetic

/-- `rst_i`. -/
def reset : McArithmetic := ⟨0, 0, 0, 0, false, 0, .IDLE⟩

variable (s : McArithmetic) (i : McIn)

/-- `stall_request_x`. -/
def stallRequestX : Bool := s.state ≠ .IDLE

/-- `{p[30:0], a[31]}`. -/
def shifted : Word := s.p.extractLsb' 0 31 ++ s.a.extractLsb' 31 1

/-- The subtraction, with the borrow in bit 32. -/
def t : BitVec 33 := s.shifted.setWidth 33 - s.b.setWidth 33

/-- `p` after a step. -/
def nextP : Word := if (s.t).getLsbD 32 = false then s.t.extractLsb' 0 32 else s.shifted

/-- `a` after a step. -/
def nextA : Word :=
  s.a.extractLsb' 0 31 ++ (if (s.t).getLsbD 32 = false then 1#1 else 0#1)

/-- A cycle in one of the states of an operation. -/
def step (result : Word) : McArithmetic :=
  let last : Bool := s.cycles == 0 || i.killX
  { cycles := s.cycles - 1
    p := s.nextP
    a := s.nextA
    b := s.b
    divideByZeroX := last && s.b == 0
    resultX := result
    state := if last then .IDLE else s.state }

/-- A clock cycle. -/
def next : McArithmetic :=
  match s.state with
  | .IDLE =>
      if i.stallD = false then
        { s with
          cycles := 32
          p := 0
          a := i.operand0D
          b := i.operand1D
          divideByZeroX := false
          state := if i.modulusD then .MODULUS else if i.divideD then .DIVIDE else .IDLE }
      else { s with divideByZeroX := false }
  | .DIVIDE => s.step i s.a
  | .MODULUS => s.step i s.p

end McArithmetic

namespace McArithmetic

/-- `k` steps of the division of `n` by `d`: the bits shifted out so far make up `q` divisors and
the rest in `p`, and `a` holds the bits that are left, followed by those of `q`. -/
structure Progress (n d : Word) (k : Nat) (s : McArithmetic) : Prop where
  divisor : s.b = d
  split : ∃ q, q < Nat.pow 2 k ∧ (d = 0 → q + 1 = Nat.pow 2 k) ∧
    4294967296 * s.p.toNat + s.a.toNat + 4294967296 * (q * d.toNat) = Nat.pow 2 k * n.toNat + q
  rest : d ≠ 0 → s.p.toNat < d.toNat

section Steps

variable {n d : Word} {k : Nat} {s : McArithmetic} {i : McIn} {modulus : Bool}

/-- Nothing is shifted yet. -/
theorem progress_start (hp : s.p = 0) (ha : s.a = n) (hb : s.b = d) : Progress n d 0 s where
  divisor := hb
  split := ⟨0, Nat.one_pos, fun _ => rfl, by simp [hp, ha]⟩
  rest hd := by
    rw [hp]
    have hne : d.toNat ≠ 0 := fun h => hd (BitVec.eq_of_toNat_eq h)
    exact Nat.pos_of_ne_zero hne

/-- Before the last step the upper bit of `p` is clear. -/
theorem Progress.p_lt (h : Progress n d k s) : s.p.toNat < Nat.pow 2 k := by
  obtain ⟨q, hq, -, heq⟩ := h.split
  have hn : n.toNat ≤ 4294967295 := Nat.le_of_lt_succ n.isLt
  have hprod : Nat.pow 2 k * n.toNat ≤ Nat.pow 2 k * 4294967295 := Nat.mul_le_mul_left _ hn
  omega

/-- The value of `shifted`, when no bit is lost. -/
theorem shifted_toNat (hp : s.p.toNat < 2147483648) :
    s.shifted.toNat = 2 * s.p.toNat + s.a.toNat / 2147483648 := by
  have hbit : s.a.toNat / 2147483648 < 2 := by omega
  rw [shifted, BitVec.toNat_append, ← Nat.shiftLeft_add_eq_or_of_lt (by simp; omega)]
  simp [Nat.shiftLeft_eq, Nat.shiftRight_eq_div_pow]
  omega

/-- The borrow says which of the two is larger. -/
theorem t_borrow : (s.t.getLsbD 32 = false) ↔ s.b.toNat ≤ s.shifted.toNat := by
  have hs := s.shifted.isLt
  have hb := s.b.isLt
  have ht : s.t.toNat = (8589934592 - s.b.toNat + s.shifted.toNat) % 8589934592 := by
    rw [t, BitVec.toNat_sub, BitVec.toNat_setWidth, BitVec.toNat_setWidth]
    omega
  rw [BitVec.getLsbD, Nat.testBit_eq_decide_div_mod_eq, ht, decide_eq_false_iff_not]
  omega

/-- The low bits of the difference, when there is no borrow. -/
theorem t_low (h : s.b.toNat ≤ s.shifted.toNat) :
    (s.t.extractLsb' 0 32).toNat = s.shifted.toNat - s.b.toNat := by
  have hs := s.shifted.isLt
  have hb := s.b.isLt
  rw [BitVec.extractLsb'_toNat, t, BitVec.toNat_sub, BitVec.toNat_setWidth, BitVec.toNat_setWidth]
  omega

/-- `p` after a step. -/
theorem nextP_toNat : s.nextP.toNat =
    if s.b.toNat ≤ s.shifted.toNat then s.shifted.toNat - s.b.toNat else s.shifted.toNat := by
  rw [nextP]
  by_cases h : s.b.toNat ≤ s.shifted.toNat
  · rw [if_pos (t_borrow.2 h), if_pos h, t_low h]
  · rw [if_neg (mt t_borrow.1 h), if_neg h]

/-- `a` after a step. -/
theorem nextA_toNat : s.nextA.toNat =
    2 * (s.a.toNat % 2147483648) + if s.b.toNat ≤ s.shifted.toNat then 1 else 0 := by
  rw [nextA, BitVec.toNat_append]
  by_cases h : s.b.toNat ≤ s.shifted.toNat
  · rw [if_pos (t_borrow.2 h), if_pos h, ← Nat.shiftLeft_add_eq_or_of_lt (by decide)]
    simp [Nat.shiftLeft_eq, Nat.mul_comm]
  · rw [if_neg (mt t_borrow.1 h), if_neg h, ← Nat.shiftLeft_add_eq_or_of_lt (by decide)]
    simp [Nat.shiftLeft_eq, Nat.mul_comm]

/-- A step shifts one bit of the dividend and finds one bit of the quotient. -/
theorem Progress.step (h : Progress n d k s) (hk : k < 32) (result : Word) :
    Progress n d (k + 1) (s.step i result) := by
  have hpk := h.p_lt
  have hk31 : Nat.pow 2 k ≤ 2147483648 := Nat.pow_le_pow_right (by decide) (Nat.le_of_lt_succ hk)
  have hdouble : Nat.pow 2 (k + 1) = 2 * Nat.pow 2 k := by
    rw [Nat.pow_eq, Nat.pow_succ, Nat.mul_comm]
    rfl
  have hshift := shifted_toNat (s := s) (by omega)
  have hnextP := nextP_toNat (s := s)
  have hnextA := nextA_toNat (s := s)
  obtain ⟨q, hq, hzero, heq⟩ := h.split
  rw [h.divisor] at hnextP hnextA
  have hprod : Nat.pow 2 (k + 1) * n.toNat = 2 * (Nat.pow 2 k * n.toNat) := by
    rw [hdouble, Nat.mul_assoc]
  by_cases hle : d.toNat ≤ s.shifted.toNat
  · rw [if_pos hle] at hnextP hnextA
    refine ⟨h.divisor, ⟨2 * q + 1, by omega, fun hd => ?_, ?_⟩, fun hd => ?_⟩
    · have hq1 := hzero hd
      omega
    · have hmul : (2 * q + 1) * d.toNat = 2 * (q * d.toNat) + d.toNat := by ring
      change 4294967296 * s.nextP.toNat + s.nextA.toNat + _ = _
      rw [hmul, hprod]
      omega
    · have hrest := h.rest hd
      change s.nextP.toNat < _
      omega
  · rw [if_neg hle] at hnextP hnextA
    refine ⟨h.divisor, ⟨2 * q, by omega, fun hd => ?_, ?_⟩, fun hd => ?_⟩
    · rw [hd] at hle
      exact absurd (Nat.zero_le _) hle
    · have hmul : 2 * q * d.toNat = 2 * (q * d.toNat) := by ring
      change 4294967296 * s.nextP.toNat + s.nextA.toNat + _ = _
      rw [hmul, hprod]
      omega
    · change s.nextP.toNat < _
      omega

/-- After all steps the registers hold quotient and remainder. -/
theorem Progress.finished (h : Progress n d 32 s) : s.a = quotient n d ∧ s.p = remainder n d := by
  obtain ⟨q, hq, hzero, heq⟩ := h.split
  have hpow : Nat.pow 2 32 = 4294967296 := by decide
  rw [hpow] at hq hzero heq
  have ha : s.a.toNat = q := by omega
  have hp : s.p.toNat + q * d.toNat = n.toNat := by omega
  by_cases hd : d = 0
  · have hq1 := hzero hd
    refine ⟨BitVec.eq_of_toNat_eq ?_, BitVec.eq_of_toNat_eq ?_⟩
    · rw [quotient, if_pos hd, BitVec.toNat_allOnes]
      omega
    · subst hd
      rw [remainder, BitVec.toNat_umod]
      simpa using hp
  · have hrest := h.rest hd
    have hunique := (Nat.div_mod_unique (Nat.zero_lt_of_lt hrest)).2
      ⟨(by rw [Nat.mul_comm]; exact hp : s.p.toNat + d.toNat * q = n.toNat), hrest⟩
    refine ⟨BitVec.eq_of_toNat_eq ?_, BitVec.eq_of_toNat_eq ?_⟩
    · rw [quotient, if_neg hd, BitVec.toNat_udiv, hunique.1, ha]
    · rw [remainder, BitVec.toNat_umod, hunique.2]

end Steps

/-- The state of a division or of a modulus. -/
def working (modulus : Bool) : McState := if modulus then .MODULUS else .DIVIDE

/-- What an operation computes. -/
def outcome (modulus : Bool) (n d : Word) : Word := if modulus then remainder n d else quotient n d

/-- After `k` steps of an operation. -/
structure Busy (modulus : Bool) (n d : Word) (k : Nat) (s : McArithmetic) : Prop where
  state : s.state = working modulus
  cycles : s.cycles.toNat + k = 32
  progress : Progress n d k s

/-- After an operation, until the pipeline has moved on. -/
structure Finished (modulus : Bool) (n d : Word) (s : McArithmetic) : Prop where
  state : s.state = .IDLE
  resultX : s.resultX = outcome modulus n d

/-- An operation is under way or has its result. -/
def Operation (modulus : Bool) (n d : Word) (s : McArithmetic) : Prop :=
  (∃ k, Busy modulus n d k s) ∨ Finished modulus n d s

section Operations

variable {n d : Word} {k : Nat} {s : McArithmetic} {i : McIn} {modulus : Bool}

/-- A state of an operation is left by a step of that operation. -/
theorem Busy.next_eq (h : Busy modulus n d k s) :
    s.next i = s.step i (if modulus then s.p else s.a) := by
  rw [next, h.state]
  cases modulus with
  | false => rfl
  | true => rfl

/-- The pipeline is stalled meanwhile. -/
theorem Busy.stalls (h : Busy modulus n d k s) : s.stallRequestX = true := by
  rw [stallRequestX, h.state]
  cases modulus with
  | false => rfl
  | true => rfl

/-- An operation starts when its operands are taken over. -/
theorem busy_start (hidle : s.state = .IDLE) (hstall : i.stallD = false)
    (hmodulus : i.modulusD = modulus) (hop : i.modulusD = false → i.divideD = true) :
    Busy modulus i.operand0D i.operand1D 0 (s.next i) := by
  rw [next, hidle]
  dsimp only
  rw [if_pos hstall]
  refine ⟨?_, rfl, progress_start rfl rfl rfl⟩
  subst hmodulus
  cases hm : i.modulusD with
  | false => simp [working, hop hm]
  | true => simp [working]

/-- A step of an operation that is not killed, before the last one. -/
theorem Busy.step (h : Busy modulus n d k s) (hk : k < 32) (hkill : i.killX = false) :
    Busy modulus n d (k + 1) (s.next i) := by
  have hcycles := h.cycles
  have hne : s.cycles ≠ 0 := by
    intro hzero
    rw [hzero] at hcycles
    change 0 + k = 32 at hcycles
    omega
  have hlast : (s.cycles == 0 || i.killX) = false := by
    rw [hkill, Bool.or_false]
    exact beq_eq_false_iff_ne.2 hne
  rw [h.next_eq]
  refine ⟨?_, ?_, h.progress.step hk _⟩
  · change (if (s.cycles == 0 || i.killX) = true then McState.IDLE else s.state) = _
    rw [hlast]
    exact h.state
  · have hsub : (s.cycles - 1).toNat = s.cycles.toNat - 1 := by
      rw [BitVec.toNat_sub]
      have hlt := s.cycles.isLt
      change (64 - 1 + s.cycles.toNat) % 64 = _
      omega
    change (s.cycles - 1).toNat + (k + 1) = 32
    omega

/-- The last cycle of an operation. -/
theorem Busy.last (h : Busy modulus n d 32 s) :
    Finished modulus n d (s.next i) ∧ (s.next i).divideByZeroX = (d == 0) := by
  have hzero : s.cycles = 0 := by
    apply BitVec.eq_of_toNat_eq
    have hcycles := h.cycles
    change s.cycles.toNat = 0
    omega
  obtain ⟨ha, hp⟩ := h.progress.finished
  rw [h.next_eq]
  refine ⟨⟨?_, ?_⟩, ?_⟩
  · simp [McArithmetic.step, hzero]
  · rw [outcome, ← ha, ← hp]
    rfl
  · simp [McArithmetic.step, hzero, h.progress.divisor]

/-- The number of steps is bounded. -/
theorem Busy.le (h : Busy modulus n d k s) : k ≤ 32 := by
  have hcycles := h.cycles
  omega

/-- A killed operation is given up, and the next one starts when the pipeline moves on. -/
theorem next_idle (hidle : s.state = .IDLE ∨ i.killX = true)
    (hstay : i.stallD = true ∨ s.state ≠ .IDLE ∨ (i.divideD || i.modulusD) = false) :
    (s.next i).state = .IDLE := by
  rw [McArithmetic.next]
  cases hs : s.state with
  | IDLE =>
      dsimp only
      by_cases hstall : i.stallD = false
      · have hnone : (i.divideD || i.modulusD) = false :=
          (hstay.resolve_left (by rw [hstall]; decide)).resolve_left fun h => h hs
        rw [Bool.or_eq_false_iff] at hnone
        rw [if_pos hstall]
        simp [hnone.1, hnone.2]
      · rw [if_neg hstall]
  | MODULUS =>
      have hkill : i.killX = true := hidle.resolve_left (by rw [hs]; decide)
      simp [McArithmetic.step, hkill]
  | DIVIDE =>
      have hkill : i.killX = true := hidle.resolve_left (by rw [hs]; decide)
      simp [McArithmetic.step, hkill]

/-- The result stays until the next operation. -/
theorem Finished.next (h : Finished modulus n d s) (hstay : i.stallD = false → i.divideD = false)
    (hstay' : i.stallD = false → i.modulusD = false) : Finished modulus n d (s.next i) := by
  rw [McArithmetic.next, h.state]
  dsimp only
  by_cases hstall : i.stallD = false
  · rw [if_pos hstall]
    exact ⟨by simp [hstay hstall, hstay' hstall], h.resultX⟩
  · rw [if_neg hstall]
    exact ⟨rfl, h.resultX⟩

/-- An operation goes on while it is not killed and the pipeline waits for it. -/
theorem Operation.next (h : Operation modulus n d s) (hkill : i.killX = false)
    (hstall : i.stallD = true) : Operation modulus n d (s.next i) := by
  rcases h with ⟨k, hbusy⟩ | hdone
  · rcases Nat.lt_or_eq_of_le hbusy.le with hk | rfl
    · exact .inl ⟨k + 1, hbusy.step hk hkill⟩
    · exact .inr hbusy.last.1
  · exact .inr (hdone.next (fun h0 => absurd h0 (by simp [hstall]))
      fun h0 => absurd h0 (by simp [hstall]))

/-- An operation that no longer stalls the pipeline has its result. -/
theorem Operation.resultX (h : Operation modulus n d s) (hready : s.stallRequestX = false) :
    s.resultX = outcome modulus n d := by
  rcases h with ⟨k, hbusy⟩ | hdone
  · exact absurd hbusy.stalls (by simp [hready])
  · exact hdone.resultX

end Operations

/-- The divider in its pipeline, which may present anything in any cycle. -/
def divider : Machine McArithmetic McIn where
  Initial s := s = reset
  Allowed _ _ := True
  next := next

section Runs

variable {n d : Word} {k : Nat} {s : McArithmetic} {modulus : Bool}

/-- An operation after a number of cycles. -/
theorem Busy.run {inputs : List McIn} (h : Busy modulus n d k s)
    (hlen : k + inputs.length ≤ 32) (hkill : ∀ i ∈ inputs, i.killX = false) :
    Busy modulus n d (k + inputs.length) (divider.run s inputs) := by
  induction inputs generalizing k s with
  | nil => exact h
  | cons i inputs ih =>
      rw [List.length_cons] at hlen
      have hstep := h.step (i := i) (by omega) (hkill i List.mem_cons_self)
      have hrest := ih hstep (by omega) fun j hj => hkill j (List.mem_cons_of_mem i hj)
      rw [List.length_cons, show k + (inputs.length + 1) = k + 1 + inputs.length by omega]
      exact hrest

end Runs

/-- Whatever the pipeline presents meanwhile, a division that is not killed stalls it for 33 cycles
and then has its result, and says in that cycle whether the divisor was 0. -/
theorem divider_run (s : McArithmetic) (start : McIn) (inputs : List McIn) (last : McIn)
    (hidle : s.state = .IDLE) (hstall : start.stallD = false)
    (hop : start.modulusD = false → start.divideD = true)
    (hlen : inputs.length = 32) (hkill : ∀ i ∈ inputs, i.killX = false) :
    (∀ waited, waited <+: inputs →
      (divider.run s (start :: waited)).stallRequestX = true) ∧
    (divider.run s (start :: inputs ++ [last])).stallRequestX = false ∧
    (divider.run s (start :: inputs ++ [last])).resultX =
      outcome start.modulusD start.operand0D start.operand1D ∧
    (divider.run s (start :: inputs ++ [last])).divideByZeroX = (start.operand1D == 0) := by
  have hstart : Busy start.modulusD start.operand0D start.operand1D 0 (s.next start) :=
    busy_start hidle hstall rfl hop
  refine ⟨fun waited hwaited => ?_, ?_⟩
  · have hle := hwaited.length_le
    exact (hstart.run (by omega) fun i hi => hkill i (hwaited.subset hi)).stalls
  · have hbusy := hstart.run (by omega) hkill
    rw [hlen] at hbusy
    obtain ⟨hdone, hzero⟩ := hbusy.last (i := last)
    rw [List.cons_append, ← List.singleton_append, Machine.run_append, Machine.run_append]
    exact ⟨by simp only [stallRequestX, Machine.run, List.foldl_cons, List.foldl_nil]; exact
      decide_eq_false (not_not.2 hdone.state), hdone.resultX, hzero⟩

/-- 100 divided by 7. -/
theorem divider_run_hundred :
    (divider.run reset (⟨false, false, true, false, 100, 7⟩ ::
      List.replicate 32 ⟨true, false, false, false, 0, 0⟩ ++
      [⟨true, false, false, false, 0, 0⟩])).resultX = 14 :=
  (divider_run reset ⟨false, false, true, false, 100, 7⟩ (List.replicate 32 _) _ rfl rfl
    (fun _ => rfl) (by decide) (by simp)).2.2.1

end McArithmetic

end Soc.Lm32
