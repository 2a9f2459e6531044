import Soc.Csr

/-!
# Signed division

`__divsi3` and `__modsi3` of `libbase/divsi3.c`, on the words of a CPU that divides unsigned
words only and where a negation wraps. The two take the signs off in different code;
`divsi3_eq_sdiv` and `modsi3_eq_srem` bring both to the division of two's-complement numbers,
which rounds towards zero.
-/

namespace Soc.Libbase

/-- `divnorm`: the operands without their signs, and the sign of the quotient. -/
def divnorm (num den : Word) : Word × Word × Int :=
  let (num, sign) := if num.slt 0#32 then (-num, 1) else (num, 0)
  if den.slt 0#32 then (num, -den, 1 - sign) else (num, den, sign)

/-- `exitdiv`. -/
def exitdiv (sign : Int) (res : Word) : Word := if sign ≠ 0 then -res else res

/-- `__divsi3`. Division of words is unsigned. -/
def divsi3 (numerator denominator : Word) : Word :=
  let (numerator, denominator, sign) := divnorm numerator denominator
  let dividend := numerator / denominator
  exitdiv sign dividend

/-- `__modsi3`. -/
def modsi3 (numerator denominator : Word) : Word :=
  let (numerator, sign) := if numerator.slt 0#32 then (-numerator, 1) else (numerator, 0)
  let denominator := if denominator.slt 0#32 then -denominator else denominator
  let res := numerator % denominator
  if sign ≠ 0 then -res else res

variable (numerator denominator : Word)

/-- The quotient is the one of signed division. -/
theorem divsi3_eq_sdiv : divsi3 numerator denominator = numerator.sdiv denominator := by
  rw [divsi3, divnorm, BitVec.slt_zero_eq_msb, BitVec.slt_zero_eq_msb, BitVec.sdiv_eq]
  cases numerator.msb with
  | false => cases denominator.msb <;> simp [exitdiv]
  | true => cases denominator.msb <;> simp [exitdiv]

/-- The remainder is the one of signed division. -/
theorem modsi3_eq_srem : modsi3 numerator denominator = numerator.srem denominator := by
  rw [modsi3, BitVec.slt_zero_eq_msb, BitVec.slt_zero_eq_msb, BitVec.srem_eq]
  cases numerator.msb with
  | false => cases denominator.msb <;> simp
  | true => cases denominator.msb <;> simp

/-- The quotient is the truncated one, modulo the word size. -/
theorem divsi3_eq_ofInt :
    divsi3 numerator denominator = .ofInt 32 (numerator.toInt.tdiv denominator.toInt) := by
  apply BitVec.eq_of_toInt_eq
  rw [divsi3_eq_sdiv, BitVec.toInt_sdiv, BitVec.toInt_ofInt]

/-- The remainder is the truncated one. -/
theorem modsi3_toInt :
    (modsi3 numerator denominator).toInt = numerator.toInt.tmod denominator.toInt := by
  rw [modsi3_eq_srem, BitVec.toInt_srem]

/-- Quotient and remainder make up the numerator. -/
theorem divsi3_mul_add_modsi3 :
    divsi3 numerator denominator * denominator + modsi3 numerator denominator = numerator := by
  have hmod : modsi3 numerator denominator =
      .ofInt 32 (numerator.toInt.tmod denominator.toInt) := by
    rw [← modsi3_toInt, BitVec.ofInt_toInt]
  calc divsi3 numerator denominator * denominator + modsi3 numerator denominator
      = .ofInt 32 (numerator.toInt.tdiv denominator.toInt * denominator.toInt +
          numerator.toInt.tmod denominator.toInt) := by
        rw [BitVec.ofInt_add, BitVec.ofInt_mul, BitVec.ofInt_toInt, divsi3_eq_ofInt, hmod]
    _ = numerator := by rw [Int.tdiv_mul_add_tmod, BitVec.ofInt_toInt]

variable {numerator denominator}

/-- The remainder is smaller than the denominator. -/
theorem natAbs_modsi3_lt (h : denominator ≠ 0) :
    (modsi3 numerator denominator).toInt.natAbs < denominator.toInt.natAbs := by
  rw [modsi3_toInt, Int.natAbs_tmod]
  have hne : denominator.toInt ≠ 0 := fun hz => h (BitVec.eq_of_toInt_eq hz)
  exact Nat.mod_lt _ (Int.natAbs_pos.2 hne)

/-- The remainder is 0 or has the sign of the numerator. -/
theorem modsi3_sign : modsi3 numerator denominator = 0 ∨
    (modsi3 numerator denominator).toInt.sign = numerator.toInt.sign := by
  by_cases hdvd : denominator.toInt ∣ numerator.toInt
  · left
    apply BitVec.eq_of_toInt_eq
    rw [modsi3_toInt, Int.tmod_eq_zero_of_dvd hdvd]
    rfl
  · right
    rw [modsi3_toInt, Int.sign_tmod, if_neg hdvd]

/-- Only the smallest number divided by -1 wraps. -/
theorem divsi3_toInt (h : ¬ (numerator = .intMin 32 ∧ denominator = -1)) :
    (divsi3 numerator denominator).toInt = numerator.toInt.tdiv denominator.toInt := by
  rw [divsi3_eq_sdiv]
  exact BitVec.toInt_sdiv_of_ne_or_ne _ _ (Decidable.not_and_iff_not_or_not.1 h)

/-- The two functions divide two's-complement words exactly. -/
theorem division_exact (n d : Word) (h : d ≠ 0) :
    divsi3 n d * d + modsi3 n d = n ∧
    (modsi3 n d).toInt.natAbs < d.toInt.natAbs ∧
    (modsi3 n d = 0 ∨ (modsi3 n d).toInt.sign = n.toInt.sign) ∧
    (¬ (n = .intMin 32 ∧ d = -1) → (divsi3 n d).toInt = n.toInt.tdiv d.toInt) ∧
    (n = .intMin 32 ∧ d = -1 → divsi3 n d = .intMin 32 ∧ modsi3 n d = 0) := by
  refine ⟨divsi3_mul_add_modsi3 n d, natAbs_modsi3_lt h, modsi3_sign, divsi3_toInt, ?_⟩
  rintro ⟨rfl, rfl⟩
  exact ⟨by decide, by decide⟩

/-- The smallest number divided by -1. -/
theorem division_exact_at_limit : (-1 : Word) ≠ 0 ∧
    divsi3 (.intMin 32) (-1) = .intMin 32 ∧ modsi3 (.intMin 32) (-1) = 0 :=
  ⟨by decide, (division_exact (.intMin 32) (-1) (by decide)).2.2.2.2 ⟨rfl, rfl⟩⟩

example : divsi3 (-7) 2 = -3 ∧ modsi3 (-7) 2 = -1 := by decide

end Soc.Libbase
