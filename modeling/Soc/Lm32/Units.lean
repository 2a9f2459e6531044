import Soc.Lm32.InstructionSet

/-!
# The units of the LM32 that compute

`lm32_addsub`, `lm32_adder` and `lm32_logic_op`, the sign extension and the evaluation of conditions
of `lm32_cpu.v`, and the two units that have registers of their own, `lm32_shifter` and
`lm32_multiplier`. Each computes operations of the instruction set: the comparisons come from the
flags of a subtraction, and a shift to the left is a shift to the right of the reversed word.
-/

namespace Soc.Lm32

section Adder

/-- `lm32_addsub`: `Result` and `Cout`. -/
def addsub (dataA dataB : Word) (cin addSub : Bool) : Word × Bool :=
  let addResult : BitVec 33 :=
    dataA.setWidth 33 + dataB.setWidth 33 + (BitVec.ofBool cin).setWidth 33
  let subResult : BitVec 33 :=
    dataA.setWidth 33 - dataB.setWidth 33 - (BitVec.ofBool !cin).setWidth 33
  if addSub then (addResult.extractLsb' 0 32, addResult.getLsbD 32)
  else (subResult.extractLsb' 0 32, !subResult.getLsbD 32)

/-- The outputs of `lm32_adder`. -/
structure Adder where
  resultX : Word
  carryNX : Bool
  overflowX : Bool

/-- `lm32_adder`. -/
def adder (adderOpX adderOpXN : Bool) (operand0X operand1X : Word) : Adder :=
  let (result, carryN) := addsub operand0X operand1X adderOpX adderOpXN
  let aSign := operand0X.getLsbD 31
  let bSign := operand1X.getLsbD 31
  let resultSign := result.getLsbD 31
  { resultX := result
    carryNX := carryN
    overflowX := (!aSign && bSign && resultSign) || (aSign && !bSign && !resultSign) }

variable {a b : Word}

/-- An addition. -/
theorem addsub_add : (addsub a b false true).1 = a + b := by
  apply BitVec.eq_of_toNat_eq
  simp [addsub, BitVec.extractLsb'_toNat, BitVec.toNat_add]

/-- A subtraction, and whether it borrows. -/
theorem addsub_sub : addsub a b true false = (a - b, b.ule a) := by
  have ha := a.isLt
  have hb := b.isLt
  have hzero : (BitVec.ofBool !true).setWidth 33 = 0#33 := by decide
  have hdiff : (a.setWidth 33 - b.setWidth 33).toNat =
      (8589934592 - b.toNat + a.toNat) % 8589934592 := by
    rw [BitVec.toNat_sub, BitVec.toNat_setWidth, BitVec.toNat_setWidth]
    omega
  rw [addsub, hzero, BitVec.sub_zero]
  refine Prod.ext (BitVec.eq_of_toNat_eq ?_) ?_
  · change ((a.setWidth 33 - b.setWidth 33).extractLsb' 0 32).toNat = _
    rw [BitVec.extractLsb'_toNat, hdiff, BitVec.toNat_sub]
    omega
  · change (!(a.setWidth 33 - b.setWidth 33).getLsbD 32) = _
    rw [BitVec.getLsbD, Nat.testBit_eq_decide_div_mod_eq, hdiff, BitVec.ule_eq_decide,
      ← decide_not]
    apply decide_eq_decide.2
    omega

/-- The sign of a word. -/
theorem getLsbD_sign (v : Word) : v.getLsbD 31 = decide (2147483648 ≤ v.toNat) := by
  have hv := v.isLt
  rw [BitVec.getLsbD, Nat.testBit_eq_decide_div_mod_eq]
  apply decide_eq_decide.2
  omega

/-- The sum. -/
theorem adder_add : (adder false true a b).resultX = a + b := addsub_add

/-- The difference. -/
theorem adder_sub : (adder true false a b).resultX = a - b := by
  rw [adder, addsub_sub]

/-- The carry of a subtraction compares words without sign. -/
theorem adder_carry : (adder true false a b).carryNX = b.ule a := by
  rw [adder, addsub_sub]

/-- Sign and overflow of a subtraction compare words with sign. -/
theorem adder_signs :
    ((adder true false a b).resultX.getLsbD 31 == (adder true false a b).overflowX) = b.sle a := by
  have ha := a.isLt
  have hb := b.isLt
  rw [adder, addsub_sub]
  simp only [getLsbD_sign, BitVec.toNat_sub, BitVec.sle_eq_decide, BitVec.toInt_eq_toNat_cond]
  by_cases hA : 2147483648 ≤ a.toNat <;> by_cases hB : 2147483648 ≤ b.toNat <;>
    by_cases hR : 2147483648 ≤ (4294967296 - b.toNat + a.toNat) % 4294967296 <;>
    simp [hA, hB, hR] <;> omega

end Adder

section Conditions

/-- `condition_met_x`, by the code of the condition. -/
def conditionMet (condition : BitVec 3) (operand0X operand1X : Word) (adderX : Adder) : Bool :=
  let cmpZero := operand0X == operand1X
  let cmpNegative := adderX.resultX.getLsbD 31
  let cmpOverflow := adderX.overflowX
  let cmpCarryN := adderX.carryNX
  match condition with
  | 0b000 => true
  | 0b110 => true
  | 0b001 => cmpZero
  | 0b111 => !cmpZero
  | 0b010 => !cmpZero && cmpNegative == cmpOverflow
  | 0b101 => cmpCarryN && !cmpZero
  | 0b011 => cmpNegative == cmpOverflow
  | 0b100 => cmpCarryN

/-- The code of a comparison. -/
def Cond.code (c : Cond) : BitVec 3 :=
  match c with
  | .e => 0b001
  | .ne => 0b111
  | .g => 0b010
  | .ge => 0b011
  | .gu => 0b101
  | .geu => 0b100

/-- The flags of a subtraction decide every comparison. -/
theorem conditionMet_eq (c : Cond) (a b : Word) :
    conditionMet c.code a b (adder true false a b) = c.holds a b := by
  cases c with
  | e => rfl
  | ne => rfl
  | g =>
      change (!(a == b) && _ == _) = b.slt a
      rw [adder_signs, BitVec.slt_eq_sle_and_ne, Bool.and_comm, BEq.comm]
      rfl
  | ge => exact adder_signs
  | gu =>
      change (_ && !(a == b)) = b.ult a
      rw [adder_carry, BitVec.ule_eq_decide, BitVec.ult_eq_decide]
      by_cases heq : a = b
      · simp [heq]
      · have hne : a.toNat ≠ b.toNat := fun h => heq (BitVec.eq_of_toNat_eq h)
        rw [beq_eq_false_iff_ne.2 heq, Bool.not_false, Bool.and_true]
        apply decide_eq_decide.2
        omega
  | geu => exact adder_carry

end Conditions

section Logic

/-- `lm32_logic_op`: each bit of the result is looked up in the opcode. -/
def logicOp (logicOpX : BitVec 4) (operand0X operand1X : Word) : Word :=
  (BitVec.iunfoldr (fun i : Fin 32 => fun _ =>
    ((), logicOpX.getLsbD (2 * (operand1X.getLsbD i).toNat + (operand0X.getLsbD i).toNat))) ()).2

/-- A bit of the result. -/
theorem getLsbD_logicOp (code : BitVec 4) (a b : Word) {i : Nat} (hi : i < 32) :
    (logicOp code a b).getLsbD i =
      code.getLsbD (2 * (b.getLsbD i).toNat + (a.getLsbD i).toNat) :=
  BitVec.iunfoldr_getLsbD (fun _ => ()) ⟨i, hi⟩ fun _ => rfl

/-- An operation that acts on each bit as the code says. -/
theorem logicOp_eq {code : BitVec 4} {f : Bool → Bool → Bool} {a b v : Word}
    (hcode : ∀ x y : Bool, code.getLsbD (2 * y.toNat + x.toNat) = f x y)
    (hv : ∀ i < 32, v.getLsbD i = f (a.getLsbD i) (b.getLsbD i)) : logicOp code a b = v := by
  apply BitVec.eq_of_getLsbD_eq
  intro i hi
  rw [getLsbD_logicOp code a b hi, hcode, hv i hi]

/-- The logical operations. -/
theorem logicOp_eval (a b : Word) :
    logicOp 0b1000 a b = a &&& b ∧ logicOp 0b1110 a b = a ||| b ∧ logicOp 0b0110 a b = a ^^^ b ∧
      logicOp 0b0001 a b = ~~~(a ||| b) ∧ logicOp 0b1001 a b = ~~~(a ^^^ b) := by
  refine ⟨?_, ?_, ?_, ?_, ?_⟩
  · exact logicOp_eq (f := fun x y => x && y) (by decide) fun i _ => BitVec.getLsbD_and
  · exact logicOp_eq (f := fun x y => x || y) (by decide) fun i _ => BitVec.getLsbD_or
  · exact logicOp_eq (f := fun x y => x ^^ y) (by decide) fun i _ => BitVec.getLsbD_xor
  · exact logicOp_eq (f := fun x y => !(x || y)) (by decide) fun i hi => by simp [hi]
  · exact logicOp_eq (f := fun x y => !(x ^^ y)) (by decide) fun i hi => by simp [hi]

/-- `sext_result_x`. -/
def sextResult (sizeX : BitVec 2) (operand0X : Word) : Word :=
  if sizeX == 0b00 then (operand0X.extractLsb' 0 8).signExtend 32
  else (operand0X.extractLsb' 0 16).signExtend 32

end Logic

section Shift

/-- The registers of `lm32_shifter`. -/
structure Shifter where
  rightShiftResult : Word
  directionM : Bool

namespace Shifter

/-- `rst_i`. -/
def reset : Shifter := ⟨0, false⟩

/-- The right shift of `{right_shift_in, right_shift_operand}`. -/
def rightShift (directionX signExtendX : Bool) (operand0X operand1X : Word) : Word :=
  let rightShiftOperand := if directionX then operand0X.reverse else operand0X
  let fillValue := if signExtendX && !directionX then operand0X.getLsbD 31 else false
  let rightShiftIn := if fillValue then BitVec.allOnes 32 else 0
  ((rightShiftIn ++ rightShiftOperand) >>> operand1X.extractLsb' 0 5).extractLsb' 0 32

/-- A clock cycle. -/
def next (s : Shifter) (stallX directionX signExtendX : Bool) (operand0X operand1X : Word) :
    Shifter :=
  if stallX = false then
    { rightShiftResult := rightShift directionX signExtendX operand0X operand1X
      directionM := directionX }
  else s

/-- `shifter_result_m`. -/
def resultM (s : Shifter) : Word :=
  if s.directionM then s.rightShiftResult.reverse else s.rightShiftResult

/-- A bit of the right shift. -/
theorem getLsbD_rightShift (direction signExtend : Bool) (a b : Word) {i : Nat} (hi : i < 32) :
    (rightShift direction signExtend a b).getLsbD i =
      if i + (b.extractLsb' 0 5).toNat < 32 then
        (if direction then a.reverse else a).getLsbD (i + (b.extractLsb' 0 5).toNat)
      else signExtend && !direction && a.getLsbD 31 := by
  have hdist := (b.extractLsb' 0 5).isLt
  rw [rightShift, BitVec.getLsbD_extractLsb', BitVec.ushiftRight_eq', BitVec.getLsbD_ushiftRight,
    BitVec.getLsbD_append, decide_eq_true hi, Bool.true_and, Nat.zero_add]
  by_cases hlow : i + (b.extractLsb' 0 5).toNat < 32
  · rw [if_pos hlow, if_pos (by omega), Nat.add_comm]
  · rw [if_neg hlow, if_neg (by omega)]
    have hones : (BitVec.allOnes 32).getLsbD ((b.extractLsb' 0 5).toNat + i - 32) = true := by
      rw [BitVec.getLsbD_allOnes]
      exact decide_eq_true (by omega)
    cases signExtend <;> cases direction <;> cases a.getLsbD 31 <;>
      first
        | exact hones
        | exact BitVec.getLsbD_zero

variable (s : Shifter) (a b : Word)

/-- The result when the shift was to the left. -/
theorem next_left (signExtend : Bool) :
    (s.next false true signExtend a b).resultM = Alu.sl.eval a b := by
  have hdist := (b.extractLsb' 0 5).isLt
  apply BitVec.eq_of_getLsbD_eq
  intro i hi
  change (rightShift true signExtend a b).reverse.getLsbD i = (a <<< b.extractLsb' 0 5).getLsbD i
  rw [BitVec.getLsbD_reverse, BitVec.getMsbD_eq_getLsbD, decide_eq_true hi, Bool.true_and,
    getLsbD_rightShift true signExtend a b (by omega), BitVec.shiftLeft_eq',
    BitVec.getLsbD_shiftLeft, decide_eq_true hi, Bool.true_and, if_pos rfl]
  by_cases hlow : i < (b.extractLsb' 0 5).toNat
  · rw [if_neg (by omega), decide_eq_true hlow]
    simp
  · rw [if_pos (by omega), decide_eq_false hlow, BitVec.getLsbD_reverse, BitVec.getMsbD_eq_getLsbD,
      decide_eq_true (by omega), Bool.true_and, Bool.not_false, Bool.true_and]
    congr 1
    omega

/-- The result when the shift was to the right. -/
theorem next_right (signExtend : Bool) :
    (s.next false false signExtend a b).resultM =
      if signExtend then Alu.sr.eval a b else Alu.sru.eval a b := by
  have hdist := (b.extractLsb' 0 5).isLt
  apply BitVec.eq_of_getLsbD_eq
  intro i hi
  change (rightShift false signExtend a b).getLsbD i = _
  rw [getLsbD_rightShift false signExtend a b hi, Nat.add_comm]
  cases signExtend with
  | false =>
      change _ = (a >>> b.extractLsb' 0 5).getLsbD i
      rw [BitVec.ushiftRight_eq', BitVec.getLsbD_ushiftRight]
      split <;> rename_i hlow
      · rfl
      · exact (BitVec.getLsbD_of_ge a _ (by omega)).symm
  | true =>
      change _ = (a.sshiftRight' (b.extractLsb' 0 5)).getLsbD i
      rw [BitVec.sshiftRight', BitVec.getLsbD_sshiftRight, BitVec.msb_eq_getLsbD_last]
      simp [hi]

end Shifter

end Shift

section Multiply

/-- The registers of `lm32_multiplier`. -/
structure Multiplier where
  muliplicand : Word
  multiplier : Word
  product : Word
  result : Word

namespace Multiplier

/-- `rst_i`. -/
def reset : Multiplier := ⟨0, 0, 0, 0⟩

/-- A clock cycle. -/
def next (s : Multiplier) (stallX stallM : Bool) (operand0 operand1 : Word) : Multiplier where
  muliplicand := if stallX = false then operand0 else s.muliplicand
  multiplier := if stallX = false then operand1 else s.multiplier
  product := if stallM = false then s.muliplicand * s.multiplier else s.product
  result := s.product

end Multiplier

end Multiply

end Soc.Lm32
