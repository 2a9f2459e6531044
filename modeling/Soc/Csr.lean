import Mathlib.Tactic.Basic

/-!
# Words and the CSR bus

Bytes and words of the LM32 system, and one cycle of the CSR bus that `csrbrg` drives
into every peripheral: the register address `csr_a`, the write strobe `csr_we` and the
write data. A peripheral is selected by `csr_a[13:10]`.
-/

namespace Soc

/-- A byte on the wire or in memory. -/
abbrev Byte := BitVec 8

/-- A 32-bit word of the CPU and of the CSR bus. -/
abbrev Word := BitVec 32

/-- A word is made of its bytes. -/
theorem word_of_bytes (value : Word) :
    value.extractLsb' 24 8 ++ value.extractLsb' 16 8 ++ value.extractLsb' 8 8 ++
      value.extractLsb' 0 8 = value := by
  rw [BitVec.extractLsb'_append_extractLsb'_eq_extractLsb' (by rfl),
    BitVec.extractLsb'_append_extractLsb'_eq_extractLsb' (by rfl),
    BitVec.extractLsb'_append_extractLsb'_eq_extractLsb' (by rfl)]
  exact BitVec.extractLsb'_eq_self

/-- A bit of a word. -/
def bit (w : Word) (i : Nat) : Bool := w.getLsbD i

/-- The bits of 0. -/
@[simp] theorem bit_zero (i : Nat) : bit 0#32 i = false :=
  BitVec.getLsbD_zero

/-- C's truth test of `w & mask`. -/
def test (w mask : Word) : Bool := w &&& mask != 0

/-- No bit of 0 is set. -/
@[simp] theorem test_zero (mask : Word) : test 0#32 mask = false := by
  simp [test]

/-- A one-bit mask tests that bit. -/
theorem test_twoPow (w : Word) (i : Nat) (h : i < 32) : test w (.twoPow 32 i) = bit w i := by
  rw [test, BitVec.and_twoPow, bit]
  have hne : BitVec.twoPow 32 i ≠ 0#32 := by
    intro hz
    have hbit := congrArg (fun v => v.getLsbD i) hz
    simp [h] at hbit
  cases w.getLsbD i <;> simp [hne]

/-- Setting a bit, as a test of any bit sees it. -/
theorem test_set (w : Word) {i j : Nat} (hj : j < 32) :
    test (w ||| .twoPow 32 i) (.twoPow 32 j) = (test w (.twoPow 32 j) || decide (j = i)) := by
  rw [test_twoPow _ _ hj, test_twoPow _ _ hj]
  simp [bit, hj, eq_comm]

/-- Clearing a bit, as a test of any bit sees it. -/
theorem test_clear (w : Word) {i j : Nat} (hj : j < 32) :
    test (w &&& ~~~.twoPow 32 i) (.twoPow 32 j) = (test w (.twoPow 32 j) && !decide (j = i)) := by
  rw [test_twoPow _ _ hj, test_twoPow _ _ hj]
  simp [bit, hj, eq_comm]

/-- What the CSR bus carries in one cycle, as a peripheral sees it. -/
structure CsrBus where
  a : BitVec 14
  we : Bool
  di : Word
  deriving DecidableEq

namespace CsrBus

/-- The comparison `csr_a[13:10] == csr_addr`. -/
def selects (bus : CsrBus) (csrAddr : BitVec 4) : Bool :=
  bus.a.extractLsb' 10 4 == csrAddr

/-- The register index `csr_a[2:0]` of the small peripherals. -/
def reg (bus : CsrBus) : BitVec 3 :=
  bus.a.extractLsb' 0 3

/-- A write strobe for register `r` of the peripheral at `csrAddr`. -/
def writes (bus : CsrBus) (csrAddr : BitVec 4) (r : BitVec 3) : Bool :=
  bus.selects csrAddr && bus.we && bus.reg == r

/-- A peripheral that is not written sees no strobe. -/
theorem writes_of_not_written {bus : CsrBus} {csrAddr : BitVec 4}
    (h : (bus.selects csrAddr && bus.we) = false) (r : BitVec 3) :
    bus.writes csrAddr r = false := by
  rw [writes, h, Bool.false_and]

/-- The cycle in which a CPU load presents the address `a`. -/
def load (a : BitVec 14) : CsrBus := ⟨a, false, 0⟩

/-- The cycle in which a CPU store of `value` to the address `a` strobes `csr_we`. -/
def store (a : BitVec 14) (value : Word) : CsrBus := ⟨a, true, value⟩

/-- A load strobes no register. -/
@[simp] theorem writes_load (a : BitVec 14) (csrAddr : BitVec 4) (r : BitVec 3) :
    (load a).writes csrAddr r = false := by
  simp [writes, load]

/-- A store strobes exactly the register it addresses. -/
@[simp] theorem writes_store (a : BitVec 14) (value : Word) (csrAddr : BitVec 4)
    (r : BitVec 3) :
    (store a value).writes csrAddr r =
      (a.extractLsb' 10 4 == csrAddr && a.extractLsb' 0 3 == r) := by
  simp [writes, store, selects, reg]

end CsrBus

end Soc
