import Soc.Csr

/-!
# The debug CSRs of the LM32

The breakpoint, watchpoint and debug control registers of `lm32_debug.v`, with the four
breakpoints and four watchpoints `lm32_include.v` asks for. The registers are write only:
what the `wcsr` instruction wrote can only be seen from what the comparators do.
-/

namespace Soc.Lm32

/-- `CFG_BREAKPOINTS`. -/
abbrev CFG_BREAKPOINTS : Nat := 4

/-- `CFG_WATCHPOINTS`. -/
abbrev CFG_WATCHPOINTS : Nat := 4

/-- `LM32_CSR_DC`. -/
def CSR_DC : BitVec 5 := 0x8

/-- `LM32_CSR_BP0` to `LM32_CSR_BP3`. -/
def CSR_BP (i : Nat) : BitVec 5 := 0x10 + .ofNat 5 i

/-- `LM32_CSR_WP0` to `LM32_CSR_WP3`. -/
def CSR_WP (i : Nat) : BitVec 5 := 0x18 + .ofNat 5 i

/-- The registers of `lm32_debug.v`: breakpoint addresses and enables, watchpoint addresses and
control fields, and the exception remap bit. -/
structure Debug where
  bpA : Fin CFG_BREAKPOINTS → BitVec 30
  bpE : Fin CFG_BREAKPOINTS → Bool
  wp : Fin CFG_WATCHPOINTS → Word
  wpcC : Fin CFG_WATCHPOINTS → BitVec 2
  dcRe : Bool

namespace Debug

/-- The slice `data[3+i*2:2+i*2]` of a word for DC. -/
def dcField (data : Word) (i : Nat) : BitVec 2 :=
  data.extractLsb' (2 + i * 2) 2

/-- The registers after `csr` was written with `data`. -/
def write (d : Debug) (csr : BitVec 5) (data : Word) : Debug where
  bpA i := if csr = CSR_BP i then data.extractLsb' 2 30 else d.bpA i
  bpE i := if csr = CSR_BP i then bit data 0 else d.bpE i
  wp i := if csr = CSR_WP i then data else d.wp i
  wpcC i := if csr = CSR_DC then dcField data i else d.wpcC i
  dcRe := if csr = CSR_DC then bit data 1 else d.dcRe

variable {d : Debug} {data : Word}

/-- Watchpoint registers are told apart by their index. -/
theorem csr_wp_inj : ∀ i j : Fin CFG_WATCHPOINTS, CSR_WP i = CSR_WP j ↔ i = j := by
  decide

/-- DC is no watchpoint register. -/
theorem csr_dc_ne_wp : ∀ i : Fin CFG_WATCHPOINTS, CSR_DC ≠ CSR_WP i := by
  decide

/-- A write to a watchpoint register sets that one only. -/
@[simp] theorem write_wp_wp (i j : Fin CFG_WATCHPOINTS) :
    (d.write (CSR_WP j) data).wp i = if i = j then data else d.wp i := by
  simp only [write, csr_wp_inj, eq_comm]

/-- A write to DC leaves the watchpoint addresses alone. -/
@[simp] theorem write_dc_wp (i : Fin CFG_WATCHPOINTS) :
    (d.write CSR_DC data).wp i = d.wp i := by
  simp only [write, csr_dc_ne_wp i, if_false]

/-- A write to DC sets every control field. -/
@[simp] theorem write_dc_wpcC (i : Fin CFG_WATCHPOINTS) :
    (d.write CSR_DC data).wpcC i = dcField data i := by
  simp only [write, if_true]

end Debug

end Soc.Lm32
