import Soc.Gdbstub.State

/-!
# Breakpoints and watchpoints of the stub

`set_hw_breakpoint`, `set_hw_watchpoint`, `disable_hw_breakpoint`, `disable_hw_watchpoint`
and `remove_all_break` of `gdbstub.c`. Bits 0 to 3 of `bpwp_enabled` mark the breakpoint
registers in use, bits 4 to 7 the watchpoint registers. Each function returns its result
and the state it leaves.
-/

namespace Soc.Gdbstub

open Lm32 (CSR_BP CSR_DC CSR_WP)

/-- The bit of `bpwp_enabled` for breakpoint register `i`. -/
def bpBit (i : Nat) : Word := .twoPow 32 i

/-- The bit of `bpwp_enabled` for watchpoint register `i`. -/
def wpBit (i : Nat) : Word := .twoPow 32 (i + 4)

namespace Stub

/-- The body of each `if` of `set_hw_breakpoint`. -/
def useBreakpoint (s : Stub) (i : Nat) (address : Word) : Stub :=
  let s := s.wcsr (CSR_BP i) (address ||| 1)
  { s with
    bpwpEnabled := s.bpwpEnabled ||| bpBit i
    bpAddress := Function.update s.bpAddress i address }

/-- `set_hw_breakpoint`: the first free breakpoint register is used. -/
def setHwBreakpoint (s : Stub) (address : Word) : Bool × Stub :=
  let numBps := s.cfg >>> 18 &&& 0xf
  if numBps > 0 ∧ test s.bpwpEnabled (bpBit 0) = false then (true, s.useBreakpoint 0 address)
  else if numBps > 1 ∧ test s.bpwpEnabled (bpBit 1) = false then
    (true, s.useBreakpoint 1 address)
  else if numBps > 2 ∧ test s.bpwpEnabled (bpBit 2) = false then
    (true, s.useBreakpoint 2 address)
  else if numBps > 3 ∧ test s.bpwpEnabled (bpBit 3) = false then
    (true, s.useBreakpoint 3 address)
  else (false, s)

/-- The body of each `if` of `disable_hw_breakpoint`. -/
def freeBreakpoint (s : Stub) (i : Nat) : Stub :=
  let s := s.wcsr (CSR_BP i) 0
  { s with bpwpEnabled := s.bpwpEnabled &&& ~~~bpBit i }

/-- The condition of each `if` of `disable_hw_breakpoint`. -/
def breaksAt (s : Stub) (i : Nat) (address : Word) : Bool :=
  test s.bpwpEnabled (bpBit i) && s.bpAddress i == address

/-- `disable_hw_breakpoint`. -/
def disableHwBreakpoint (s : Stub) (address : Word) : Bool × Stub :=
  if s.breaksAt 0 address then (true, s.freeBreakpoint 0)
  else if s.breaksAt 1 address then (true, s.freeBreakpoint 1)
  else if s.breaksAt 2 address then (true, s.freeBreakpoint 2)
  else if s.breaksAt 3 address then (true, s.freeBreakpoint 3)
  else (false, s)

end Stub

/-- The variables `i`, `bit`, `dc_mode` and `dc_mask` of the two watchpoint loops. -/
structure WpLoop where
  i : Nat
  bit : Word
  dcMode : Word
  dcMask : Word

namespace WpLoop

/-- The variables before the first iteration. -/
def start (mode : Byte) : WpLoop :=
  ⟨0, 0x10, mode.signExtend 32, 0x0c⟩

/-- The variables after one iteration. -/
def next (l : WpLoop) : WpLoop :=
  ⟨l.i + 1, l.bit <<< 1, l.dcMode <<< 2, l.dcMask <<< 2⟩

/-- The iteration in which the loop breaks, if it breaks in one of the next `count`. -/
def find (p : WpLoop → Bool) : Nat → WpLoop → Option WpLoop
  | 0, _ => none
  | count + 1, l => if p l then some l else find p count l.next

end WpLoop

namespace Stub

/-- `set_hw_watchpoint` after its loop. Whichever register is free, the address goes to WP0. -/
def takeWatchpoint (s : Stub) (l : WpLoop) (address : Word) : Stub :=
  let s :=
    { s with
      bpwpEnabled := s.bpwpEnabled ||| l.bit
      wpAddress := Function.update s.wpAddress l.i address
      dc := s.dc &&& ~~~l.dcMask ||| l.dcMode }
  let s := s.wcsr (CSR_WP 0) address
  s.wcsr CSR_DC s.dc

/-- `set_hw_watchpoint`: the first free watchpoint register is taken. -/
def setHwWatchpoint (s : Stub) (address : Word) (mode : Byte) : Bool × Stub :=
  let numWps := s.cfg >>> 22 &&& 0xf
  match WpLoop.find (fun l => !test s.bpwpEnabled l.bit) numWps.toNat (.start mode) with
  | some l => (true, s.takeWatchpoint l address)
  | none => (false, s)

/-- The condition in the loop of `disable_hw_watchpoint`. -/
def watches (s : Stub) (address : Word) (l : WpLoop) : Bool :=
  test s.bpwpEnabled l.bit && s.wpAddress l.i == address && s.dc &&& l.dcMask == l.dcMode

/-- The body of the `if` of `disable_hw_watchpoint`. -/
def dropWatchpoint (s : Stub) (l : WpLoop) : Stub :=
  let s :=
    { s with
      bpwpEnabled := s.bpwpEnabled &&& ~~~l.bit
      dc := s.dc &&& ~~~l.dcMask }
  s.wcsr CSR_DC s.dc

/-- `disable_hw_watchpoint`. -/
def disableHwWatchpoint (s : Stub) (address : Word) (mode : Byte) : Bool × Stub :=
  match WpLoop.find (s.watches address) 4 (.start mode) with
  | some l => (true, s.dropWatchpoint l)
  | none => (false, s)

/-- `remove_all_break`. -/
def removeAllBreak (s : Stub) : Stub :=
  ((((s.wcsr CSR_DC 0).wcsr (CSR_BP 0) 0).wcsr (CSR_BP 1) 0).wcsr (CSR_BP 2) 0).wcsr (CSR_BP 3) 0

end Stub

end Soc.Gdbstub
