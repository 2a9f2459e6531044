import Soc.Csr

/-!
# The system controller

The registers of `sysctl.v` with its two timers, and one edge of `sys_clk`. As in the UART the
last nonblocking assignment to a register wins, so a store to a timer's register beats what the
timer does in the same cycle.
-/

namespace Soc

/-- The registers of one of the timers. -/
structure Timer where
  irq : Bool
  en : Bool
  ar : Bool
  counter : Word
  compare : Word
  deriving DecidableEq

namespace Timer

/-- The state the synchronous reset leads to. -/
def reset : Timer := ⟨false, false, false, 0, 0xffffffff⟩

/-- `match0` or `match1`. -/
def matched (t : Timer) : Bool := t.counter == t.compare

/-- What a load of the control register samples, `{ar, en}`. -/
def control (t : Timer) : Word :=
  (BitVec.ofBool t.ar ++ BitVec.ofBool t.en).setWidth 32

/-- One edge of `sys_clk`, with the write strobes of the three registers. -/
def clock (t : Timer) (writesControl writesCompare writesCounter : Bool) (di : Word) : Timer where
  irq := t.en && t.matched
  en := if writesControl then bit di 0 else if !t.ar && t.matched then false else t.en
  ar := if writesControl then bit di 1 else t.ar
  counter :=
    if writesCounter then di
    else if t.ar && t.matched then 1
    else if t.en && !t.matched then t.counter + 1
    else t.counter
  compare := if writesCompare then di else t.compare

/-- An edge without a store to the timer. -/
def tick (t : Timer) : Timer := t.clock false false false 0

/-- Only a store looks at the data. -/
@[simp] theorem clock_of_no_store (t : Timer) (di : Word) :
    t.clock false false false di = t.tick := rfl

end Timer

/-- The registers of `sysctl.v` with `noutputs` outputs. -/
structure Sysctl (noutputs : Nat) where
  gpioOutputs : BitVec noutputs
  timer0 : Timer
  timer1 : Timer
  debugScratchpad : Byte
  csrDo : Word
  deriving DecidableEq

namespace Sysctl

variable {noutputs : Nat}

/-- The state the synchronous reset leads to. -/
def reset : Sysctl noutputs := ⟨0, .reset, .reset, 0, 0⟩

/-- The register index `csr_a[4:0]`. -/
def reg (bus : CsrBus) : BitVec 5 := bus.a.extractLsb' 0 5

/-- A write strobe for register `r`. -/
def writes (bus : CsrBus) (csrAddr : BitVec 4) (r : BitVec 5) : Bool :=
  bus.selects csrAddr && bus.we && reg bus == r

/-- The value a load of register `r` samples into `csr_do`. -/
def readCsr (s : Sysctl noutputs) (r : BitVec 5) : Word :=
  match r.toNat with
  | 0b00001 => s.gpioOutputs.setWidth 32
  | 0b00100 => s.timer0.control
  | 0b00101 => s.timer0.compare
  | 0b00110 => s.timer0.counter
  | 0b01000 => s.timer1.control
  | 0b01001 => s.timer1.compare
  | 0b01010 => s.timer1.counter
  | 0b10100 => s.debugScratchpad.setWidth 32
  | 0b11101 => 50000000
  | _ => 0

/-- One edge of `sys_clk` without reset. -/
def clock (csrAddr : BitVec 4) (s : Sysctl noutputs) (bus : CsrBus) : Sysctl noutputs where
  gpioOutputs :=
    if writes bus csrAddr 0b00001 then bus.di.setWidth noutputs else s.gpioOutputs
  timer0 := s.timer0.clock (writes bus csrAddr 0b00100) (writes bus csrAddr 0b00101)
    (writes bus csrAddr 0b00110) bus.di
  timer1 := s.timer1.clock (writes bus csrAddr 0b01000) (writes bus csrAddr 0b01001)
    (writes bus csrAddr 0b01010) bus.di
  debugScratchpad :=
    if writes bus csrAddr 0b10100 then bus.di.setWidth 8 else s.debugScratchpad
  csrDo := if bus.selects csrAddr then s.readCsr (reg bus) else 0

/-- An edge without a store to the controller and with the given output: only the timers run. -/
def tick (s : Sysctl noutputs) (csrDo : Word) : Sysctl noutputs :=
  { s with timer0 := s.timer0.tick, timer1 := s.timer1.tick, csrDo := csrDo }

/-- Without a store to the controller an edge only ticks, and samples the addressed register. -/
theorem clock_of_not_written {csrAddr : BitVec 4} {bus : CsrBus}
    (h : (bus.selects csrAddr && bus.we) = false) (s : Sysctl noutputs) :
    s.clock csrAddr bus = s.tick (if bus.selects csrAddr then s.readCsr (reg bus) else 0) := by
  have hwrites : ∀ r, writes bus csrAddr r = false := by
    intro r
    rw [writes, h, Bool.false_and]
  unfold clock tick
  simp only [hwrites, Timer.clock_of_no_store, Bool.false_eq_true, if_false]

end Sysctl

end Soc
