import Soc.Uart.Port

/-!
# Software routines over the UART registers

A C function that talks to the UART is a sequence of statements, each of which accesses
at most one CSR. `Routine` gives the access of each statement and what the statement does
with the loaded word. How many cycles pass between two statements is left to the machine
that runs the routine.
-/

namespace Soc.Uart

/-- A routine with static data `σ`, statements `π` and results `α`. `access` is the bus cycle
of a statement, if it has one, and `next` the data and the statement after it. -/
structure Routine (σ π α : Type) where
  access : σ → π → Option CsrBus
  next : σ → π → Word → σ × (π ⊕ α)

/-- A byte survives C's conversion from `char` to a register word and back. -/
@[simp] theorem setWidth_signExtend (c : Byte) : (c.signExtend 32).setWidth 8 = c := by
  ext i hi
  rw [BitVec.getElem_setWidth, BitVec.getLsbD_signExtend]
  simp only [hi, if_true, BitVec.getLsbD_eq_getElem]
  simp
  omega

/-- A load of STAT samples the status of the cycle. -/
@[simp] theorem csrDo_load_stat (s : Port) (j : Jtag) :
    (s.cycle (.load STAT) j).uart.csrDo = s.uart.stat := rfl

/-- A load of RXTX samples the received byte of the cycle. -/
@[simp] theorem csrDo_load_rxtx (s : Port) (j : Jtag) :
    (s.cycle (.load RXTX) j).uart.csrDo = s.uart.rxReg.setWidth 32 := rfl

end Soc.Uart
