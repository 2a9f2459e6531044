import Soc.Uart.Routine

/-!
# Character input and output of the stub

`get_debug_char` and `put_debug_char` of `gdbstub.c`, statement by statement.
-/

namespace Soc.Gdbstub

open Uart

/-- The statements of `get_debug_char`. -/
inductive GetPc where
  | poll
  | clear
  | fetch
  deriving DecidableEq

/-- `get_debug_char`: wait for RX_EVT, clear it, and read the received byte. -/
def getDebugChar : Routine Unit GetPc Byte where
  access _
    | .poll => some (.load STAT)
    | .clear => some (.store STAT STAT_RX_EVT)
    | .fetch => some (.load RXTX)
  next _
    | .poll, data => ((), .inl (if test data STAT_RX_EVT then .clear else .poll))
    | .clear, _ => ((), .inl .fetch)
    | .fetch, data => ((), .inr (data.setWidth 8))

/-- The statements of `put_debug_char`. -/
inductive PutPc where
  | send
  | wait
  deriving DecidableEq

/-- `put_debug_char`: write the byte and loop on THRE. -/
def putDebugChar (c : Byte) : Routine Unit PutPc Unit where
  access _
    | .send => some (.store RXTX (c.signExtend 32))
    | .wait => some (.load STAT)
  next _
    | .send, _ => ((), .inl .wait)
    | .wait, data => ((), if test data STAT_THRE then .inr () else .inl .wait)

end Soc.Gdbstub
