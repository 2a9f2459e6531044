import Soc.Gdbstub.Break

/-!
# The commands of the stub

The `cmd_` functions of `gdbstub.c` on the packet in `remcom_in_buffer`, and the `switch` of
`handle_exception` that chooses between them. Commands leave their reply in
`remcom_out_buffer`.
-/

namespace Soc.Gdbstub

/-- `signals`. -/
def signals : List Byte := [0, 5, 11, 5, 11, 8, 2, 1]

/-- The arguments `addr,length` of a memory command, and the position after them. -/
def memArgs (buf : Nat → Byte) : Option (Word × Word × Nat) := do
  let (addr, ptr) ← hexArg buf 1
  let ptr ← charArg buf ptr ','
  let (length, ptr) ← hexArg buf ptr
  pure (addr, length, ptr)

/-- The arguments `,addr,kind` of `cmd_break`. The kind is read and ignored. -/
def breakArgs (buf : Nat → Byte) : Option Word := do
  let ptr ← charArg buf 2 ','
  let (addr, ptr) ← hexArg buf ptr
  let ptr ← charArg buf ptr ','
  let _ ← hexArg buf ptr
  pure addr

/-- The `switch` of `cmd_break`: the `mode` of each kind of watchpoint. -/
def watchMode (kind : Byte) : Option Byte :=
  if kind = ascii '2' then some ((2 : Byte) <<< 2)
  else if kind = ascii '3' then some ((1 : Byte) <<< 2)
  else if kind = ascii '4' then some ((3 : Byte) <<< 2)
  else none

namespace Stub

/-- `cmd_status`. -/
def cmdStatus (s : Stub) : Stub :=
  let eid := readWord s.mem (s.regAddr (.ofNat 32 LM32_REG_EID))
  let sigval := signals.getD (eid &&& 7).toNat 0
  let put (buf : (Nat → Byte) × Nat) (c : Byte) := (Function.update buf.1 buf.2 c, buf.2 + 1)
  let putReg (buf : (Nat → Byte) × Nat) (reg : Nat) :=
    let buf := put (put (put buf (highhex (.ofNat 8 reg))) (lowhex (.ofNat 8 reg))) (ascii ':')
    put (mem2hex s.mem (s.regAddr (.ofNat 32 reg)) buf.1 buf.2 4) (ascii ';')
  let buf := put (put (put (s.remcomOutBuffer, 0) (ascii 'T')) (highhex sigval)) (lowhex sigval)
  { s with remcomOutBuffer := (put (putReg (putReg buf LM32_REG_PC) LM32_REG_SP) 0).1 }

/-- `cmd_getregs`. -/
def cmdGetregs (s : Stub) : Stub :=
  { s with remcomOutBuffer := (mem2hex s.mem s.registers s.remcomOutBuffer 0 (NUM_REGS * 4)).1 }

/-- `cmd_setregs`. -/
def cmdSetregs (s : Stub) : Stub :=
  { s with mem := hex2mem s.remcomInBuffer 1 s.mem s.registers (NUM_REGS * 4) }.reply "OK"

/-- `cmd_mem_read`. `mem2hex` never returns NULL. -/
def cmdMemRead (s : Stub) : Stub :=
  match memArgs s.remcomInBuffer with
  | some (addr, length, _) =>
      if length.toNat ≤ (BUFMAX + 1) / 2 then
        { s with remcomOutBuffer := (mem2hex s.mem addr s.remcomOutBuffer 0 length.toNat).1 }
      else s.reply "E22"
  | none => s.reply "E22"

/-- `cmd_mem_write`. The loops count in `int`, so a length with the sign bit set writes nothing. -/
def cmdMemWrite (s : Stub) (binary : Bool) : Stub :=
  match (do
    let (addr, length, ptr) ← memArgs s.remcomInBuffer
    let ptr ← charArg s.remcomInBuffer ptr ':'
    pure (addr, length, ptr)) with
  | some (addr, length, ptr) =>
      let copy := if binary then bin2mem else hex2mem
      { s with mem := copy s.remcomInBuffer ptr s.mem addr length.toInt.toNat }.reply "OK"
  | none => s.reply "E22"

/-- `cmd_detachkill`, without the reply that `D` sends itself. -/
def cmdDetachkill (s : Stub) : Stub :=
  let s := { s.removeAllBreak with gdbConnected := false }
  if s.remcomInBuffer 0 = ascii 'D' then s.reply "OK" else s

/-- `cmd_continuestep`. -/
def cmdContinuestep (s : Stub) : Stub :=
  let s :=
    match hexArg s.remcomInBuffer 1 with
    | some (addr, _) =>
        { s with mem := writeWord s.mem (s.regAddr (.ofNat 32 LM32_REG_PC)) addr }
    | none => s
  if s.remcomInBuffer 0 = ascii 's' then s.wcsr Lm32.CSR_DC (s.dc ||| 1) else s

/-- `cmd_break`. -/
def cmdBreak (s : Stub) : Stub :=
  let finish (result : Bool × Stub) := result.2.reply (if result.1 then "OK" else "E28")
  let insert := s.remcomInBuffer 0 = ascii 'Z'
  match breakArgs s.remcomInBuffer with
  | none => s.reply "E22"
  | some addr =>
      if s.remcomInBuffer 1 = ascii '1' then
        finish (if insert then s.setHwBreakpoint addr else s.disableHwBreakpoint addr)
      else
        match watchMode (s.remcomInBuffer 1) with
        | some mode =>
            finish (if insert then s.setHwWatchpoint addr mode else s.disableHwWatchpoint addr mode)
        | none => s

/-- `cmd_reg_get`. -/
def cmdRegGet (s : Stub) : Stub :=
  match hexArg s.remcomInBuffer 1 with
  | some (reg, _) =>
      { s with remcomOutBuffer := (mem2hex s.mem (s.regAddr reg) s.remcomOutBuffer 0 4).1 }
  | none => s.reply "E22"

/-- `cmd_reg_set`. -/
def cmdRegSet (s : Stub) : Stub :=
  match (do
    let (reg, ptr) ← hexArg s.remcomInBuffer 1
    let ptr ← charArg s.remcomInBuffer ptr '='
    pure (reg, ptr)) with
  | some (reg, ptr) =>
      { s with mem := hex2mem s.remcomInBuffer ptr s.mem (s.regAddr reg) 4 }.reply "OK"
  | none => s.reply "E22"

/-- `cmd_query`. `PacketSize` is `STRINGY(BUFMAX_HEX)`. -/
def cmdQuery (s : Stub) : Stub :=
  if (List.range 9).map (fun i => s.remcomInBuffer (i + 1)) = text "Supported" then
    s.reply "PacketSize=320"
  else s

end Stub

/-- What `handle_exception` does after a command: reply and wait for the next packet, or return to
the application, with a reply first if the command sends one itself. -/
inductive After where
  | reply
  | resume (reply : Bool)
  deriving DecidableEq

/-- The `switch` of `handle_exception` on the packet in `remcom_in_buffer`. `cmd_reset` restarts the
board when it resets at all; the CSR it writes is not part of the state. -/
def Stub.execute (s : Stub) : Stub × After :=
  let c := s.remcomInBuffer 0
  if c = ascii '?' then (s.cmdStatus, .reply)
  else if c = ascii 'g' then (s.cmdGetregs, .reply)
  else if c = ascii 'G' then (s.cmdSetregs, .reply)
  else if c = ascii 'm' then (s.cmdMemRead, .reply)
  else if c = ascii 'M' then (s.cmdMemWrite false, .reply)
  else if c = ascii 'X' then (s.cmdMemWrite true, .reply)
  else if c = ascii 'p' then (s.cmdRegGet, .reply)
  else if c = ascii 'P' then (s.cmdRegSet, .reply)
  else if c = ascii 'D' ∨ c = ascii 'k' then (s.cmdDetachkill, .resume (c = ascii 'D'))
  else if c = ascii 'c' ∨ c = ascii 's' then (s.cmdContinuestep, .resume false)
  else if c = ascii 'z' ∨ c = ascii 'Z' then (s.cmdBreak, .reply)
  else if c = ascii 'q' then (s.cmdQuery, .reply)
  else (s, .reply)

end Soc.Gdbstub
