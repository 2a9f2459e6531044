import Soc.Gdbstub.Writes
import Soc.Library.Traced

/-!
# What the commands touch

The commands of the stub again, with the cells of the packet buffers, the registers, target
memory and the breakpoint tables that they read and write. Everything stays within the
stub's own structures, except for `p` and `P`: they do not check the register number, and
`P` may look for its digits behind the end of the packet buffer.
-/

namespace Soc.Gdbstub

open Library (Traced)
open Library.Region (Covers)

/-- A cell that is read or written. -/
inductive Touch where
  | inBuf (i : Nat)
  | outBuf (i : Nat)
  | mem (a : Word)
  | bpAddress (i : Nat)
  | wpAddress (i : Nat)
  | signal (i : Nat)
  deriving DecidableEq

namespace Access

/-- Read a character of the packet. -/
def getIn (buf : Nat → Byte) (i : Nat) : Traced Touch Byte := .touch (.inBuf i) (buf i)

/-- Write a character of the reply. -/
def putOut (buf : Nat → Byte) (i : Nat) (c : Byte) : Traced Touch (Nat → Byte) :=
  .touch (.outBuf i) (Function.update buf i c)

/-- Read a byte of memory. -/
def getMem (mem : Word → Byte) (a : Word) : Traced Touch Byte := .touch (.mem a) (mem a)

/-- Write a byte of memory. -/
def putMem (mem : Word → Byte) (a : Word) (c : Byte) : Traced Touch (Word → Byte) :=
  .touch (.mem a) (Function.update mem a c)

/-- `strcpy` of a string constant. -/
def strcpy (buf : Nat → Byte) (pos : Nat) : List Byte → Traced Touch (Nat → Byte)
  | [] => putOut buf pos 0
  | c :: s => do
      let buf ← putOut buf pos c
      strcpy buf (pos + 1) s

/-- Leave a string in `remcom_out_buffer`. -/
def reply (st : Stub) (s : String) : Traced Touch Stub := do
  let out ← strcpy st.remcomOutBuffer 0 (text s)
  pure { st with remcomOutBuffer := out }

/-- `mem2hex`. -/
def mem2hex (mem : Word → Byte) (addr : Word) (buf : Nat → Byte) (out : Nat) :
    Nat → Traced Touch ((Nat → Byte) × Nat)
  | 0 => do
      let buf ← putOut buf out 0
      pure (buf, out)
  | count + 1 => do
      let ch ← getMem mem addr
      let buf ← putOut buf out (highhex ch)
      let buf ← putOut buf (out + 1) (lowhex ch)
      mem2hex mem (addr + 1) buf (out + 2) count

/-- `hex2mem`. -/
def hex2mem (buf : Nat → Byte) (pos : Nat) (mem : Word → Byte) (addr : Word) :
    Nat → Traced Touch (Word → Byte)
  | 0 => pure mem
  | count + 1 => do
      let c1 ← getIn buf pos
      let c2 ← getIn buf (pos + 1)
      let mem ← putMem mem addr (BitVec.ofInt 8 (hex c1) <<< 4 ||| BitVec.ofInt 8 (hex c2))
      hex2mem buf (pos + 2) mem (addr + 1) count

/-- `bin2mem`. -/
def bin2mem (buf : Nat → Byte) (pos : Nat) (mem : Word → Byte) (addr : Word) :
    Nat → Traced Touch (Word → Byte)
  | 0 => pure mem
  | count + 1 => do
      let c ← getIn buf pos
      if c = 0x7d then do
        let c ← getIn buf (pos + 1)
        let mem ← putMem mem addr (c ^^^ 0x20)
        bin2mem buf (pos + 2) mem (addr + 1) count
      else do
        let mem ← putMem mem addr c
        bin2mem buf (pos + 1) mem (addr + 1) count

/-- The loop of `hex2int`. -/
def hex2intFrom (buf : Nat → Byte) : Nat → HexInt → Traced Touch HexInt
  | 0, r => pure r
  | fuel + 1, r => do
      let ch ← getIn buf r.ptr
      if ch = 0 then pure r
      else if hex ch < 0 then pure r
      else
        hex2intFrom buf fuel
          ⟨r.value <<< 4 ||| BitVec.ofInt 32 (hex ch), r.numChars + 1, r.ptr + 1⟩

/-- The test `hex2int(&ptr, &value) > 0`. -/
def hexArg (buf : Nat → Byte) (ptr : Nat) : Traced Touch (Option (Word × Nat)) := do
  let r ← hex2intFrom buf (BUFMAX + 1) ⟨0, 0, ptr⟩
  pure (if r.numChars > 0 then some (r.value, r.ptr) else none)

/-- The test `*ptr++ == c`. -/
def charArg (buf : Nat → Byte) (ptr : Nat) (c : Char) : Traced Touch (Option Nat) := do
  let ch ← getIn buf ptr
  pure (if ch = ascii c then some (ptr + 1) else none)

/-- The arguments `addr,length` of a memory command. -/
def memArgs (buf : Nat → Byte) : Traced Touch (Option (Word × Word × Nat)) :=
  (hexArg buf 1).tryBind fun (addr, ptr) => (charArg buf ptr ',').tryBind fun ptr =>
    (hexArg buf ptr).tryBind fun (length, ptr) => pure (some (addr, length, ptr))

/-- The arguments of `cmd_mem_write`. -/
def writeArgs (buf : Nat → Byte) : Traced Touch (Option (Word × Word × Nat)) :=
  (memArgs buf).tryBind fun (addr, length, ptr) => (charArg buf ptr ':').tryBind fun ptr =>
    pure (some (addr, length, ptr))

/-- The arguments of `cmd_reg_set`. -/
def setArgs (buf : Nat → Byte) : Traced Touch (Option (Word × Nat)) :=
  (hexArg buf 1).tryBind fun (reg, ptr) => (charArg buf ptr '=').tryBind fun ptr =>
    pure (some (reg, ptr))

/-- The arguments of `cmd_break`. -/
def breakArgs (buf : Nat → Byte) : Traced Touch (Option Word) :=
  (charArg buf 2 ',').tryBind fun ptr => (hexArg buf ptr).tryBind fun (addr, ptr) =>
    (charArg buf ptr ',').tryBind fun ptr => (hexArg buf ptr).tryBind fun _ => pure (some addr)

/-- A word of memory that is read. -/
def readWord (mem : Word → Byte) (addr : Word) : Traced Touch Word := do
  let b0 ← getMem mem addr
  let b1 ← getMem mem (addr + 1)
  let b2 ← getMem mem (addr + 2)
  let b3 ← getMem mem (addr + 3)
  pure (b0 ++ b1 ++ b2 ++ b3)

/-- A word of memory that is written. -/
def writeWord (mem : Word → Byte) (addr value : Word) : Traced Touch (Word → Byte) := do
  let mem ← putMem mem addr (value.extractLsb' 24 8)
  let mem ← putMem mem (addr + 1) (value.extractLsb' 16 8)
  let mem ← putMem mem (addr + 2) (value.extractLsb' 8 8)
  putMem mem (addr + 3) (value.extractLsb' 0 8)

/-- `memcmp` with a string constant, up to the first difference. -/
def memcmp (buf : Nat → Byte) (pos : Nat) : List Byte → Traced Touch Bool
  | [] => pure true
  | c :: s => do
      let ch ← getIn buf pos
      if ch = c then memcmp buf (pos + 1) s else pure false

/-- `*ptr++ = c`. -/
def put (buf : (Nat → Byte) × Nat) (c : Byte) : Traced Touch ((Nat → Byte) × Nat) := do
  let out ← putOut buf.1 buf.2 c
  pure (out, buf.2 + 1)

/-- The number and the value of a register in `cmd_status`. -/
def putReg (s : Stub) (buf : (Nat → Byte) × Nat) (reg : Nat) :
    Traced Touch ((Nat → Byte) × Nat) := do
  let buf ← put buf (highhex (.ofNat 8 reg))
  let buf ← put buf (lowhex (.ofNat 8 reg))
  let buf ← put buf (ascii ':')
  let buf ← mem2hex s.mem (s.regAddr (.ofNat 32 reg)) buf.1 buf.2 4
  put buf (ascii ';')

/-- `cmd_status`. -/
def cmdStatus (s : Stub) : Traced Touch Stub := do
  let eid ← readWord s.mem (s.regAddr (.ofNat 32 LM32_REG_EID))
  let sigval ← .touch (.signal (eid &&& 7).toNat) (signals.getD (eid &&& 7).toNat 0)
  let buf ← put (s.remcomOutBuffer, 0) (ascii 'T')
  let buf ← put buf (highhex sigval)
  let buf ← put buf (lowhex sigval)
  let buf ← putReg s buf LM32_REG_PC
  let buf ← putReg s buf LM32_REG_SP
  let buf ← put buf 0
  pure { s with remcomOutBuffer := buf.1 }

/-- `cmd_getregs`. -/
def cmdGetregs (s : Stub) : Traced Touch Stub := do
  let buf ← mem2hex s.mem s.registers s.remcomOutBuffer 0 (NUM_REGS * 4)
  pure { s with remcomOutBuffer := buf.1 }

/-- `cmd_setregs`. -/
def cmdSetregs (s : Stub) : Traced Touch Stub := do
  let mem ← hex2mem s.remcomInBuffer 1 s.mem s.registers (NUM_REGS * 4)
  reply { s with mem := mem } "OK"

/-- `cmd_mem_read`. -/
def cmdMemRead (s : Stub) : Traced Touch Stub := do
  match ← memArgs s.remcomInBuffer with
  | some (addr, length, _) =>
      if length.toNat ≤ (BUFMAX + 1) / 2 then do
        let buf ← mem2hex s.mem addr s.remcomOutBuffer 0 length.toNat
        pure { s with remcomOutBuffer := buf.1 }
      else reply s "E22"
  | none => reply s "E22"

/-- `cmd_mem_write`. -/
def cmdMemWrite (s : Stub) (binary : Bool) : Traced Touch Stub := do
  match ← writeArgs s.remcomInBuffer with
  | some (addr, length, ptr) => do
      let copy := if binary then bin2mem else hex2mem
      let mem ← copy s.remcomInBuffer ptr s.mem addr length.toInt.toNat
      reply { s with mem := mem } "OK"
  | none => reply s "E22"

/-- `cmd_detachkill`. -/
def cmdDetachkill (s : Stub) : Traced Touch Stub := do
  let s := { s.removeAllBreak with gdbConnected := false }
  let ch ← getIn s.remcomInBuffer 0
  if ch = ascii 'D' then reply s "OK" else pure s

/-- The `if` of `cmd_continuestep` that takes a new address. -/
def takeAddress (s : Stub) : Option (Word × Nat) → Traced Touch Stub
  | some (addr, _) => do
      let mem ← writeWord s.mem (s.regAddr (.ofNat 32 LM32_REG_PC)) addr
      pure { s with mem := mem }
  | none => pure s

/-- `cmd_continuestep`. -/
def cmdContinuestep (s : Stub) : Traced Touch Stub := do
  let arg ← hexArg s.remcomInBuffer 1
  let s ← takeAddress s arg
  let ch ← getIn s.remcomInBuffer 0
  if ch = ascii 's' then pure (s.wcsr Lm32.CSR_DC (s.dc ||| 1)) else pure s

/-- The body of each `if` of `set_hw_breakpoint`. -/
def useBreakpoint (s : Stub) (i : Nat) (address : Word) : Traced Touch (Bool × Stub) :=
  .touch (.bpAddress i) (true, s.useBreakpoint i address)

/-- `set_hw_breakpoint`. -/
def setHwBreakpoint (s : Stub) (address : Word) : Traced Touch (Bool × Stub) :=
  let numBps := s.cfg >>> 18 &&& 0xf
  if numBps > 0 ∧ test s.bpwpEnabled (bpBit 0) = false then useBreakpoint s 0 address
  else if numBps > 1 ∧ test s.bpwpEnabled (bpBit 1) = false then useBreakpoint s 1 address
  else if numBps > 2 ∧ test s.bpwpEnabled (bpBit 2) = false then useBreakpoint s 2 address
  else if numBps > 3 ∧ test s.bpwpEnabled (bpBit 3) = false then useBreakpoint s 3 address
  else pure (false, s)

/-- The condition of each `if` of `disable_hw_breakpoint`. -/
def breaksAt (s : Stub) (i : Nat) (address : Word) : Traced Touch Bool :=
  if test s.bpwpEnabled (bpBit i) then do
    let bp ← .touch (.bpAddress i) (s.bpAddress i)
    pure (bp == address)
  else pure false

/-- `disable_hw_breakpoint`. -/
def disableHwBreakpoint (s : Stub) (address : Word) : Traced Touch (Bool × Stub) := do
  if ← breaksAt s 0 address then pure (true, s.freeBreakpoint 0)
  else if ← breaksAt s 1 address then pure (true, s.freeBreakpoint 1)
  else if ← breaksAt s 2 address then pure (true, s.freeBreakpoint 2)
  else if ← breaksAt s 3 address then pure (true, s.freeBreakpoint 3)
  else pure (false, s)

/-- The iteration in which a watchpoint loop breaks. -/
def find (p : WpLoop → Traced Touch Bool) : Nat → WpLoop → Traced Touch (Option WpLoop)
  | 0, _ => pure none
  | count + 1, l => do
      if ← p l then pure (some l) else find p count l.next

/-- `set_hw_watchpoint`. -/
def setHwWatchpoint (s : Stub) (address : Word) (mode : Byte) : Traced Touch (Bool × Stub) := do
  let numWps := s.cfg >>> 22 &&& 0xf
  match ← find (fun l => pure (!test s.bpwpEnabled l.bit)) numWps.toNat (.start mode) with
  | some l => .touch (.wpAddress l.i) (true, s.takeWatchpoint l address)
  | none => pure (false, s)

/-- The condition in the loop of `disable_hw_watchpoint`. -/
def watches (s : Stub) (address : Word) (l : WpLoop) : Traced Touch Bool :=
  if test s.bpwpEnabled l.bit then do
    let wp ← .touch (.wpAddress l.i) (s.wpAddress l.i)
    pure (wp == address && s.dc &&& l.dcMask == l.dcMode)
  else pure false

/-- `disable_hw_watchpoint`. -/
def disableHwWatchpoint (s : Stub) (address : Word) (mode : Byte) : Traced Touch (Bool × Stub) := do
  match ← find (watches s address) 4 (.start mode) with
  | some l => pure (true, s.dropWatchpoint l)
  | none => pure (false, s)

/-- The end of `cmd_break`: insert or remove, and reply. -/
def changeBreak (s : Stub) (insert remove : Traced Touch (Bool × Stub)) : Traced Touch Stub := do
  let ch ← getIn s.remcomInBuffer 0
  let result ← (if ch = ascii 'Z' then insert else remove)
  reply result.2 (if result.1 then "OK" else "E28")

/-- `cmd_break`. -/
def cmdBreak (s : Stub) : Traced Touch Stub := do
  match ← breakArgs s.remcomInBuffer with
  | none => reply s "E22"
  | some addr => do
      let kind ← getIn s.remcomInBuffer 1
      if kind = ascii '1' then changeBreak s (setHwBreakpoint s addr) (disableHwBreakpoint s addr)
      else
        match watchMode kind with
        | some mode => changeBreak s (setHwWatchpoint s addr mode) (disableHwWatchpoint s addr mode)
        | none => pure s

/-- `cmd_reg_get`. -/
def cmdRegGet (s : Stub) : Traced Touch Stub := do
  match ← hexArg s.remcomInBuffer 1 with
  | some (reg, _) => do
      let buf ← mem2hex s.mem (s.regAddr reg) s.remcomOutBuffer 0 4
      pure { s with remcomOutBuffer := buf.1 }
  | none => reply s "E22"

/-- `cmd_reg_set`. -/
def cmdRegSet (s : Stub) : Traced Touch Stub := do
  match ← setArgs s.remcomInBuffer with
  | some (reg, ptr) => do
      let mem ← hex2mem s.remcomInBuffer ptr s.mem (s.regAddr reg) 4
      reply { s with mem := mem } "OK"
  | none => reply s "E22"

/-- `cmd_query`. -/
def cmdQuery (s : Stub) : Traced Touch Stub := do
  if ← memcmp s.remcomInBuffer 1 (text "Supported") then reply s "PacketSize=320" else pure s

/-- The command of a packet that starts with `c`, and what follows it. -/
def command (s : Stub) (c : Byte) : Traced Touch Stub × After :=
  if c = ascii '?' then (cmdStatus s, .reply)
  else if c = ascii 'g' then (cmdGetregs s, .reply)
  else if c = ascii 'G' then (cmdSetregs s, .reply)
  else if c = ascii 'm' then (cmdMemRead s, .reply)
  else if c = ascii 'M' then (cmdMemWrite s false, .reply)
  else if c = ascii 'X' then (cmdMemWrite s true, .reply)
  else if c = ascii 'p' then (cmdRegGet s, .reply)
  else if c = ascii 'P' then (cmdRegSet s, .reply)
  else if c = ascii 'D' ∨ c = ascii 'k' then (cmdDetachkill s, .resume (c = ascii 'D'))
  else if c = ascii 'c' ∨ c = ascii 's' then (cmdContinuestep s, .resume false)
  else if c = ascii 'z' ∨ c = ascii 'Z' then (cmdBreak s, .reply)
  else if c = ascii 'q' then (cmdQuery s, .reply)
  else (pure s, .reply)

/-- The `switch` of `handle_exception`. -/
def execute (s : Stub) : Traced Touch (Stub × After) := do
  let c ← getIn s.remcomInBuffer 0
  let s' ← (command s c).1
  pure (s', (command s c).2)

section Values

/-- What comes after a character that is read. -/
theorem value_getIn_bind {α : Type} (buf : Nat → Byte) (i : Nat) (f : Byte → Traced Touch α) :
    (getIn buf i >>= f).value = (f (buf i)).value := rfl

variable {buf : Nat → Byte} {mem : Word → Byte} {s : Stub}

@[simp] theorem strcpy_value (out : Nat → Byte) (pos : Nat) (t : List Byte) :
    (strcpy out pos t).value = Gdbstub.strcpy out pos t := by
  induction t generalizing out pos with
  | nil => rfl
  | cons c t ih => exact ih _ _

@[simp] theorem reply_value (t : String) : (reply s t).value = s.reply t := by
  simp [reply, Stub.reply]

@[simp] theorem mem2hex_value (addr : Word) (out : Nat → Byte) (pos count : Nat) :
    (mem2hex mem addr out pos count).value = Gdbstub.mem2hex mem addr out pos count := by
  induction count generalizing addr out pos with
  | zero => rfl
  | succ count ih => exact ih _ _ _

@[simp] theorem hex2mem_value (pos : Nat) (addr : Word) (count : Nat) :
    (hex2mem buf pos mem addr count).value = Gdbstub.hex2mem buf pos mem addr count := by
  induction count generalizing pos mem addr with
  | zero => rfl
  | succ count ih => exact ih _ _

@[simp] theorem bin2mem_value (pos : Nat) (addr : Word) (count : Nat) :
    (bin2mem buf pos mem addr count).value = Gdbstub.bin2mem buf pos mem addr count := by
  induction count generalizing pos mem addr with
  | zero => rfl
  | succ count ih =>
      by_cases hmark : buf pos = 0x7d
      · simp only [bin2mem, Gdbstub.bin2mem, getIn, Traced.value_bind, Traced.value_touch, hmark,
          if_true]
        exact ih _ _
      · simp only [bin2mem, Gdbstub.bin2mem, getIn, Traced.value_bind, Traced.value_touch, hmark,
          if_false]
        exact ih _ _

@[simp] theorem hex2intFrom_value (fuel : Nat) (r : HexInt) :
    (hex2intFrom buf fuel r).value = Gdbstub.hex2intFrom buf fuel r := by
  induction fuel generalizing r with
  | zero => rfl
  | succ fuel ih =>
      by_cases hnul : buf r.ptr = 0
      · simp [hex2intFrom, Gdbstub.hex2intFrom, getIn, hnul]
      by_cases hdigit : hex (buf r.ptr) < 0
      · simp [hex2intFrom, Gdbstub.hex2intFrom, getIn, hdigit]
      · simp only [hex2intFrom, Gdbstub.hex2intFrom, getIn, Traced.value_bind, Traced.value_touch,
          hnul, hdigit, if_false]
        exact ih _

@[simp] theorem hexArg_value (ptr : Nat) : (hexArg buf ptr).value = Gdbstub.hexArg buf ptr := by
  simp [hexArg, Gdbstub.hexArg, hex2int]

@[simp] theorem charArg_value (ptr : Nat) (c : Char) :
    (charArg buf ptr c).value = Gdbstub.charArg buf ptr c := rfl

@[simp] theorem memArgs_value : (memArgs buf).value = Gdbstub.memArgs buf := by
  simp [memArgs, Gdbstub.memArgs]

@[simp] theorem writeArgs_value : (writeArgs buf).value = Gdbstub.writeArgs buf := by
  simp [writeArgs, Gdbstub.writeArgs]

@[simp] theorem setArgs_value : (setArgs buf).value = Gdbstub.setArgs buf := by
  simp [setArgs, Gdbstub.setArgs]

@[simp] theorem breakArgs_value : (breakArgs buf).value = Gdbstub.breakArgs buf := by
  simp [breakArgs, Gdbstub.breakArgs]

@[simp] theorem memcmp_value (pos : Nat) (t : List Byte) :
    (memcmp buf pos t).value = true ↔ Reads buf pos t := by
  induction t generalizing pos with
  | nil => simp [memcmp]
  | cons c t ih =>
      by_cases hc : buf pos = c
      · simp [memcmp, getIn, hc, ih]
      · simp [memcmp, getIn, hc]

@[simp] theorem readWord_value (addr : Word) :
    (readWord mem addr).value = Gdbstub.readWord mem addr := rfl

@[simp] theorem writeWord_value (addr value : Word) :
    (writeWord mem addr value).value = Gdbstub.writeWord mem addr value := rfl

theorem cmdStatus_value : (cmdStatus s).value = s.cmdStatus := by
  simp [cmdStatus, Stub.cmdStatus, putReg, put, putOut]

theorem cmdGetregs_value : (cmdGetregs s).value = s.cmdGetregs := by
  simp [cmdGetregs, Stub.cmdGetregs]

theorem cmdSetregs_value : (cmdSetregs s).value = s.cmdSetregs := by
  simp [cmdSetregs, Stub.cmdSetregs]

theorem cmdMemRead_value : (cmdMemRead s).value = s.cmdMemRead := by
  simp only [cmdMemRead, Stub.cmdMemRead, Traced.value_bind, memArgs_value]
  cases Gdbstub.memArgs s.remcomInBuffer with
  | none => simp
  | some args =>
      by_cases hlength : args.2.1.toNat ≤ (BUFMAX + 1) / 2 <;> simp [hlength]

theorem cmdMemWrite_value (binary : Bool) :
    (cmdMemWrite s binary).value = s.cmdMemWrite binary := by
  rw [cmdMemWrite, Traced.value_bind, writeArgs_value]
  show _ = match Gdbstub.writeArgs s.remcomInBuffer with
    | some (addr, length, ptr) => _
    | none => _
  cases Gdbstub.writeArgs s.remcomInBuffer with
  | none => simp
  | some args => cases binary <;> simp

theorem cmdDetachkill_value : (cmdDetachkill s).value = s.cmdDetachkill := by
  rw [cmdDetachkill, value_getIn_bind, Traced.value_ite, reply_value, Traced.value_pure]
  rfl

theorem takeAddress_value (arg : Option (Word × Nat)) :
    (takeAddress s arg).value =
      match arg with
      | some (addr, _) =>
          { s with mem := Gdbstub.writeWord s.mem (s.regAddr (.ofNat 32 LM32_REG_PC)) addr }
      | none => s := by
  cases arg <;> rfl

theorem cmdContinuestep_value : (cmdContinuestep s).value = s.cmdContinuestep := by
  rw [cmdContinuestep, Traced.value_bind, hexArg_value, Traced.value_bind, takeAddress_value,
    value_getIn_bind, Traced.value_ite, Traced.value_pure, Traced.value_pure]
  rfl

theorem setHwBreakpoint_value (address : Word) :
    (setHwBreakpoint s address).value = s.setHwBreakpoint address := by
  simp only [setHwBreakpoint, Stub.setHwBreakpoint, useBreakpoint, Traced.value_ite,
    Traced.value_touch, Traced.value_pure]

theorem breaksAt_value (i : Nat) (address : Word) :
    (breaksAt s i address).value = s.breaksAt i address := by
  cases h : test s.bpwpEnabled (bpBit i) <;> simp [breaksAt, Stub.breaksAt, h]

theorem disableHwBreakpoint_value (address : Word) :
    (disableHwBreakpoint s address).value = s.disableHwBreakpoint address := by
  simp only [disableHwBreakpoint, Stub.disableHwBreakpoint, Traced.value_bind, Traced.value_ite,
    breaksAt_value, Traced.value_pure]

theorem find_value (p : WpLoop → Traced Touch Bool) (count : Nat) (l : WpLoop) :
    (find p count l).value = WpLoop.find (fun l => (p l).value) count l := by
  induction count generalizing l with
  | zero => rfl
  | succ count ih =>
      simp only [find, WpLoop.find, Traced.value_bind, Traced.value_ite, Traced.value_pure, ih]

theorem setHwWatchpoint_value (address : Word) (mode : Byte) :
    (setHwWatchpoint s address mode).value = s.setHwWatchpoint address mode := by
  rw [setHwWatchpoint, Traced.value_bind, find_value]
  simp only [Stub.setHwWatchpoint, Traced.value_pure]
  cases WpLoop.find _ _ _ <;> rfl

theorem watches_value (address : Word) (l : WpLoop) :
    (watches s address l).value = s.watches address l := by
  cases h : test s.bpwpEnabled l.bit <;> simp [watches, Stub.watches, h]

theorem disableHwWatchpoint_value (address : Word) (mode : Byte) :
    (disableHwWatchpoint s address mode).value = s.disableHwWatchpoint address mode := by
  rw [disableHwWatchpoint, Traced.value_bind, find_value]
  simp only [Stub.disableHwWatchpoint, watches_value]
  cases WpLoop.find _ _ _ <;> rfl

theorem changeBreak_value (insert remove : Traced Touch (Bool × Stub)) :
    (changeBreak s insert remove).value =
      let result := if s.remcomInBuffer 0 = ascii 'Z' then insert.value else remove.value
      result.2.reply (if result.1 then "OK" else "E28") := by
  rw [changeBreak, value_getIn_bind, Traced.value_bind, reply_value, Traced.value_ite]

theorem cmdBreak_value : (cmdBreak s).value = s.cmdBreak := by
  rw [cmdBreak, Traced.value_bind, breakArgs_value]
  simp only [Stub.cmdBreak]
  cases Gdbstub.breakArgs s.remcomInBuffer with
  | none => exact reply_value "E22"
  | some addr =>
      rw [value_getIn_bind]
      by_cases hbreak : s.remcomInBuffer 1 = ascii '1'
      · simp only [hbreak, if_true, changeBreak_value, setHwBreakpoint_value,
          disableHwBreakpoint_value]
      · simp only [hbreak, if_false]
        cases watchMode (s.remcomInBuffer 1) with
        | none => rfl
        | some mode =>
            simp only [changeBreak_value, setHwWatchpoint_value, disableHwWatchpoint_value]

theorem cmdRegGet_value : (cmdRegGet s).value = s.cmdRegGet := by
  simp only [cmdRegGet, Stub.cmdRegGet, Traced.value_bind, hexArg_value]
  cases Gdbstub.hexArg s.remcomInBuffer 1 <;> simp

theorem cmdRegSet_value : (cmdRegSet s).value = s.cmdRegSet := by
  rw [cmdRegSet, Traced.value_bind, setArgs_value]
  show _ = match Gdbstub.setArgs s.remcomInBuffer with
    | some (reg, ptr) => _
    | none => _
  cases Gdbstub.setArgs s.remcomInBuffer <;> simp

/-- What `cmd_query` compares. -/
theorem supported_iff (buf : Nat → Byte) :
    (List.range 9).map (fun i => buf (i + 1)) = text "Supported" ↔
      Reads buf 1 (text "Supported") := by
  rw [reads_iff]
  constructor
  · intro h i hi
    have hget := congrArg (·[i]?) h
    have hi9 : i < 9 := hi
    rw [Nat.add_comm]
    simpa [hi9, hi] using hget
  · intro h
    apply List.ext_getElem
    · rfl
    · intro i hi hi'
      simpa [Nat.add_comm] using h i hi'

theorem cmdQuery_value : (cmdQuery s).value = s.cmdQuery := by
  rw [cmdQuery, Traced.value_bind, Traced.value_ite, reply_value, Traced.value_pure]
  exact if_congr ((memcmp_value _ _).trans (supported_iff _).symm) rfl rfl

/-- The traced commands do what the commands do. -/
theorem execute_value : (execute s).value = s.execute := by
  rw [execute, value_getIn_bind, Traced.value_bind, Traced.value_pure, Stub.execute, command]
  generalize s.remcomInBuffer 0 = c
  by_cases h : c = ascii '?'
  · rw [if_pos h, if_pos h, cmdStatus_value]
  rw [if_neg h, if_neg h]
  by_cases h : c = ascii 'g'
  · rw [if_pos h, if_pos h, cmdGetregs_value]
  rw [if_neg h, if_neg h]
  by_cases h : c = ascii 'G'
  · rw [if_pos h, if_pos h, cmdSetregs_value]
  rw [if_neg h, if_neg h]
  by_cases h : c = ascii 'm'
  · rw [if_pos h, if_pos h, cmdMemRead_value]
  rw [if_neg h, if_neg h]
  by_cases h : c = ascii 'M'
  · rw [if_pos h, if_pos h, cmdMemWrite_value]
  rw [if_neg h, if_neg h]
  by_cases h : c = ascii 'X'
  · rw [if_pos h, if_pos h, cmdMemWrite_value]
  rw [if_neg h, if_neg h]
  by_cases h : c = ascii 'p'
  · rw [if_pos h, if_pos h, cmdRegGet_value]
  rw [if_neg h, if_neg h]
  by_cases h : c = ascii 'P'
  · rw [if_pos h, if_pos h, cmdRegSet_value]
  rw [if_neg h, if_neg h]
  by_cases h : c = ascii 'D' ∨ c = ascii 'k'
  · rw [if_pos h, if_pos h, cmdDetachkill_value]
  rw [if_neg h, if_neg h]
  by_cases h : c = ascii 'c' ∨ c = ascii 's'
  · rw [if_pos h, if_pos h, cmdContinuestep_value]
  rw [if_neg h, if_neg h]
  by_cases h : c = ascii 'z' ∨ c = ascii 'Z'
  · rw [if_pos h, if_pos h, cmdBreak_value]
  rw [if_neg h, if_neg h]
  by_cases h : c = ascii 'q'
  · rw [if_pos h, if_pos h, cmdQuery_value]
  rw [if_neg h, if_neg h]
  rfl

end Values

section Within

variable {P : Touch → Prop} {buf : Nat → Byte} {mem : Word → Byte}

@[simp] theorem within_getIn (i : Nat) : (getIn buf i).Within P ↔ P (.inBuf i) :=
  Traced.within_touch_iff _

@[simp] theorem within_putOut (i : Nat) (c : Byte) : (putOut buf i c).Within P ↔ P (.outBuf i) :=
  Traced.within_touch_iff _

@[simp] theorem within_getMem (a : Word) : (getMem mem a).Within P ↔ P (.mem a) :=
  Traced.within_touch_iff _

@[simp] theorem within_putMem (a : Word) (c : Byte) : (putMem mem a c).Within P ↔ P (.mem a) :=
  Traced.within_touch_iff _

/-- What comes after a character that is read. -/
theorem within_getIn_bind {α : Type} {i : Nat} {f : Byte → Traced Touch α} :
    (getIn buf i >>= f).Within P ↔ P (.inBuf i) ∧ (f (buf i)).Within P := by
  rw [Traced.within_bind_iff, within_getIn]
  rfl

/-- A string that is copied into the reply. -/
theorem within_strcpy {out : Nat → Byte} {pos : Nat} {t : List Byte}
    (h : ∀ i, i ≤ pos + t.length → P (.outBuf i)) : (strcpy out pos t).Within P := by
  induction t generalizing out pos with
  | nil => exact (within_putOut _ _).2 (h pos (Nat.le_refl _))
  | cons c t ih =>
      rw [List.length_cons] at h
      refine Traced.within_bind_iff.2 ⟨(within_putOut _ _).2 (h pos (by omega)), ih fun i hi => ?_⟩
      exact h i (by omega)

/-- A list of consecutive addresses. -/
theorem forall_addr_succ {Q : Word → Prop} {addr : Word} {count : Nat} :
    (∀ i < count + 1, Q (addr + .ofNat 32 i)) ↔
      Q addr ∧ ∀ i < count, Q (addr + 1 + .ofNat 32 i) := by
  constructor
  · intro h
    refine ⟨by simpa using h 0 (Nat.succ_pos _), fun i hi => ?_⟩
    rw [Library.Region.succ_add]
    exact h (i + 1) (Nat.succ_lt_succ hi)
  · rintro ⟨hfirst, hrest⟩ i hi
    cases i with
    | zero => simpa using hfirst
    | succ i =>
        rw [← Library.Region.succ_add]
        exact hrest i (Nat.lt_of_succ_lt_succ hi)

/-- `mem2hex` reads its region and writes two digits for each byte and a NUL. -/
theorem within_mem2hex {addr : Word} {out : Nat → Byte} {pos count : Nat} :
    (mem2hex mem addr out pos count).Within P ↔
      (∀ i, pos ≤ i → i ≤ pos + 2 * count → P (.outBuf i)) ∧
        ∀ i < count, P (.mem (addr + .ofNat 32 i)) := by
  induction count generalizing addr out pos with
  | zero =>
      simp only [mem2hex, Traced.within_bind_iff, within_putOut, Traced.within_pure_iff, and_true]
      constructor
      · intro h
        refine ⟨fun i h1 h2 => ?_, by simp⟩
        obtain rfl : i = pos := by omega
        exact h
      · intro h
        exact h.1 pos (Nat.le_refl _) (by omega)
  | succ count ih =>
      simp only [mem2hex, Traced.within_bind_iff, within_getMem, within_putOut, ih]
      rw [forall_addr_succ (Q := fun a => P (.mem a))]
      constructor
      · rintro ⟨hfirst, h0, h1, hout, hmem⟩
        refine ⟨fun i hi hi' => ?_, hfirst, hmem⟩
        by_cases hi0 : i = pos
        · exact hi0 ▸ h0
        by_cases hi1 : i = pos + 1
        · exact hi1 ▸ h1
        · exact hout i (by omega) (by omega)
      · rintro ⟨hout, hfirst, hmem⟩
        exact ⟨hfirst, hout _ (by omega) (by omega), hout _ (by omega) (by omega),
          fun i hi hi' => hout i (by omega) (by omega), hmem⟩

/-- `hex2mem` reads two characters for each byte that it writes. -/
theorem within_hex2mem {addr : Word} {pos count : Nat} :
    (hex2mem buf pos mem addr count).Within P ↔
      (∀ i, pos ≤ i → i < pos + 2 * count → P (.inBuf i)) ∧
        ∀ i < count, P (.mem (addr + .ofNat 32 i)) := by
  induction count generalizing pos mem addr with
  | zero =>
      refine iff_of_true (Traced.within_pure _) ⟨fun i h1 h2 => ?_, by simp⟩
      omega
  | succ count ih =>
      simp only [hex2mem, Traced.within_bind_iff, within_getIn, within_putMem, ih]
      rw [forall_addr_succ (Q := fun a => P (.mem a))]
      constructor
      · rintro ⟨h0, h1, hfirst, hin, hmem⟩
        refine ⟨fun i hi hi' => ?_, hfirst, hmem⟩
        by_cases hi0 : i = pos
        · exact hi0 ▸ h0
        by_cases hi1 : i = pos + 1
        · exact hi1 ▸ h1
        · exact hin i (by omega) (by omega)
      · rintro ⟨hin, hfirst, hmem⟩
        exact ⟨hin _ (by omega) (by omega), hin _ (by omega) (by omega), hfirst,
          fun i hi hi' => hin i (by omega) (by omega), hmem⟩

/-- `hex2int` does not read behind the NUL at the end of the buffer. -/
theorem within_hex2intFrom (fuel : Nat) {r : HexInt} (hin : ∀ i ≤ BUFMAX, P (.inBuf i))
    (hend : buf BUFMAX = 0) (hptr : r.ptr ≤ BUFMAX) :
    (hex2intFrom buf fuel r).Within P ∧ (Gdbstub.hex2intFrom buf fuel r).ptr ≤ BUFMAX := by
  induction fuel generalizing r with
  | zero => exact ⟨Traced.within_pure _, hptr⟩
  | succ fuel ih =>
      have hfirst := hin _ hptr
      rw [hex2intFrom, within_getIn_bind, Gdbstub.hex2intFrom]
      by_cases hnul : buf r.ptr = 0
      · rw [if_pos hnul, if_pos hnul]
        exact ⟨⟨hfirst, Traced.within_pure _⟩, hptr⟩
      rw [if_neg hnul, if_neg hnul]
      by_cases hdigit : hex (buf r.ptr) < 0
      · rw [if_pos hdigit, if_pos hdigit]
        exact ⟨⟨hfirst, Traced.within_pure _⟩, hptr⟩
      rw [if_neg hdigit, if_neg hdigit]
      have hne : r.ptr ≠ BUFMAX := fun heq => hnul (heq ▸ hend)
      obtain ⟨hrest, hnext⟩ := ih (r := ⟨r.value <<< 4 ||| BitVec.ofInt 32 (hex (buf r.ptr)),
        r.numChars + 1, r.ptr + 1⟩) (show r.ptr + 1 ≤ BUFMAX by omega)
      exact ⟨⟨hfirst, hrest⟩, hnext⟩

/-- A number that is read ends within the buffer. -/
theorem within_hexArg {ptr : Nat} (hin : ∀ i ≤ BUFMAX, P (.inBuf i)) (hend : buf BUFMAX = 0)
    (hptr : ptr ≤ BUFMAX) :
    (hexArg buf ptr).Within P ∧
      ∀ r, (hexArg buf ptr).value = some r → r.2 ≤ BUFMAX := by
  obtain ⟨hloop, hnext⟩ :=
    within_hex2intFrom (BUFMAX + 1) (r := ⟨0, 0, ptr⟩) hin hend hptr
  refine ⟨hloop.bind (Traced.within_pure _), fun r hr => ?_⟩
  rw [hexArg_value, Gdbstub.hexArg] at hr
  split_ifs at hr
  cases hr
  exact hnext

/-- A character that is found is not the last of the buffer. -/
theorem within_charArg {ptr : Nat} {c : Char} (hin : ∀ i ≤ BUFMAX, P (.inBuf i))
    (hend : buf BUFMAX = 0) (hc : ascii c ≠ 0) (hptr : ptr ≤ BUFMAX) :
    (charArg buf ptr c).Within P ∧ ∀ r, (charArg buf ptr c).value = some r → r ≤ BUFMAX := by
  refine ⟨((within_getIn _).2 (hin _ hptr)).bind (Traced.within_pure _), fun r hr => ?_⟩
  rw [charArg_value, Gdbstub.charArg] at hr
  split_ifs at hr with hchar
  cases hr
  have hne : ptr ≠ BUFMAX := fun heq => hc (hchar.symm.trans (heq ▸ hend))
  omega

/-- The arguments of `cmd_break` are read within the buffer. -/
theorem within_breakArgs (hin : ∀ i ≤ BUFMAX, P (.inBuf i)) (hend : buf BUFMAX = 0) :
    (breakArgs buf).Within P := by
  have h1 := within_charArg (c := ',') hin hend (by decide) (show 2 ≤ BUFMAX by decide)
  refine Traced.within_tryBind.2 ⟨h1.1, fun ptr hptr => ?_⟩
  have h2 := within_hexArg hin hend (h1.2 ptr hptr)
  refine Traced.within_tryBind.2 ⟨h2.1, fun r hr => ?_⟩
  have h3 := within_charArg (c := ',') hin hend (by decide) (h2.2 r hr)
  refine Traced.within_tryBind.2 ⟨h3.1, fun ptr hptr => ?_⟩
  have h4 := within_hexArg hin hend (h3.2 ptr hptr)
  exact Traced.within_tryBind.2 ⟨h4.1, fun _ _ => Traced.within_pure _⟩

/-- The arguments of `cmd_reg_set` are read within the buffer. -/
theorem within_setArgs (hin : ∀ i ≤ BUFMAX, P (.inBuf i)) (hend : buf BUFMAX = 0) :
    (setArgs buf).Within P := by
  have h1 := within_hexArg hin hend (show 1 ≤ BUFMAX by decide)
  refine Traced.within_tryBind.2 ⟨h1.1, fun r hr => ?_⟩
  have h2 := within_charArg (c := '=') hin hend (by decide) (h1.2 r hr)
  exact Traced.within_tryBind.2 ⟨h2.1, fun _ _ => Traced.within_pure _⟩

/-- A comparison with a string constant. -/
theorem within_memcmp {pos : Nat} {t : List Byte}
    (h : ∀ i < pos + t.length, P (.inBuf i)) : (memcmp buf pos t).Within P := by
  induction t generalizing pos with
  | nil => exact Traced.within_pure _
  | cons c t ih =>
      rw [List.length_cons] at h
      rw [memcmp, within_getIn_bind]
      refine ⟨h pos (by omega), ?_⟩
      by_cases hc : buf pos = c
      · rw [if_pos hc]
        exact ih fun i hi => h i (by omega)
      · rw [if_neg hc]
        exact Traced.within_pure _

end Within

/-- The cells of the stub's own structures. -/
def Own (s : Stub) : Touch → Prop
  | .inBuf i | .outBuf i => i ≤ BUFMAX
  | .mem a => Covers s.registers (NUM_REGS * 4) a
  | .bpAddress i | .wpAddress i => i < 4
  | .signal i => i < signals.length

section Commands

variable {s : Stub}

/-- A constant reply is short. -/
theorem own_reply {st : Stub} {t : String} (ht : (text t).length ≤ BUFMAX) :
    (reply st t).Within (Own s) := by
  refine Traced.within_bind_iff.2 ⟨within_strcpy fun i hi => ?_, Traced.within_pure _⟩
  rw [Nat.zero_add] at hi
  exact Nat.le_trans hi ht

/-- The bytes of a saved register. -/
theorem own_regAddr {reg : Word} (hreg : (reg * 4).toNat < NUM_REGS * 4) {i : Nat} (hi : i < 4) :
    Own s (.mem (s.regAddr reg + .ofNat 32 i)) := by
  simp only [Own, Covers, Stub.regAddr, NUM_REGS] at hreg ⊢
  have hmod : (reg * 4).toNat % 4 = 0 := by
    rw [BitVec.toNat_mul]
    simp
  have hsub : s.registers + reg * 4 + BitVec.ofNat 32 i - s.registers = reg * 4 + .ofNat 32 i := by
    grind
  rw [hsub, BitVec.toNat_add, BitVec.toNat_ofNat]
  omega

/-- A register behind the saved ones. -/
theorem not_own_regAddr {reg : Word} (hreg : ¬ (reg * 4).toNat < NUM_REGS * 4) :
    ¬ Own s (.mem (s.regAddr reg + .ofNat 32 0)) := by
  simp only [Own, Covers, Stub.regAddr] at hreg ⊢
  have hsub : s.registers + reg * 4 + BitVec.ofNat 32 0 - s.registers = reg * 4 := by
    rw [BitVec.add_zero]
    grind
  rwa [hsub]

/-- A word of a saved register that is read. -/
theorem own_readWord {reg : Word} (hreg : (reg * 4).toNat < NUM_REGS * 4) :
    (readWord s.mem (s.regAddr reg)).Within (Own s) := by
  have h : ∀ i < 4, Own s (.mem (s.regAddr reg + .ofNat 32 i)) := fun _ hi => own_regAddr hreg hi
  have h0 := h 0 (by decide)
  rw [BitVec.add_zero] at h0
  simp only [readWord, Traced.within_bind_iff, within_getMem, Traced.within_pure_iff, and_true]
  exact ⟨h0, h 1 (by decide), h 2 (by decide), h 3 (by decide)⟩

/-- A word of a saved register that is written. -/
theorem own_writeWord {mem : Word → Byte} {reg value : Word}
    (hreg : (reg * 4).toNat < NUM_REGS * 4) :
    (writeWord mem (s.regAddr reg) value).Within (Own s) := by
  have h : ∀ i < 4, Own s (.mem (s.regAddr reg + .ofNat 32 i)) := fun _ hi => own_regAddr hreg hi
  have h0 := h 0 (by decide)
  rw [BitVec.add_zero] at h0
  simp only [writeWord, Traced.within_bind_iff, within_putMem]
  exact ⟨h0, h 1 (by decide), h 2 (by decide), h 3 (by decide)⟩

/-- The digits of a saved register. -/
theorem own_mem2hex {reg : Word} {out : Nat → Byte} {pos : Nat}
    (hreg : (reg * 4).toNat < NUM_REGS * 4) (hpos : pos + 8 ≤ BUFMAX) :
    (mem2hex s.mem (s.regAddr reg) out pos 4).Within (Own s) :=
  within_mem2hex.2 ⟨fun _ _ hi => Nat.le_trans hi hpos, fun _ hi => own_regAddr hreg hi⟩

/-- A character of the status. -/
theorem own_put {buf : (Nat → Byte) × Nat} {c : Byte} (hpos : buf.2 ≤ BUFMAX) :
    (put buf c).Within (Own s) ∧ (put buf c).value.2 = buf.2 + 1 :=
  ⟨((within_putOut _ _).2 hpos).bind (Traced.within_pure _), rfl⟩

/-- A register of the status. -/
theorem own_putReg (buf : (Nat → Byte) × Nat) (reg : Nat)
    (hreg : (BitVec.ofNat 32 reg * 4).toNat < NUM_REGS * 4) (hpos : buf.2 + 12 ≤ BUFMAX) :
    (putReg s buf reg).Within (Own s) ∧ (putReg s buf reg).value.2 = buf.2 + 12 := by
  have hvalue : ∀ out pos, (mem2hex s.mem (s.regAddr (.ofNat 32 reg)) out pos 4).value.2 =
      pos + 8 := by
    intro out pos
    rw [mem2hex_value, mem2hex_eq]
  refine ⟨?_, ?_⟩
  · simp only [putReg, Traced.within_bind_iff]
    refine ⟨(own_put (by omega)).1, (own_put ?_).1, (own_put ?_).1, own_mem2hex hreg ?_,
      (own_put ?_).1⟩
    · show buf.2 + 1 ≤ BUFMAX
      omega
    · show buf.2 + 1 + 1 ≤ BUFMAX
      omega
    · show buf.2 + 1 + 1 + 1 + 8 ≤ BUFMAX
      omega
    · rw [hvalue]
      show buf.2 + 1 + 1 + 1 + 8 ≤ BUFMAX
      omega
  · simp only [putReg, Traced.value_bind]
    show (mem2hex _ _ _ _ _).value.2 + 1 = _
    rw [hvalue]
    rfl

/-- `?` stays within. -/
theorem own_cmdStatus : (cmdStatus s).Within (Own s) := by
  have hsignal : ∀ w : Word, Own s (.signal (w &&& 7).toNat) := by
    intro w
    show (w &&& 7).toNat < 8
    rw [BitVec.toNat_and]
    exact Nat.lt_succ_of_le Nat.and_le_right
  have hpc : ∀ buf : (Nat → Byte) × Nat, buf.2 = 3 →
      (putReg s buf LM32_REG_PC).Within (Own s) ∧ (putReg s buf LM32_REG_PC).value.2 = 15 := by
    intro buf hbuf
    have h := own_putReg (s := s) buf LM32_REG_PC (by decide)
      (by rw [hbuf]; decide)
    rwa [hbuf] at h
  have hsp : ∀ buf : (Nat → Byte) × Nat, buf.2 = 15 →
      (putReg s buf LM32_REG_SP).Within (Own s) ∧ (putReg s buf LM32_REG_SP).value.2 = 27 := by
    intro buf hbuf
    have h := own_putReg (s := s) buf LM32_REG_SP (by decide)
      (by rw [hbuf]; decide)
    rwa [hbuf] at h
  simp only [cmdStatus, Traced.within_bind_iff, Traced.within_touch_iff, Traced.within_pure_iff,
    and_true]
  refine ⟨own_readWord (by decide), hsignal _, (own_put (Nat.zero_le _)).1, (own_put ?_).1,
    (own_put ?_).1, (hpc _ rfl).1, (hsp _ (hpc _ rfl).2).1, (own_put ?_).1⟩
  · show 1 ≤ BUFMAX
    decide
  · show 2 ≤ BUFMAX
    decide
  · rw [(hsp _ (hpc _ rfl).2).2]
    decide

/-- `g` stays within. -/
theorem own_cmdGetregs : (cmdGetregs s).Within (Own s) := by
  refine Traced.within_bind_iff.2 ⟨within_mem2hex.2 ⟨fun i _ hi => ?_, fun i hi => ?_⟩,
    Traced.within_pure _⟩
  · exact Nat.le_trans hi (by decide)
  · simp only [Own, Covers, NUM_REGS] at hi ⊢
    bv_omega

/-- `G` stays within. -/
theorem own_cmdSetregs : (cmdSetregs s).Within (Own s) := by
  refine Traced.within_bind_iff.2 ⟨within_hex2mem.2 ⟨fun i _ hi => ?_, fun i hi => ?_⟩,
    own_reply (by decide)⟩
  · exact Nat.le_trans (Nat.le_of_lt hi) (by decide)
  · simp only [Own, Covers, NUM_REGS] at hi ⊢
    bv_omega

/-- `c` and `s` stay within. -/
theorem own_cmdContinuestep (hend : s.remcomInBuffer BUFMAX = 0) :
    (cmdContinuestep s).Within (Own s) := by
  have harg := within_hexArg (P := Own s) (fun _ hi => hi) hend (show 1 ≤ BUFMAX by decide)
  rw [cmdContinuestep, Traced.within_bind_iff, Traced.within_bind_iff, within_getIn_bind]
  refine ⟨harg.1, ?_, Nat.zero_le _, ?_⟩
  · cases (hexArg s.remcomInBuffer 1).value with
    | none => exact Traced.within_pure _
    | some r => exact (own_writeWord (by decide)).bind (Traced.within_pure _)
  · split_ifs <;> exact Traced.within_pure _

/-- `q` stays within. -/
theorem own_cmdQuery : (cmdQuery s).Within (Own s) := by
  rw [cmdQuery, Traced.within_bind_iff]
  refine ⟨within_memcmp fun i hi => Nat.le_of_lt (Nat.lt_trans hi (by decide)), ?_⟩
  split_ifs
  · exact own_reply (by decide)
  · exact Traced.within_pure _

/-- The breakpoint registers are those of the table. -/
theorem own_setHwBreakpoint {address : Word} : (setHwBreakpoint s address).Within (Own s) := by
  have huse : ∀ i < 4, (useBreakpoint s i address).Within (Own s) :=
    fun i hi => Traced.within_touch _ hi
  simp only [setHwBreakpoint]
  split_ifs
  · exact huse 0 (by decide)
  · exact huse 1 (by decide)
  · exact huse 2 (by decide)
  · exact huse 3 (by decide)
  · exact Traced.within_pure _

theorem own_breaksAt {i : Nat} {address : Word} (hi : i < 4) :
    (breaksAt s i address).Within (Own s) := by
  rw [breaksAt]
  split_ifs
  · exact (Traced.within_touch _ (show Own s (.bpAddress i) from hi)).bind (Traced.within_pure _)
  · exact Traced.within_pure _

theorem own_disableHwBreakpoint {address : Word} :
    (disableHwBreakpoint s address).Within (Own s) := by
  rw [disableHwBreakpoint, Traced.within_bind_iff]
  refine ⟨own_breaksAt (by decide), ?_⟩
  split_ifs
  · exact Traced.within_pure _
  refine (own_breaksAt (by decide)).bind ?_
  split_ifs
  · exact Traced.within_pure _
  refine (own_breaksAt (by decide)).bind ?_
  split_ifs
  · exact Traced.within_pure _
  refine (own_breaksAt (by decide)).bind ?_
  split_ifs <;> exact Traced.within_pure _

/-- A watchpoint loop of at most four iterations. -/
theorem own_find {p : WpLoop → Traced Touch Bool}
    (hp : ∀ l : WpLoop, l.i < 4 → (p l).Within (Own s))
    (count : Nat) {l : WpLoop} (hcount : l.i + count ≤ 4) :
    (find p count l).Within (Own s) ∧ ∀ r, (find p count l).value = some r → r.i < 4 := by
  induction count generalizing l with
  | zero => exact ⟨Traced.within_pure _, by rintro r ⟨⟩⟩
  | succ count ih =>
      have hl : l.i < 4 := by omega
      obtain ⟨hrest, hfound⟩ := ih (l := l.next) (by show l.i + 1 + count ≤ 4; omega)
      rw [find, Traced.within_bind_iff, Traced.value_bind, Traced.value_ite, Traced.value_pure]
      refine ⟨⟨hp l hl, ?_⟩, fun r hr => ?_⟩
      · split_ifs
        · exact Traced.within_pure _
        · exact hrest
      · split_ifs at hr
        · cases hr
          exact hl
        · exact hfound r hr

theorem own_setHwWatchpoint {address : Word} {mode : Byte}
    (hcfg : (s.cfg >>> 22 &&& 0xf).toNat ≤ 4) :
    (setHwWatchpoint s address mode).Within (Own s) := by
  have hfind := own_find (s := s) (p := fun l => pure (!test s.bpwpEnabled l.bit))
    (fun _ _ => Traced.within_pure _) (s.cfg >>> 22 &&& 0xf).toNat (l := .start mode)
    (by show 0 + _ ≤ 4; omega)
  rw [setHwWatchpoint, Traced.within_bind_iff]
  refine ⟨hfind.1, ?_⟩
  cases hl : (find (fun l => pure (!test s.bpwpEnabled l.bit)) (s.cfg >>> 22 &&& 0xf).toNat
      (.start mode)).value with
  | none => exact Traced.within_pure _
  | some l => exact Traced.within_touch _ (hfind.2 l hl)

theorem own_disableHwWatchpoint {address : Word} {mode : Byte} :
    (disableHwWatchpoint s address mode).Within (Own s) := by
  have hwatches : ∀ l : WpLoop, l.i < 4 → (watches s address l).Within (Own s) := by
    intro l hl
    rw [watches]
    split_ifs
    · exact (Traced.within_touch _ (show Own s (.wpAddress l.i) from hl)).bind
        (Traced.within_pure _)
    · exact Traced.within_pure _
  rw [disableHwWatchpoint, Traced.within_bind_iff]
  refine ⟨(own_find hwatches 4 (l := .start mode) (Nat.le_refl 4)).1, ?_⟩
  cases (find (watches s address) 4 (.start mode)).value <;> exact Traced.within_pure _

theorem own_changeBreak {insert remove : Traced Touch (Bool × Stub)}
    (hinsert : insert.Within (Own s))
    (hremove : remove.Within (Own s)) : (changeBreak s insert remove).Within (Own s) := by
  rw [changeBreak, within_getIn_bind, Traced.within_bind_iff]
  refine ⟨Nat.zero_le _, ?_, own_reply ?_⟩
  · split_ifs
    · exact hinsert
    · exact hremove
  · split_ifs <;> decide

/-- `z` and `Z` stay within. -/
theorem own_cmdBreak (hend : s.remcomInBuffer BUFMAX = 0)
    (hcfg : (s.cfg >>> 22 &&& 0xf).toNat ≤ 4) : (cmdBreak s).Within (Own s) := by
  rw [cmdBreak, Traced.within_bind_iff]
  refine ⟨within_breakArgs (fun _ hi => hi) hend, ?_⟩
  cases (breakArgs s.remcomInBuffer).value with
  | none => exact own_reply (by decide)
  | some addr =>
      simp only [within_getIn_bind]
      refine ⟨show 1 ≤ BUFMAX by decide, ?_⟩
      split_ifs
      · exact own_changeBreak own_setHwBreakpoint own_disableHwBreakpoint
      · cases watchMode (s.remcomInBuffer 1) with
        | none => exact Traced.within_pure _
        | some mode =>
            exact own_changeBreak (own_setHwWatchpoint hcfg) own_disableHwWatchpoint

/-- `p` stays within exactly for a saved register. -/
theorem own_cmdRegGet_iff (hend : s.remcomInBuffer BUFMAX = 0) :
    (cmdRegGet s).Within (Own s) ↔
      ∀ r, Gdbstub.hexArg s.remcomInBuffer 1 = some r → (r.1 * 4).toNat < NUM_REGS * 4 := by
  have harg := within_hexArg (P := Own s) (fun _ hi => hi) hend (show 1 ≤ BUFMAX by decide)
  rw [cmdRegGet, Traced.within_bind_iff, hexArg_value]
  cases hread : Gdbstub.hexArg s.remcomInBuffer 1 with
  | none => exact iff_of_true ⟨harg.1, own_reply (by decide)⟩ (by rintro r ⟨⟩)
  | some r =>
      simp only [Option.some.injEq, forall_eq', Traced.within_bind_iff, Traced.within_pure_iff,
        and_true]
      constructor
      · rintro ⟨-, hdigits⟩
        by_contra hreg
        exact not_own_regAddr hreg ((within_mem2hex.1 hdigits).2 0 (by decide))
      · intro hreg
        exact ⟨harg.1, own_mem2hex hreg (by decide)⟩

/-- `P` stays within exactly for a saved register and digits within the buffer. -/
theorem own_cmdRegSet_iff (hend : s.remcomInBuffer BUFMAX = 0) :
    (cmdRegSet s).Within (Own s) ↔
      ∀ r, Gdbstub.setArgs s.remcomInBuffer = some r →
        (r.1 * 4).toNat < NUM_REGS * 4 ∧ r.2 + 7 ≤ BUFMAX := by
  have hargs := within_setArgs (P := Own s) (fun _ hi => hi) hend
  rw [cmdRegSet, Traced.within_bind_iff, setArgs_value]
  cases hread : Gdbstub.setArgs s.remcomInBuffer with
  | none => exact iff_of_true ⟨hargs, own_reply (by decide)⟩ (by rintro r ⟨⟩)
  | some r =>
      simp only [Option.some.injEq, forall_eq', Traced.within_bind_iff, within_hex2mem]
      constructor
      · rintro ⟨-, ⟨hin, hmem⟩, -⟩
        refine ⟨?_, hin (r.2 + 7) (by omega) (by omega)⟩
        by_contra hreg
        exact not_own_regAddr hreg (hmem 0 (by decide))
      · rintro ⟨hreg, hptr⟩
        refine ⟨hargs, ⟨fun i _ hi => ?_, fun i hi => own_regAddr hreg hi⟩, own_reply (by decide)⟩
        show i ≤ BUFMAX
        omega

end Commands

/-- `p` names a saved register, and so does `P`, whose digits are within the packet buffer. -/
def Harmless (buf : Nat → Byte) : Prop :=
  (buf 0 = ascii 'p' → ∀ r, Gdbstub.hexArg buf 1 = some r → (r.1 * 4).toNat < NUM_REGS * 4) ∧
  (buf 0 = ascii 'P' → ∀ r, Gdbstub.setArgs buf = some r →
    (r.1 * 4).toNat < NUM_REGS * 4 ∧ r.2 + 7 ≤ BUFMAX)

/-- A packet for another command is harmless. -/
theorem harmless_of_ne {buf : Nat → Byte} {c : Char} (hin : buf 0 = ascii c)
    (hp : ascii c ≠ ascii 'p') (hP : ascii c ≠ ascii 'P') : Harmless buf :=
  ⟨fun h => absurd (hin.symm.trans h) hp, fun h => absurd (hin.symm.trans h) hP⟩

/-- The commands that name no memory range stay within the stub's own structures exactly for
harmless packets. -/
theorem own_execute_iff (s : Stub) {c : Char}
    (hc : c ∈ ['?', 'g', 'G', 'p', 'P', 'q', 'z', 'Z', 'c', 's'])
    (hin : s.remcomInBuffer 0 = ascii c) (hend : s.remcomInBuffer BUFMAX = 0)
    (hcfg : (s.cfg >>> 22 &&& 0xf).toNat ≤ 4) :
    (execute s).value = s.execute ∧ ((execute s).Within (Own s) ↔ Harmless s.remcomInBuffer) := by
  refine ⟨execute_value, ?_⟩
  have hrun : (execute s).Within (Own s) ↔ (command s (ascii c)).1.Within (Own s) := by
    rw [execute, within_getIn_bind, hin, Traced.within_bind_iff, Traced.within_pure_iff, and_true]
    exact and_iff_right (Nat.zero_le _)
  rw [hrun]
  simp only [List.mem_cons, List.not_mem_nil, or_false] at hc
  obtain rfl | rfl | rfl | rfl | rfl | rfl | rfl | rfl | rfl | rfl := hc
  · exact iff_of_true own_cmdStatus (harmless_of_ne hin (by decide) (by decide))
  · exact iff_of_true own_cmdGetregs (harmless_of_ne hin (by decide) (by decide))
  · exact iff_of_true own_cmdSetregs (harmless_of_ne hin (by decide) (by decide))
  · refine (own_cmdRegGet_iff hend).trans ⟨fun h => ⟨fun _ => h, fun hP => ?_⟩, fun h => h.1 hin⟩
    exact absurd (hin.symm.trans hP) (by decide)
  · refine (own_cmdRegSet_iff hend).trans ⟨fun h => ⟨fun hp => ?_, fun _ => h⟩, fun h => h.2 hin⟩
    exact absurd (hin.symm.trans hp) (by decide)
  · exact iff_of_true own_cmdQuery (harmless_of_ne hin (by decide) (by decide))
  · exact iff_of_true (own_cmdBreak hend hcfg) (harmless_of_ne hin (by decide) (by decide))
  · exact iff_of_true (own_cmdBreak hend hcfg) (harmless_of_ne hin (by decide) (by decide))
  · exact iff_of_true (own_cmdContinuestep hend) (harmless_of_ne hin (by decide) (by decide))
  · exact iff_of_true (own_cmdContinuestep hend) (harmless_of_ne hin (by decide) (by decide))

/-- The last saved register is read within. -/
theorem own_execute_last :
    (execute ((Stub.boot fun _ => 0).deliver (text "p24"))).Within
      (Own ((Stub.boot fun _ => 0).deliver (text "p24"))) := by
  have hread : Gdbstub.hexArg ((Stub.boot fun _ => 0).deliver (text "p24")).remcomInBuffer 1 =
      some (0x24, 3) := by decide
  refine (own_execute_iff ((Stub.boot fun _ => 0).deliver (text "p24")) (c := 'p') (by decide)
    (by decide) (by decide) (by decide)).2.2 ⟨fun _ r hr => ?_, fun h => absurd h (by decide)⟩
  obtain rfl := Option.some.inj (hread.symm.trans hr)
  decide

/-- The register behind the saved ones is read as well. -/
theorem register_not_checked :
    ¬ (execute ((Stub.boot fun _ => 0).deliver (text "p25"))).Within
      (Own ((Stub.boot fun _ => 0).deliver (text "p25"))) := by
  intro h
  have hcmd := (within_getIn_bind.1 h).2.of_bind.1
  have hread : Gdbstub.hexArg ((Stub.boot fun _ => 0).deliver (text "p25")).remcomInBuffer 1 =
      some (0x25, 3) := by decide
  exact absurd ((own_cmdRegGet_iff (by decide)).1 hcmd _ hread) (by decide)

end Access

end Soc.Gdbstub
