import Mathlib.Logic.Function.Basic
import Soc.Lm32.Debug

/-!
# The state of the GDB stub

The static data of `gdbstub.c`, the part of the machine it acts on, and its conversion
helpers. Target memory is one function on addresses; the saved registers are the 37 words
of it at `registers`, so that a register number out of range reaches the memory behind
them, as it does in C. The static data is not part of that memory. `char` is a byte; where
C converts it to a wider integer the sign extension is written out.
-/

namespace Soc.Gdbstub

/-- The byte of a character constant. -/
def ascii (c : Char) : Byte := .ofNat 8 c.toNat

/-- The bytes of a string constant, without the terminating NUL. -/
def text (s : String) : List Byte := s.toList.map ascii

/-- `BUFMAX`. -/
def BUFMAX : Nat := 800

/-- `NUM_REGS`. -/
def NUM_REGS : Nat := 37

/-- `LM32_REG_SP`. -/
def LM32_REG_SP : Nat := 28

/-- `LM32_REG_PC`. -/
def LM32_REG_PC : Nat := 32

/-- `LM32_REG_EID`. -/
def LM32_REG_EID : Nat := 33

/-- The stub's static data (`remcom_in_buffer` to `dc`), and what it reads and writes: the CFG
and debug CSRs, target memory with the saved registers at `registers`, and the scratchpad
register of the system controller. `written` is the last value `wcsr` wrote to each CSR. -/
structure Stub where
  remcomInBuffer : Nat → Byte
  remcomOutBuffer : Nat → Byte
  bpAddress : Nat → Word
  wpAddress : Nat → Word
  bpwpEnabled : Word
  gdbConnected : Bool
  dc : Word
  cfg : Word
  debug : Lm32.Debug
  written : BitVec 5 → Option Word
  mem : Word → Byte
  registers : Word
  scratchpad : Byte

/-- The instruction `wcsr csr, value`. -/
def Stub.wcsr (s : Stub) (csr : BitVec 5) (value : Word) : Stub :=
  { s with
    debug := s.debug.write csr value
    written := Function.update s.written csr (some value) }

section Wcsr

variable (s : Stub) (csr : BitVec 5) (value : Word)

@[simp] theorem Stub.wcsr_bpwpEnabled : (s.wcsr csr value).bpwpEnabled = s.bpwpEnabled := rfl

@[simp] theorem Stub.wcsr_bpAddress : (s.wcsr csr value).bpAddress = s.bpAddress := rfl

@[simp] theorem Stub.wcsr_dc : (s.wcsr csr value).dc = s.dc := rfl

@[simp] theorem Stub.wcsr_scratchpad : (s.wcsr csr value).scratchpad = s.scratchpad := rfl

@[simp] theorem Stub.wcsr_written :
    (s.wcsr csr value).written = Function.update s.written csr (some value) := rfl

end Wcsr

/-- `strcpy(&buf[pos], s)` for a string constant. -/
def strcpy (buf : Nat → Byte) (pos : Nat) : List Byte → Nat → Byte
  | [] => Function.update buf pos 0
  | c :: s => strcpy (Function.update buf pos c) (pos + 1) s

/-- Leave `s` in `remcom_out_buffer`. -/
def Stub.reply (st : Stub) (s : String) : Stub :=
  { st with remcomOutBuffer := strcpy st.remcomOutBuffer 0 (text s) }

/-- `remcom_out_buffer` holds the string `s`. -/
def Stub.Replies (st : Stub) (s : String) : Prop :=
  (List.range ((text s).length + 1)).map st.remcomOutBuffer = text s ++ [0]

/-- `hexchars`. -/
def hexchars : List Byte := text "0123456789abcdef"

/-- `highhex`. -/
def highhex (x : Byte) : Byte := hexchars.getD (x.toNat / 16) 0

/-- `lowhex`. -/
def lowhex (x : Byte) : Byte := hexchars.getD (x.toNat % 16) 0

/-- `hex`: the value of a hex digit, or -1. -/
def hex (ch : Byte) : Int :=
  if ascii 'a' ≤ ch ∧ ch ≤ ascii 'f' then ch.toNat - (ascii 'a').toNat + 10
  else if ascii '0' ≤ ch ∧ ch ≤ ascii '9' then ch.toNat - (ascii '0').toNat
  else if ascii 'A' ≤ ch ∧ ch ≤ ascii 'F' then ch.toNat - (ascii 'A').toNat + 10
  else -1

/-- `mem2hex`: the buffer after the digits of `count` bytes and a NUL, and where the NUL is. -/
def mem2hex (mem : Word → Byte) (addr : Word) (buf : Nat → Byte) (out : Nat) :
    Nat → (Nat → Byte) × Nat
  | 0 => (Function.update buf out 0, out)
  | count + 1 =>
      mem2hex mem (addr + 1)
        (Function.update (Function.update buf out (highhex (mem addr))) (out + 1)
          (lowhex (mem addr)))
        (out + 2) count

/-- `hex2mem`: memory after `count` bytes were written from the digits at `buf[pos]`. A character
that is no digit counts as -1. -/
def hex2mem (buf : Nat → Byte) (pos : Nat) (mem : Word → Byte) (addr : Word) :
    Nat → Word → Byte
  | 0 => mem
  | count + 1 =>
      hex2mem buf (pos + 2)
        (Function.update mem addr
          (BitVec.ofInt 8 (hex (buf pos)) <<< 4 ||| BitVec.ofInt 8 (hex (buf (pos + 1)))))
        (addr + 1) count

/-- `bin2mem`: the same for binary data, in which 0x7d escapes the character after it. -/
def bin2mem (buf : Nat → Byte) (pos : Nat) (mem : Word → Byte) (addr : Word) :
    Nat → Word → Byte
  | 0 => mem
  | count + 1 =>
      if buf pos = 0x7d then
        bin2mem buf (pos + 2) (Function.update mem addr (buf (pos + 1) ^^^ 0x20)) (addr + 1) count
      else bin2mem buf (pos + 1) (Function.update mem addr (buf pos)) (addr + 1) count

/-- The number a `hex2int` has read so far, the digits it took and its position. -/
structure HexInt where
  value : Word
  numChars : Nat
  ptr : Nat

/-- The loop of `hex2int`, for a string of at most `fuel` characters. -/
def hex2intFrom (buf : Nat → Byte) : Nat → HexInt → HexInt
  | 0, r => r
  | fuel + 1, r =>
      if buf r.ptr = 0 then r
      else if hex (buf r.ptr) < 0 then r
      else hex2intFrom buf fuel
        ⟨r.value <<< 4 ||| BitVec.ofInt 32 (hex (buf r.ptr)), r.numChars + 1, r.ptr + 1⟩

/-- `hex2int`. Both packet buffers are shorter than the fuel. -/
def hex2int (buf : Nat → Byte) (ptr : Nat) : HexInt :=
  hex2intFrom buf (BUFMAX + 1) ⟨0, 0, ptr⟩

/-- The test `hex2int(&ptr, &value) > 0`: the value and the new `ptr`. -/
def hexArg (buf : Nat → Byte) (ptr : Nat) : Option (Word × Nat) :=
  let r := hex2int buf ptr
  if r.numChars > 0 then some (r.value, r.ptr) else none

/-- The test `*ptr++ == c`: the new `ptr`. -/
def charArg (buf : Nat → Byte) (ptr : Nat) (c : Char) : Option Nat :=
  if buf ptr = ascii c then some (ptr + 1) else none

/-- The big-endian word at an address. -/
def readWord (mem : Word → Byte) (addr : Word) : Word :=
  mem addr ++ mem (addr + 1) ++ mem (addr + 2) ++ mem (addr + 3)

/-- A packet was received into `remcom_in_buffer`, and the reply to it is empty so far. -/
def Stub.receive (s : Stub) (packet : Nat → Byte) : Stub :=
  { s with
    remcomInBuffer := packet
    remcomOutBuffer := Function.update s.remcomOutBuffer 0 0 }

@[simp] theorem Stub.receive_remcomInBuffer (s : Stub) (packet : Nat → Byte) :
    (s.receive packet).remcomInBuffer = packet := rfl

/-- The packet with the characters of `s`. -/
def packet (s : String) (i : Nat) : Byte := (text s).getD i 0

/-- The address of `registers[reg]`. -/
def Stub.regAddr (s : Stub) (reg : Word) : Word :=
  s.registers + reg * 4

/-- Memory with the word at an address replaced. -/
def writeWord (mem : Word → Byte) (addr value : Word) : Word → Byte :=
  Function.update (Function.update (Function.update (Function.update mem addr
    (value.extractLsb' 24 8)) (addr + 1) (value.extractLsb' 16 8)) (addr + 2)
    (value.extractLsb' 8 8)) (addr + 3) (value.extractLsb' 0 8)

end Soc.Gdbstub
