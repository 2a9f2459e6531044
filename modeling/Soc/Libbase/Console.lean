import Soc.Gdbstub.Hex
import Soc.Libbase.Uart
import Soc.Library.Traced

/-!
# Console output

`writechar` and `putsnonl` of `libbase/console.c`, built with `-fsigned-char`. Console output goes
to a debugger as a packet of the serial protocol: `O`, two hexadecimal digits for every character,
and a checksum. The digits come from a table that is indexed by a signed character.
-/

namespace Soc.Libbase

open Gdbstub (ascii hex charSum HexOf Checks unhex)
open Library (Traced)

namespace Console

/-- What the output code touches: the interrupt mask, an element of `large_digits`, `uart_write`,
and the write hook. -/
inductive Touch where
  | setmask (mask : Word)
  | digit (index : Int)
  | uartWrite (c : Byte)
  | writeHook (c : Byte)
  deriving DecidableEq

/-- The static variables of `console.c` that output depends on: the flag, and whether there is a
write hook. -/
structure Settings where
  useGdbConsoleOutput : Byte
  writeHook : Bool

/-- `large_digits`, with the NUL at its end. -/
def largeDigits : List Byte := Gdbstub.text "0123456789ABCDEFGHIJKLMNOPQRSTUVWXYZ" ++ [0]

/-- The index is one of the table. -/
def InTable (index : Int) : Prop := 0 ≤ index ∧ index < 37

instance : DecidablePred InTable := fun index =>
  inferInstanceAs (Decidable (0 ≤ index ∧ index < 37))

section Output

variable (k : Settings) (around : Int → Byte)

/-- `large_digits[index]`. Outside the table it is whatever is there in memory. -/
def largeDigit (index : Int) : Traced Touch Byte :=
  .touch (.digit index) (if InTable index then largeDigits.getD index.toNat 0 else around index)

/-- `writechar`. -/
def writechar (c : Byte) : Traced Touch Unit := do
  .touch (.uartWrite c) ()
  if k.writeHook then .touch (.writeHook c) () else pure ()

/-- `*s >> 4`: the character is signed, and promoted to `int`. -/
def highIndex (c : Byte) : Int := ((c.signExtend 32).sshiftRight 4).toInt

/-- `*s & 0xF`. -/
def lowIndex (c : Byte) : Int := (c.signExtend 32 &&& 0xf : Word).toInt

/-- The loop of `putsnonl`, and `checksum` after it. `s` is the memory from the string on. -/
def putsnonlFrom : List Byte → Byte → Traced Touch Byte
  | [], checksum => pure checksum
  | c :: s, checksum =>
      if c = 0 then pure checksum
      else if k.useGdbConsoleOutput ≠ 0 then do
        let high ← largeDigit around (highIndex c)
        writechar k high
        let low ← largeDigit around (lowIndex c)
        writechar k low
        putsnonlFrom s (checksum + high + low)
      else do
        writechar k c
        putsnonlFrom s checksum

/-- `putsnonl`. `oldmask` is the interrupt mask before, and the checksum starts with `O`. -/
def putsnonl (oldmask : Word) (s : List Byte) : Traced Touch Unit := do
  .touch (.setmask IRQ_UART) ()
  if k.useGdbConsoleOutput ≠ 0 then do
    writechar k (ascii '$')
    writechar k (ascii 'O')
  else pure ()
  let checksum ← putsnonlFrom k around s (ascii 'O')
  if k.useGdbConsoleOutput ≠ 0 then do
    writechar k (ascii '#')
    let high ← largeDigit around (checksum.setWidth 32 >>> 4 : Word).toInt
    writechar k high
    let low ← largeDigit around (checksum.setWidth 32 &&& 0xf : Word).toInt
    writechar k low
  else pure ()
  .touch (.setmask oldmask) ()

end Output

/-- The characters that are written. -/
def written (trace : List Touch) : List Byte :=
  trace.filterMap fun e => if let .uartWrite c := e then some c else none

/-- An index of the digit table is in range. -/
def InRange : Touch → Prop
  | .digit index => InTable index
  | .setmask _ | .uartWrite _ | .writeHook _ => True

/-- The characters are an `O` packet with the text `s`. -/
def IsPacket (s chars : List Byte) : Prop :=
  ∃ digits high low, chars = ascii '$' :: ascii 'O' :: digits ++ [ascii '#', high, low] ∧
    HexOf digits s ∧ unhex digits = s ∧ Checks (ascii 'O' :: digits) high low

section Digits

/-- The high digit of a character is in the table if the character is not negative. -/
theorem inTable_highIndex_iff : ∀ c : Byte, InTable (highIndex c) ↔ c.toNat < 128 := by
  decide

theorem highIndex_eq : ∀ c : Byte, c.toNat < 128 → highIndex c = (c.toNat / 16 : Nat) := by
  decide

/-- The low digit is always in the table. -/
theorem lowIndex_eq : ∀ c : Byte, lowIndex c = (c.toNat % 16 : Nat) := by
  decide

/-- The digits of the checksum are. -/
theorem checksumIndex_eq : ∀ c : Byte,
    (c.setWidth 32 >>> 4 : Word).toInt = (c.toNat / 16 : Nat) ∧
      (c.setWidth 32 &&& 0xf : Word).toInt = (c.toNat % 16 : Nat) := by
  decide

theorem inTable_checksum : ∀ c : Byte,
    InTable (c.toNat / 16 : Nat) ∧ InTable (c.toNat % 16 : Nat) := by
  decide

/-- A digit of the table. -/
theorem largeDigits_hex : ∀ d < 16, InTable (d : Nat) ∧ hex (largeDigits.getD d 0) = d := by
  decide

variable (around : Int → Byte)

/-- A digit that is looked up in the table. -/
theorem largeDigit_hex {d : Nat} (hd : d < 16) : hex (largeDigit around d).value = d := by
  obtain ⟨htable, hhex⟩ := largeDigits_hex d hd
  rw [largeDigit, Traced.value_touch, if_pos htable]
  exact hhex

/-- The digits that are written for a text. -/
def digits (s : List Byte) : List Byte :=
  s.flatMap fun c =>
    [(largeDigit around (highIndex c)).value, (largeDigit around (lowIndex c)).value]

theorem digits_cons (c : Byte) (s : List Byte) :
    digits around (c :: s) = (largeDigit around (highIndex c)).value ::
      (largeDigit around (lowIndex c)).value :: digits around s := rfl

/-- They are the digits of the text if no character is negative. -/
theorem hexOf_digits {s : List Byte} (h : ∀ c ∈ s, c.toNat < 128) : HexOf (digits around s) s := by
  induction s with
  | nil => rfl
  | cons c s ih =>
      have hc := h c List.mem_cons_self
      have hlt := c.isLt
      have hrest := ih fun c hc => h c (List.mem_cons_of_mem _ hc)
      rw [HexOf] at hrest ⊢
      rw [digits_cons, highIndex_eq c hc, lowIndex_eq c, List.map_cons, List.map_cons, hrest,
        largeDigit_hex around (by omega), largeDigit_hex around (by omega)]
      rfl

end Digits

section Trace

variable {k : Settings} (around : Int → Byte) {s : List Byte} (rest : List Byte)
  {t t' : List Touch}

@[simp] theorem written_nil : written [] = [] := rfl

@[simp] theorem written_append : written (t ++ t') = written t ++ written t' :=
  List.filterMap_append

@[simp] theorem written_setmask (mask : Word) : written (.setmask mask :: t) = written t := rfl

@[simp] theorem written_digit (index : Int) :
    written (largeDigit around index).trace = [] := rfl

@[simp] theorem written_writechar (c : Byte) : written (writechar k c).trace = [c] := by
  rw [writechar]
  cases k.writeHook <;> rfl

@[simp] theorem within_writechar (c : Byte) : (writechar k c).Within InRange := by
  rw [writechar]
  cases k.writeHook <;> simp [InRange]

@[simp] theorem within_largeDigit (index : Int) :
    (largeDigit around index).Within InRange ↔ InTable index :=
  Traced.within_touch_iff _

/-- What the loop writes, and the checksum after it. -/
theorem putsnonlFrom_spec (hflag : k.useGdbConsoleOutput ≠ 0) (hs : ∀ c ∈ s, c ≠ 0)
    (checksum : Byte) :
    (putsnonlFrom k around (s ++ 0 :: rest) checksum).value =
        checksum + .ofNat 8 (charSum (digits around s)) ∧
      written (putsnonlFrom k around (s ++ 0 :: rest) checksum).trace = digits around s ∧
      ((putsnonlFrom k around (s ++ 0 :: rest) checksum).Within InRange ↔
        ∀ c ∈ s, c.toNat < 128) := by
  induction s generalizing checksum with
  | nil => simp [putsnonlFrom, digits]
  | cons c s ih =>
      have hc : c ≠ 0 := hs c List.mem_cons_self
      obtain ⟨hvalue, hwritten, hwithin⟩ := ih (fun c hc => hs c (List.mem_cons_of_mem _ hc))
        (checksum + (largeDigit around (highIndex c)).value +
          (largeDigit around (lowIndex c)).value)
      have hlow : InTable (lowIndex c) := by
        rw [lowIndex_eq]
        exact (largeDigits_hex _ (by omega)).1
      rw [List.cons_append, putsnonlFrom, if_neg hc, if_pos hflag]
      refine ⟨?_, ?_, ?_⟩
      · simp only [Traced.value_bind]
        rw [hvalue, digits_cons, Gdbstub.charSum_cons, Gdbstub.charSum_cons, ← Nat.add_assoc,
          BitVec.ofNat_add, BitVec.ofNat_add, BitVec.ofNat_toNat, BitVec.ofNat_toNat,
          BitVec.setWidth_eq, BitVec.setWidth_eq, BitVec.add_assoc, BitVec.add_assoc,
          BitVec.add_assoc]
      · simp only [Traced.trace_bind, written_append, written_digit, written_writechar, hwritten,
          digits_cons, List.nil_append, List.cons_append]
      · simp only [Traced.within_bind_iff, within_largeDigit, within_writechar, hwithin, hlow,
          inTable_highIndex_iff, true_and, List.forall_mem_cons]

/-- What `putsnonl` writes. -/
theorem written_putsnonl (hflag : k.useGdbConsoleOutput ≠ 0) (hs : ∀ c ∈ s, c ≠ 0)
    (oldmask : Word) :
    ∃ checksum : Byte, checksum = .ofNat 8 (charSum (ascii 'O' :: digits around s)) ∧
      written (putsnonl k around oldmask (s ++ 0 :: rest)).trace =
        ascii '$' :: ascii 'O' :: digits around s ++ [ascii '#',
          (largeDigit around (checksum.toNat / 16 : Nat)).value,
          (largeDigit around (checksum.toNat % 16 : Nat)).value] ∧
      ((putsnonl k around oldmask (s ++ 0 :: rest)).Within InRange ↔ ∀ c ∈ s, c.toNat < 128) := by
  obtain ⟨hvalue, hwritten, hwithin⟩ := putsnonlFrom_spec around rest hflag hs (ascii 'O')
  have hsum : (putsnonlFrom k around (s ++ 0 :: rest) (ascii 'O')).value =
      .ofNat 8 (charSum (ascii 'O' :: digits around s)) := by
    rw [hvalue, Gdbstub.charSum_cons, BitVec.ofNat_add, BitVec.ofNat_toNat, BitVec.setWidth_eq]
  refine ⟨_, hsum, ?_, ?_⟩
  · simp only [putsnonl, if_pos hflag, Traced.trace_bind, Traced.trace_touch, written_append,
      written_setmask, written_nil, written_digit, written_writechar, hwritten, checksumIndex_eq]
    rfl
  · simp only [putsnonl, if_pos hflag, Traced.within_bind_iff, Traced.within_touch_iff,
      within_largeDigit, within_writechar, hwithin, InRange, checksumIndex_eq, inTable_checksum,
      true_and, and_true]

end Trace

section Packet

variable {k : Settings} {around : Int → Byte} {s rest : List Byte}

/-- Output is a packet, with all digits from the table, exactly if no character is negative. -/
theorem output_packet_iff (hflag : k.useGdbConsoleOutput ≠ 0) (hs : ∀ c ∈ s, c ≠ 0)
    (oldmask : Word) :
    ((putsnonl k around oldmask (s ++ 0 :: rest)).Within InRange ∧
        IsPacket s (written (putsnonl k around oldmask (s ++ 0 :: rest)).trace)) ↔
      ∀ c ∈ s, c.toNat < 128 := by
  obtain ⟨checksum, hsum, hwritten, hwithin⟩ :=
    written_putsnonl around rest hflag hs oldmask
  rw [hwithin, hwritten]
  refine ⟨And.left, fun h => ⟨h, digits around s, _, _, rfl, hexOf_digits around h,
    (hexOf_digits around h).unhex_eq, ?_⟩⟩
  have hlt := checksum.isLt
  have htoNat : checksum.toNat = charSum (ascii 'O' :: digits around s) % 256 := by
    rw [hsum, BitVec.toNat_ofNat]
  rw [Checks, largeDigit_hex around (by omega), largeDigit_hex around (by omega), ← htoNat]
  omega

/-- A text of one character. -/
theorem output_packet_A :
    (putsnonl ⟨1, false⟩ (fun _ => 0) 0 ([ascii 'A'] ++ 0 :: [])).Within InRange ∧
      IsPacket [ascii 'A'] (written (putsnonl ⟨1, false⟩ (fun _ => 0) 0
        ([ascii 'A'] ++ 0 :: [])).trace) :=
  (output_packet_iff (by decide) (by decide) 0).2 (by decide)

/-- The high digit of 0x80 is looked up in front of the table. -/
theorem digit_escapes :
    .digit (-8) ∈ (putsnonl ⟨1, false⟩ (fun _ => 0) 0 ([0x80] ++ 0 :: [])).trace ∧
      ¬ ((putsnonl ⟨1, false⟩ (fun _ => 0) 0 ([0x80] ++ 0 :: [])).Within InRange ∧
        IsPacket [0x80] (written (putsnonl ⟨1, false⟩ (fun _ => 0) 0
          ([0x80] ++ 0 :: [])).trace)) := by
  have hdigit : .digit (-8) ∈
      (putsnonl ⟨1, false⟩ (fun _ => 0) 0 ([0x80] ++ 0 :: [])).trace := by decide
  refine ⟨hdigit, fun h => ?_⟩
  exact absurd (h.1 _ hdigit) (show ¬ InTable (-8) by decide)

end Packet

end Console

end Soc.Libbase
