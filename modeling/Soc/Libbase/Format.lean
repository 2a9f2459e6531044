import Soc.Gdbstub.State
import Soc.Library.Related

/-!
# Formatting

`number` and `skip_atoi` of `libbase/libc.c`, and the loop of `vsnprintf`. Every character goes out
by the same two steps, a store that is guarded and the advance of the pointer. A `Sink` is what
these steps do, and what the store of `%n` does. Nothing else depends on how far the output has got,
so the code runs in the same way over any two sinks: this is `format_related`.
-/

namespace Soc.Libbase

open Gdbstub (ascii text)
open Library (Related)

namespace Format

/-- `PRINTF_ZEROPAD`. -/
def PRINTF_ZEROPAD : Word := 1

/-- `PRINTF_SIGN`. -/
def PRINTF_SIGN : Word := 2

/-- `PRINTF_PLUS`. -/
def PRINTF_PLUS : Word := 4

/-- `PRINTF_SPACE`. -/
def PRINTF_SPACE : Word := 8

/-- `PRINTF_LEFT`. -/
def PRINTF_LEFT : Word := 16

/-- `PRINTF_SPECIAL`. -/
def PRINTF_SPECIAL : Word := 32

/-- `PRINTF_LARGE`. -/
def PRINTF_LARGE : Word := 64

/-- An argument: a word, which an `int`, a `long`, a `size_t` and a `ptrdiff_t` all are here, a
`long long`, the bytes from where a `char *` points, which the output does not overwrite, or another
pointer. The pointer to a string may be `NULL`. -/
inductive Arg where
  | word (v : Word)
  | longlong (v : BitVec 64)
  | string (s : Option (List Byte))
  | pointer (p : Word)
  deriving DecidableEq

/-- `va_arg`. There is no result if the argument is missing or of another type. -/
def vaArg {α : Type} (f : Arg → Option α) : List Arg → Option (α × List Arg)
  | [] => none
  | a :: args => (f a).map fun x => (x, args)

/-- A word. -/
def Arg.asWord : Arg → Option Word
  | .word v => some v
  | _ => none

/-- A `long long`. -/
def Arg.asLonglong : Arg → Option (BitVec 64)
  | .longlong v => some v
  | _ => none

/-- A `char *`. -/
def Arg.asString : Arg → Option (Option (List Byte))
  | .string s => some s
  | _ => none

/-- Another pointer. -/
def Arg.asPointer : Arg → Option Word
  | .pointer p => some p
  | _ => none

section Parsing

/-- `isdigit`, on a signed character. -/
def isdigit (c : Byte) : Bool := (ascii '0').sle c && c.sle (ascii '9')

/-- The loop of `skip_atoi`: the number, and the format behind it. -/
def skipAtoiFrom (i : Word) : List Byte → Word × List Byte
  | [] => (i, [])
  | c :: fmt =>
      if isdigit c then skipAtoiFrom (i * 10 + c.signExtend 32 - (ascii '0').signExtend 32) fmt
      else (i, c :: fmt)

/-- `skip_atoi`. -/
def skipAtoi (fmt : List Byte) : Word × List Byte := skipAtoiFrom 0 fmt

/-- The cases of the switch over the flags. -/
def flagOf (c : Byte) : Option Word :=
  if c = ascii '-' then some PRINTF_LEFT
  else if c = ascii '+' then some PRINTF_PLUS
  else if c = ascii ' ' then some PRINTF_SPACE
  else if c = ascii '#' then some PRINTF_SPECIAL
  else if c = ascii '0' then some PRINTF_ZEROPAD
  else none

/-- The `repeat` loop over the flags. -/
def scanFlags (flags : Word) : List Byte → Word × List Byte
  | [] => (flags, [])
  | c :: fmt =>
      match flagOf c with
      | some flag => scanFlags (flags ||| flag) fmt
      | none => (flags, c :: fmt)

/-- `skip_atoi` reads a part of the format. -/
theorem skipAtoiFrom_length (i : Word) (fmt : List Byte) :
    (skipAtoiFrom i fmt).2.length ≤ fmt.length := by
  induction fmt generalizing i with
  | nil => exact Nat.le_refl _
  | cons c fmt ih =>
      rw [skipAtoiFrom]
      split
      · exact Nat.le_succ_of_le (ih _)
      · exact Nat.le_refl _

/-- So does the loop over the flags. -/
theorem scanFlags_length (flags : Word) (fmt : List Byte) :
    (scanFlags flags fmt).2.length ≤ fmt.length := by
  induction fmt generalizing flags with
  | nil => exact Nat.le_refl _
  | cons c fmt ih =>
      rw [scanFlags]
      split
      · exact Nat.le_succ_of_le (ih _)
      · exact Nat.le_refl _

/-- What is known of a conversion, and where the format goes on, which is a part of `n`
characters. -/
structure Directive (n : Nat) where
  flags : Word
  fieldWidth : Word
  precision : Word
  qualifier : Option Byte
  fmt : List Byte
  within : fmt.length ≤ n

namespace Directive

variable {n : Nat} (d : Directive n)

/-- The format goes on further behind. -/
def goto (fmt : List Byte) (h : fmt.length ≤ d.fmt.length) : Directive n :=
  { d with
    fmt := fmt
    within := Nat.le_trans h d.within }

/-- `get field width`. -/
def readWidth (args : List Arg) : Option (Directive n × List Arg) :=
  match hfmt : d.fmt with
  | [] => some (d, args)
  | c :: fmt =>
      let next := d.goto fmt (by rw [hfmt]; exact Nat.le_succ _)
      if isdigit c then
        let number := d.goto (skipAtoi d.fmt).2 (skipAtoiFrom_length 0 d.fmt)
        some ({ number with fieldWidth := (skipAtoi d.fmt).1 }, args)
      else if c = ascii '*' then
        (vaArg Arg.asWord args).map fun (width, args) =>
          if width.slt 0 then
            ({ next with fieldWidth := -width, flags := d.flags ||| PRINTF_LEFT }, args)
          else ({ next with fieldWidth := width }, args)
      else some (d, args)

/-- The precision behind a point: -1 if there is none. -/
def readNumber (args : List Arg) : Option (Directive n × List Arg) :=
  match hfmt : d.fmt with
  | [] => some (d, args)
  | c :: fmt =>
      let next := d.goto fmt (by rw [hfmt]; exact Nat.le_succ _)
      if isdigit c then
        let number := d.goto (skipAtoi d.fmt).2 (skipAtoiFrom_length 0 d.fmt)
        some ({ number with precision := (skipAtoi d.fmt).1 }, args)
      else if c = ascii '*' then
        (vaArg Arg.asWord args).map fun (precision, args) =>
          ({ next with precision := precision }, args)
      else some (d, args)

/-- `get the precision`. -/
def readPrecision (args : List Arg) : Option (Directive n × List Arg) :=
  match hfmt : d.fmt with
  | [] => some (d, args)
  | c :: fmt =>
      if c = ascii '.' then
        let next := d.goto fmt (by rw [hfmt]; exact Nat.le_succ _)
        (next.readNumber args).map fun (d, args) =>
          (if d.precision.slt 0 then { d with precision := 0 } else d, args)
      else some (d, args)

/-- `get the conversion qualifier`. -/
def readQualifier : Directive n :=
  match hfmt : d.fmt with
  | [] => d
  | c :: fmt =>
      if c = ascii 'h' ∨ c = ascii 'l' ∨ c = ascii 'L' ∨ c = ascii 'Z' ∨ c = ascii 'z' ∨
          c = ascii 't' then
        have hnext : fmt.length ≤ d.fmt.length := by rw [hfmt]; exact Nat.le_succ _
        if c = ascii 'l' ∧ fmt.head? = some (ascii 'l') then
          have hafter : fmt.tail.length ≤ d.fmt.length := by rw [List.length_tail]; omega
          { d.goto fmt.tail hafter with qualifier := some (ascii 'L') }
        else { d.goto fmt hnext with qualifier := some c }
      else d

end Directive

/-- The flags, the field width, the precision and the qualifier behind a `%`. -/
def directive (fmt : List Byte) (args : List Arg) :
    Option (Directive fmt.length × List Arg) := do
  let scanned := scanFlags 0 fmt
  let d : Directive fmt.length := ⟨scanned.1, -1, -1, none, scanned.2, scanFlags_length 0 fmt⟩
  let (d, args) ← d.readWidth args
  let (d, args) ← d.readPrecision args
  pure (d.readQualifier, args)

end Parsing

/-- Where the output goes: what happens when a character is put out, and when `%n` stores how many
there are. -/
structure Sink (σ : Type) where
  put : Byte → σ → σ
  count : Word → σ → σ

/-- What the code works on: the arguments that are left, and the output. -/
structure Job (σ : Type) where
  args : List Arg
  out : σ

/-- Code that puts characters out. -/
abbrev Code (σ : Type) := StateT (Job σ) Option

section Program

variable {σ : Type} (k : Sink σ)

/-- `if (str < end) *str = c; ++str;`. -/
def put (c : Byte) : Code σ PUnit := modify fun j => { j with out := k.put c j.out }

/-- `*ip = (str - buf);`. -/
def count (ip : Word) : Code σ PUnit := modify fun j => { j with out := k.count ip j.out }

/-- Code that takes arguments. -/
def takeArgs {α : Type} (f : List Arg → Option (α × List Arg)) : Code σ α := fun j =>
  (f j.args).map fun p => (p.1, { j with args := p.2 })

/-- A width above another can be decremented. -/
theorem sub_one_toInt {low width : Word} (h : low.slt width = true) :
    low.toInt < width.toInt ∧ (width - 1).toInt = width.toInt - 1 := by
  rw [BitVec.slt_iff_toInt_lt] at h
  have hlow := BitVec.le_toInt low
  have hwidth := BitVec.toInt_lt (x := width)
  have hone : (1 : Word).toInt = 1 := by decide
  refine ⟨h, ?_⟩
  rw [BitVec.toInt_sub, hone]
  exact Int.bmod_eq_of_le (by omega) (by omega)

/-- `while (low < width--)` with a character to put out. It returns `width`. -/
def padding (c : Byte) (low width : Word) : Code σ Word :=
  if h : low.slt width then do
    put k c
    padding c low (width - 1)
  else pure (width - 1)
termination_by (width.toInt - low.toInt).toNat
decreasing_by
  obtain ⟨hlt, hsub⟩ := sub_one_toInt h
  omega

/-- `while (--field_width > 0)` with a space to put out. It returns `field_width`. -/
def spaces (fieldWidth : Word) : Code σ Word :=
  if h : (0 : Word).slt (fieldWidth - 1) then do
    put k (ascii ' ')
    spaces (fieldWidth - 1)
  else pure (fieldWidth - 1)
termination_by (fieldWidth - 1).toInt.toNat
decreasing_by
  obtain ⟨hlt, hsub⟩ := sub_one_toInt h
  have hzero : (0 : Word).toInt = 0 := by decide
  omega

/-- `small_digits`. -/
def smallDigits : List Byte := text "0123456789abcdefghijklmnopqrstuvwxyz"

/-- `large_digits`. -/
def largeDigits : List Byte := text "0123456789ABCDEFGHIJKLMNOPQRSTUVWXYZ"

/-- The loop that fills `tmp`, the lowest digit first. It ends because the base is at least 2. -/
def tmpFrom (digits : List Byte) (base num : Word) : List Byte :=
  if _h : num = 0 ∨ base < 2 then []
  else digits.getD (num % base).toNat 0 :: tmpFrom digits base (num / base)
termination_by num.toNat
decreasing_by
  obtain ⟨hnum, hbase⟩ := not_or.1 _h
  have hpos : 0 < num.toNat := Nat.pos_of_ne_zero fun hzero => hnum (BitVec.eq_of_toNat_eq hzero)
  rw [BitVec.toNat_udiv]
  exact Nat.div_lt_self hpos (Nat.le_of_not_lt hbase)

/-- The sign, or 0, and what it leaves of the number and the size. -/
def signOf (num size type : Word) : Byte × Word × Word :=
  if test type PRINTF_SIGN then
    if num.slt 0 then (ascii '-', -num, size - 1)
    else if test type PRINTF_PLUS then (ascii '+', num, size - 1)
    else if test type PRINTF_SPACE then (ascii ' ', num, size - 1)
    else (0, num, size)
  else (0, num, size)

/-- `0`, `0x` or `0X` in front of a number. -/
def putSpecial (digits : List Byte) (base type : Word) : Code σ PUnit :=
  if test type PRINTF_SPECIAL then
    if base = 8 then put k (ascii '0')
    else if base = 16 then do
      put k (ascii '0')
      put k (digits.getD 33 0)
    else pure ⟨⟩
  else pure ⟨⟩

/-- The part of `number` that puts characters out. -/
def putNumber (digits : List Byte) (base type : Word) (c sign : Byte) (tmp : List Byte)
    (size precision : Word) : Code σ PUnit := do
  let size ← (if test type (PRINTF_ZEROPAD + PRINTF_LEFT) then pure size
    else padding k (ascii ' ') 0 size)
  (if sign ≠ 0 then put k sign else pure ⟨⟩)
  putSpecial k digits base type
  let size ← (if test type PRINTF_LEFT then pure size else padding k c 0 size)
  let _ ← padding k (ascii '0') (.ofNat 32 tmp.length) precision
  tmp.reverse.forM (put k)
  let _ ← padding k (ascii ' ') 0 size

/-- `number`. Where it returns `NULL` there is no result. -/
def number (num base size precision type : Word) : Code σ PUnit :=
  let digits := if test type PRINTF_LARGE then largeDigits else smallDigits
  let type := if test type PRINTF_LEFT then type &&& ~~~PRINTF_ZEROPAD else type
  if base.slt 2 ∨ (36 : Word).slt base then failure
  else
    let c := if test type PRINTF_ZEROPAD then ascii '0' else ascii ' '
    let (sign, num, size) := signOf num size type
    let size :=
      if test type PRINTF_SPECIAL then
        if base = 16 then size - 2 else if base = 8 then size - 1 else size
      else size
    let tmp := if num = 0 then [ascii '0'] else tmpFrom digits base num
    let i : Word := .ofNat 32 tmp.length
    let precision := if precision.slt i then i else precision
    putNumber k digits base type c sign tmp (size - precision) precision

end Program

/-- The loop of `strnlen`, with `n` characters read. There is no result if it reads past the memory
that is known. -/
def strnlenFrom (n : Word) (count : Word) (s : List Byte) : Option Word :=
  if count = 0 then some n
  else
    match s with
    | [] => none
    | c :: s => if c = 0 then some n else strnlenFrom (n + 1) (count - 1) s

/-- `strnlen`. -/
def strnlen (s : List Byte) (count : Word) : Option Word := strnlenFrom 0 count s

/-- `num`, from the next argument. -/
def integerArg (qualifier : Option Byte) (flags : Word) (args : List Arg) :
    Option (BitVec 64 × List Arg) :=
  if qualifier = some (ascii 'L') then vaArg Arg.asLonglong args
  else
    (vaArg Arg.asWord args).map fun (v, args) =>
      if qualifier = some (ascii 'l') then
        (if test flags PRINTF_SIGN then v.signExtend 64 else v.setWidth 64, args)
      else if qualifier = some (ascii 'Z') ∨ qualifier = some (ascii 'z') then
        (v.setWidth 64, args)
      else if qualifier = some (ascii 't') then (v.signExtend 64, args)
      else if qualifier = some (ascii 'h') then
        let num : BitVec 16 := v.setWidth 16
        (if test flags PRINTF_SIGN then num.signExtend 64 else num.setWidth 64, args)
      else (if test flags PRINTF_SIGN then v.signExtend 64 else v.setWidth 64, args)

section Conversions

variable {σ : Type} (k : Sink σ) {n : Nat} (d : Directive n)

/-- `case 'c'`. -/
def convertChar : Code σ PUnit := do
  let width ← (if test d.flags PRINTF_LEFT then pure d.fieldWidth else spaces k d.fieldWidth)
  let v ← takeArgs (vaArg Arg.asWord)
  put k (v.setWidth 8)
  let _ ← spaces k width

/-- `case 's'`. -/
def convertString : Code σ PUnit := do
  let s ← takeArgs (vaArg Arg.asString)
  let s := s.getD (text "<NULL>" ++ [0])
  let len ← StateT.lift (strnlen s d.precision)
  let width ← (if test d.flags PRINTF_LEFT then pure d.fieldWidth
    else padding k (ascii ' ') len d.fieldWidth)
  (s.take len.toInt.toNat).forM (put k)
  let _ ← padding k (ascii ' ') len width

/-- `case 'p'`. -/
def convertPointer : Code σ PUnit := do
  let p ← takeArgs (vaArg Arg.asPointer)
  if d.fieldWidth = -1 then number k p 16 8 d.precision (d.flags ||| PRINTF_ZEROPAD)
  else number k p 16 d.fieldWidth d.precision d.flags

/-- `case 'n'`. Its three branches store a word alike. -/
def convertCount : Code σ PUnit := do
  let ip ← takeArgs (vaArg Arg.asPointer)
  count k ip

/-- What is behind the switch. -/
def convertInteger (base flags : Word) : Code σ PUnit := do
  let num ← takeArgs (integerArg d.qualifier flags)
  number k (num.setWidth 32) base d.fieldWidth d.precision flags

/-- The switch over the conversion, whose character is not NUL. -/
def convert (c : Byte) : Code σ PUnit :=
  if c = ascii 'c' then convertChar k d
  else if c = ascii 's' then convertString k d
  else if c = ascii 'p' then convertPointer k d
  else if c = ascii 'n' then convertCount k
  else if c = ascii '%' then put k (ascii '%')
  else if c = ascii 'o' then convertInteger k d 8 d.flags
  else if c = ascii 'X' then convertInteger k d 16 (d.flags ||| PRINTF_LARGE)
  else if c = ascii 'x' then convertInteger k d 16 d.flags
  else if c = ascii 'd' ∨ c = ascii 'i' then convertInteger k d 10 (d.flags ||| PRINTF_SIGN)
  else if c = ascii 'u' then convertInteger k d 10 d.flags
  else do
    put k (ascii '%')
    put k c

/-- The loop over the format. If it ends within a conversion, the `%` is put out. -/
def format (fmt : List Byte) : Code σ PUnit :=
  match fmt with
  | [] => pure ⟨⟩
  | c :: fmt =>
      if c ≠ ascii '%' then do
        put k c
        format fmt
      else do
        let d ← takeArgs (directive fmt)
        match _hfmt : d.fmt with
        | [] => put k (ascii '%')
        | c :: rest => do
            convert k d c
            format rest
termination_by fmt.length
decreasing_by
  · exact Nat.lt_succ_self _
  · have hwithin := d.within
    rw [_hfmt, List.length_cons] at hwithin
    exact Nat.lt_succ_of_le (Nat.le_of_succ_le hwithin)

end Conversions

section Sinks

variable {σ τ α : Type} {R : σ → τ → Prop} {k : Sink σ} {k' : Sink τ}

/-- What one sink does follows what another one does. -/
structure Follows (R : σ → τ → Prop) (k : Sink σ) (k' : Sink τ) : Prop where
  put : ∀ c s t, R s t → R (k.put c s) (k'.put c t)
  count : ∀ ip s t, R s t → R (k.count ip s) (k'.count ip t)

/-- The same arguments are left, and the outputs are related. -/
def Alike (R : σ → τ → Prop) (j : Job σ) (j' : Job τ) : Prop := j.args = j'.args ∧ R j.out j'.out

/-- A character. -/
theorem put_related (h : Follows R k k') (c : Byte) : Related (Alike R) (put k c) (put k' c) :=
  .modify fun _ _ hjob => ⟨hjob.1, h.put c _ _ hjob.2⟩

/-- A store of `%n`. -/
theorem count_related (h : Follows R k k') (ip : Word) :
    Related (Alike R) (count k ip) (count k' ip) :=
  .modify fun _ _ hjob => ⟨hjob.1, h.count ip _ _ hjob.2⟩

/-- Arguments do not depend on the output. -/
theorem takeArgs_related (f : List Arg → Option (α × List Arg)) :
    Related (Alike R) (takeArgs f : Code σ α) (takeArgs f : Code τ α) := by
  intro j j' hjob a t' hrun
  obtain ⟨p, hp, heq⟩ := Option.map_eq_some_iff.1 hrun
  cases heq
  have hrun' : f j.args = some p := by rw [hjob.1, hp]
  exact ⟨{ j with args := p.2 }, Option.map_eq_some_iff.2 ⟨p, hrun', rfl⟩, rfl, hjob.2⟩

/-- Padding. -/
theorem padding_related (h : Follows R k k') (c : Byte) (low width : Word) :
    Related (Alike R) (padding k c low width) (padding k' c low width) := by
  fun_induction padding k c low width with
  | case1 width hlt ih =>
      rw [padding.eq_def k', dif_pos hlt]
      exact .bind (put_related h c) fun _ => ih
  | case2 width hle =>
      rw [padding.eq_def k', dif_neg hle]
      exact .pure _

/-- Spaces. -/
theorem spaces_related (h : Follows R k k') (fieldWidth : Word) :
    Related (Alike R) (spaces k fieldWidth) (spaces k' fieldWidth) := by
  fun_induction spaces k fieldWidth with
  | case1 fieldWidth hlt ih =>
      rw [spaces.eq_def k', dif_pos hlt]
      exact .bind (put_related h _) fun _ => ih
  | case2 fieldWidth hle =>
      rw [spaces.eq_def k', dif_neg hle]
      exact .pure _

/-- What is in front of a number. -/
theorem putSpecial_related (h : Follows R k k') (digits : List Byte) (base type : Word) :
    Related (Alike R) (putSpecial k digits base type) (putSpecial k' digits base type) :=
  .ite (.ite (put_related h _) (.ite (.bind (put_related h _) fun _ => put_related h _) (.pure _)))
    (.pure _)

/-- Every step of `number` is a guarded one, and how many there are does not depend on the
output. -/
theorem putNumber_related (h : Follows R k k') (digits : List Byte) (base type : Word)
    (c sign : Byte) (tmp : List Byte) (size precision : Word) :
    Related (Alike R) (putNumber k digits base type c sign tmp size precision)
      (putNumber k' digits base type c sign tmp size precision) := by
  unfold putNumber
  refine .bind (Related.ite (.pure _) (padding_related h _ _ _)) fun size => ?_
  refine .bind (Related.ite (put_related h _) (.pure _)) fun _ => ?_
  refine .bind (putSpecial_related h _ _ _) fun _ => ?_
  refine .bind (Related.ite (.pure _) (padding_related h _ _ _)) fun size => ?_
  refine .bind (padding_related h _ _ _) fun _ => ?_
  refine .bind (Related.forM fun b => put_related h b) fun _ => ?_
  exact .bind (padding_related h _ _ _) fun _ => .pure _

/-- `number`. -/
theorem number_related (h : Follows R k k') (num base size precision type : Word) :
    Related (Alike R) (number k num base size precision type)
      (number k' num base size precision type) :=
  .ite (.failure _) (putNumber_related h _ _ _ _ _ _ _ _)

variable {n : Nat} (d : Directive n)

/-- `case 'c'`. -/
theorem convertChar_related (h : Follows R k k') :
    Related (Alike R) (convertChar k d) (convertChar k' d) := by
  unfold convertChar
  refine .bind (Related.ite (.pure _) (spaces_related h _)) fun width => ?_
  refine .bind (takeArgs_related _) fun v => ?_
  refine .bind (put_related h _) fun _ => ?_
  exact .bind (spaces_related h _) fun _ => .pure _

/-- `case 's'`. -/
theorem convertString_related (h : Follows R k k') :
    Related (Alike R) (convertString k d) (convertString k' d) := by
  unfold convertString
  refine .bind (takeArgs_related _) fun s => ?_
  refine .bind (.lift _) fun len => ?_
  refine .bind (Related.ite (.pure _) (padding_related h _ _ _)) fun width => ?_
  refine .bind (Related.forM fun b => put_related h b) fun _ => ?_
  exact .bind (padding_related h _ _ _) fun _ => .pure _

/-- `case 'p'`. -/
theorem convertPointer_related (h : Follows R k k') :
    Related (Alike R) (convertPointer k d) (convertPointer k' d) :=
  .bind (takeArgs_related _) fun _ => .ite (number_related h _ _ _ _ _) (number_related h _ _ _ _ _)

/-- `case 'n'`. -/
theorem convertCount_related (h : Follows R k k') :
    Related (Alike R) (convertCount k) (convertCount k') :=
  .bind (takeArgs_related _) fun _ => count_related h _

/-- The integer conversions. -/
theorem convertInteger_related (h : Follows R k k') (base flags : Word) :
    Related (Alike R) (convertInteger k d base flags) (convertInteger k' d base flags) :=
  .bind (takeArgs_related _) fun _ => number_related h _ _ _ _ _

/-- The switch over the conversion. -/
theorem convert_related (h : Follows R k k') (c : Byte) :
    Related (Alike R) (convert k d c) (convert k' d c) := by
  unfold convert
  refine .ite (convertChar_related d h) ?_
  refine .ite (convertString_related d h) ?_
  refine .ite (convertPointer_related d h) ?_
  refine .ite (convertCount_related h) ?_
  refine .ite (put_related h _) ?_
  refine .ite (convertInteger_related d h _ _) ?_
  refine .ite (convertInteger_related d h _ _) ?_
  refine .ite (convertInteger_related d h _ _) ?_
  refine .ite (convertInteger_related d h _ _) ?_
  refine .ite (convertInteger_related d h _ _) ?_
  exact .bind (put_related h _) fun _ => put_related h _

/-- The code runs in the same way over both sinks. -/
theorem format_related (h : Follows R k k') (fmt : List Byte) :
    Related (Alike R) (format k fmt) (format k' fmt) := by
  fun_induction format k fmt with
  | case1 =>
      rw [format.eq_def k']
      exact .pure _
  | case2 c fmt hc ih =>
      rw [format.eq_def k']
      dsimp only
      rw [if_pos hc]
      exact .bind (put_related h c) fun _ => ih
  | case3 c fmt hc ih =>
      rw [format.eq_def k']
      dsimp only
      rw [if_neg hc]
      refine .bind (takeArgs_related _) fun d => ?_
      split
      · exact put_related h _
      · rename_i c rest hfmt
        exact .bind (convert_related d h c) fun _ => ih d c rest hfmt

end Sinks

end Format

end Soc.Libbase
