import Soc.Gdbstub.Framing
import Soc.Library.Region

/-!
# Digits in the packet buffers

The conversions of the stub in terms of lists of characters: `hex2int` reads a numeral,
`mem2hex` writes the digits of a region of memory, `hex2mem` and `bin2mem` store the bytes
that digits or escaped characters stand for.
-/

namespace Soc.Gdbstub

open Library.Region (store load)

/-- The characters of `l` are in the buffer from `pos` on. -/
def Reads (buf : Nat → Byte) (pos : Nat) : List Byte → Prop
  | [] => True
  | c :: l => buf pos = c ∧ Reads buf (pos + 1) l

section Reads

variable {buf : Nat → Byte} {pos : Nat} {l l' : List Byte} {c : Byte}

@[simp] theorem reads_nil : Reads buf pos [] := trivial

@[simp] theorem reads_cons : Reads buf pos (c :: l) ↔ buf pos = c ∧ Reads buf (pos + 1) l := Iff.rfl

@[simp] theorem reads_append :
    Reads buf pos (l ++ l') ↔ Reads buf pos l ∧ Reads buf (pos + l.length) l' := by
  induction l generalizing pos with
  | nil => simp
  | cons c l ih =>
      rw [List.cons_append, reads_cons, reads_cons, ih, and_assoc, List.length_cons]
      rw [Nat.add_right_comm pos 1, Nat.add_assoc pos]

/-- The characters one by one. -/
theorem reads_iff : Reads buf pos l ↔ ∀ i (h : i < l.length), buf (pos + i) = l[i] := by
  induction l generalizing pos with
  | nil => simp
  | cons c l ih =>
      rw [reads_cons, ih]
      constructor
      · rintro ⟨hfirst, hrest⟩ i hi
        cases i with
        | zero => exact hfirst
        | succ i => simpa [Nat.add_assoc, Nat.add_comm 1] using hrest i (Nat.lt_of_succ_lt_succ hi)
      · intro h
        refine ⟨h 0 (Nat.succ_pos _), fun i hi => ?_⟩
        simpa [Nat.add_assoc, Nat.add_comm 1] using h (i + 1) (Nat.succ_lt_succ hi)

/-- A packet is read from the start of the buffer it was stored in. -/
theorem reads_fill (buf : Nat → Byte) (l : List Byte) : Reads (fill buf l) 0 l := by
  rw [reads_iff]
  intro i hi
  rw [Nat.zero_add, fill_of_lt hi]

end Reads

section Strcpy

variable {buf : Nat → Byte} {pos i : Nat} {l : List Byte}

/-- `strcpy` leaves what is before the string. -/
theorem strcpy_of_lt (h : i < pos) : strcpy buf pos l i = buf i := by
  induction l generalizing buf pos with
  | nil => exact Function.update_of_ne (Nat.ne_of_lt h) _ _
  | cons c l ih => rw [strcpy, ih (Nat.lt_succ_of_lt h), Function.update_of_ne (Nat.ne_of_lt h)]

/-- The copied string. -/
theorem reads_strcpy (buf : Nat → Byte) (pos : Nat) (l : List Byte) :
    Reads (strcpy buf pos l) pos (l ++ [0]) := by
  induction l generalizing buf pos with
  | nil => simp [strcpy]
  | cons c l ih =>
      refine ⟨?_, ih _ _⟩
      rw [strcpy, strcpy_of_lt (Nat.lt_succ_self pos), Function.update_self]

/-- The string at a position. -/
theorem cString_of_reads {fuel : Nat} (h : Reads buf pos (l ++ [0])) (hnul : 0 ∉ l)
    (hfuel : l.length < fuel) : cString buf pos fuel = l := by
  induction fuel generalizing pos l with
  | zero => omega
  | succ fuel ih =>
      cases l with
      | nil => simpa [cString] using h
      | cons c l =>
          rw [List.mem_cons, not_or] at hnul
          obtain ⟨rfl, hrest⟩ := h
          have hne : buf pos ≠ 0 := fun h => hnul.1 h.symm
          rw [cString, if_neg hne, ih hrest hnul.2 (by simpa using hfuel)]

end Strcpy

section Digits

/-- The digits of bytes as the stub writes them. -/
def hexText (bytes : List Byte) : List Byte :=
  bytes.flatMap fun b => [highhex b, lowhex b]

/-- The characters are the digits, in either case, of the bytes. -/
def HexOf (digits bytes : List Byte) : Prop :=
  digits.map hex = bytes.flatMap fun b => [(b.toNat / 16 : Int), (b.toNat % 16 : Int)]

instance (digits bytes : List Byte) : Decidable (HexOf digits bytes) :=
  inferInstanceAs (Decidable (_ = _))

/-- The bytes `hex2mem` stores for the characters. -/
def unhex : List Byte → List Byte
  | d1 :: d2 :: l =>
      (BitVec.ofInt 8 (hex d1) <<< 4 ||| BitVec.ofInt 8 (hex d2)) :: unhex l
  | _ => []

/-- Shifting a digit in. -/
theorem shift_or {w : Nat} (x : BitVec w) {d : Nat} (hd : d < 16) :
    x <<< 4 ||| BitVec.ofNat w d = x * 16 + .ofNat w d := by
  have hdisjoint : x <<< 4 &&& BitVec.ofNat w d = 0 := by
    apply BitVec.eq_of_getLsbD_eq
    intro i hi
    rw [BitVec.getLsbD_and, BitVec.getLsbD_shiftLeft, BitVec.getLsbD_ofNat]
    by_cases h4 : i < 4
    · simp [h4]
    · have hbit : d.testBit i = false :=
        Nat.testBit_lt_two_pow (Nat.lt_of_lt_of_le (m := 2 ^ 4) hd
          (Nat.pow_le_pow_right (by decide) (by omega)))
      simp [hbit]
  rw [← BitVec.add_eq_or_of_and_eq_zero _ _ hdisjoint, BitVec.shiftLeft_eq_mul_twoPow]
  congr 2
  apply BitVec.eq_of_toNat_eq
  simp [BitVec.toNat_twoPow]

/-- The value of a digit. -/
theorem hex_toNat {c : Byte} (h : 0 ≤ hex c) : ∃ d : Nat, d < 16 ∧ hex c = d := by
  obtain ⟨d, hd⟩ := Int.eq_ofNat_of_zero_le h
  have hlt := (hex_range c).2
  exact ⟨d, by omega, hd⟩

/-- The byte of two digits. -/
theorem hexPair_eq {c1 c2 : Byte} {d1 d2 : Nat} (h1 : hex c1 = d1) (h2 : hex c2 = d2)
    (hd2 : d2 < 16) :
    BitVec.ofInt 8 (hex c1) <<< 4 ||| BitVec.ofInt 8 (hex c2) = .ofNat 8 (16 * d1 + d2) := by
  rw [h1, h2, BitVec.ofInt_natCast, BitVec.ofInt_natCast, shift_or _ hd2]
  apply BitVec.eq_of_toNat_eq
  simp
  omega

/-- The digits the stub writes are read back. -/
theorem hex_hexchars : ∀ d < 16, hex (hexchars.getD d 0) = d := by decide

theorem hex_highhex (b : Byte) : hex (highhex b) = (b.toNat / 16 : Nat) :=
  hex_hexchars _ (by have := b.isLt; omega)

theorem hex_lowhex (b : Byte) : hex (lowhex b) = (b.toNat % 16 : Nat) :=
  hex_hexchars _ (by omega)

/-- The digits the stub writes for bytes are their digits. -/
theorem hexOf_hexText (bytes : List Byte) : HexOf (hexText bytes) bytes := by
  induction bytes with
  | nil => rfl
  | cons b bytes ih =>
      rw [HexOf, hexText] at ih ⊢
      simp [ih, hex_highhex, hex_lowhex]

@[simp] theorem hexText_nil : hexText [] = [] := rfl

@[simp] theorem hexText_cons (b : Byte) (bytes : List Byte) :
    hexText (b :: bytes) = highhex b :: lowhex b :: hexText bytes := rfl

@[simp] theorem hexText_length (bytes : List Byte) : (hexText bytes).length = 2 * bytes.length := by
  induction bytes with
  | nil => rfl
  | cons b bytes ih =>
      rw [hexText_cons, List.length_cons, List.length_cons, ih, List.length_cons]
      omega

@[simp] theorem hexText_append (bytes bytes' : List Byte) :
    hexText (bytes ++ bytes') = hexText bytes ++ hexText bytes' := by
  simp [hexText]

/-- `hex2mem` recovers bytes from their digits. -/
theorem HexOf.unhex_eq {digits bytes : List Byte} (h : HexOf digits bytes) :
    unhex digits = bytes := by
  induction bytes generalizing digits with
  | nil =>
      obtain rfl : digits = [] := List.map_eq_nil_iff.1 h
      rfl
  | cons b bytes ih =>
      rw [HexOf, List.flatMap_cons, List.cons_append, List.cons_append, List.nil_append] at h
      obtain ⟨d1, digits, rfl, hd1, h⟩ := List.map_eq_cons_iff.1 h
      obtain ⟨d2, digits, rfl, hd2, h⟩ := List.map_eq_cons_iff.1 h
      have hb := b.isLt
      have hd1' : hex d1 = (b.toNat / 16 : Nat) := by rw [hd1]; simp
      have hd2' : hex d2 = (b.toNat % 16 : Nat) := by rw [hd2]; simp
      rw [unhex, ih h, hexPair_eq hd1' hd2' (by omega)]
      congr 1
      apply BitVec.eq_of_toNat_eq
      simp
      omega

/-- Every byte has two digits. -/
theorem HexOf.length_eq {digits bytes : List Byte} (h : HexOf digits bytes) :
    digits.length = 2 * bytes.length := by
  have hlength := congrArg List.length h
  rw [← hexOf_hexText bytes, List.length_map, List.length_map, hexText_length] at hlength
  exact hlength

end Digits

section Numerals

/-- A hexadecimal numeral in either case. -/
def Numeral (l : List Byte) : Prop := l ≠ [] ∧ ∀ c ∈ l, 0 ≤ hex c

instance (l : List Byte) : Decidable (Numeral l) :=
  inferInstanceAs (Decidable (_ ∧ _))

/-- The number a numeral denotes. -/
def numeral (l : List Byte) : Nat :=
  l.foldl (fun v c => 16 * v + (hex c).toNat) 0

variable {buf : Nat → Byte} {ptr : Nat} {l q : List Byte} {c : Byte}

/-- One more digit of a number. -/
theorem hexInt_step (v : Nat) (h : 0 ≤ hex c) :
    BitVec.ofNat 32 v <<< 4 ||| BitVec.ofInt 32 (hex c) = .ofNat 32 (16 * v + (hex c).toNat) := by
  obtain ⟨d, hd, hc⟩ := hex_toNat h
  rw [hc, BitVec.ofInt_natCast, shift_or _ hd, Int.toNat_natCast]
  apply BitVec.eq_of_toNat_eq
  simp
  omega

/-- The loop of `hex2int` reads all digits of a numeral. -/
theorem hex2intFrom_reads {fuel v n : Nat} (hdigits : ∀ d ∈ l, 0 ≤ hex d)
    (h : Reads buf ptr (l ++ [c])) (hc : hex c < 0) (hfuel : l.length ≤ fuel) :
    hex2intFrom buf fuel ⟨.ofNat 32 v, n, ptr⟩ =
      ⟨.ofNat 32 (l.foldl (fun v c => 16 * v + (hex c).toNat) v), n + l.length,
        ptr + l.length⟩ := by
  induction fuel generalizing l v n ptr with
  | zero =>
      obtain rfl : l = [] := List.eq_nil_of_length_eq_zero (Nat.le_zero.1 hfuel)
      rfl
  | succ fuel ih =>
      cases l with
      | nil =>
          obtain ⟨rfl, -⟩ := h
          simp only [hex2intFrom, hc, if_true, ite_self]
          rfl
      | cons d l =>
          obtain ⟨rfl, hrest⟩ := h
          have hd : 0 ≤ hex (buf ptr) := hdigits _ List.mem_cons_self
          have hne : buf ptr ≠ 0 := by
            intro hnul
            rw [hnul] at hd
            exact absurd hd (by decide)
          have hpos : ¬ hex (buf ptr) < 0 := by omega
          rw [hex2intFrom, if_neg hne, if_neg hpos, hexInt_step v hd,
            ih (fun d hd => hdigits d (List.mem_cons_of_mem _ hd)) hrest (by simpa using hfuel),
            List.foldl_cons, List.length_cons, Nat.add_right_comm n, Nat.add_right_comm ptr]
          rfl

/-- `hex2int` reads the digits up to the first other character. -/
theorem hex2int_reads (hdigits : ∀ d ∈ l, 0 ≤ hex d) (h : Reads buf ptr (l ++ [c])) (hc : hex c < 0)
    (hlength : l.length ≤ BUFMAX) :
    hex2int buf ptr = ⟨.ofNat 32 (numeral l), l.length, ptr + l.length⟩ := by
  have hread := hex2intFrom_reads (v := 0) (n := 0) hdigits h hc (Nat.le_succ_of_le hlength)
  rw [Nat.zero_add] at hread
  exact hread

/-- A numeral that another character follows is read as its number modulo 2^32. -/
theorem hexArg_reads (hl : Numeral l) (h : Reads buf ptr (l ++ [c])) (hc : hex c < 0)
    (hlength : l.length ≤ BUFMAX) :
    hexArg buf ptr = some (.ofNat 32 (numeral l), ptr + l.length) := by
  have hpos : l.length > 0 := List.length_pos_iff.2 hl.1
  simp only [hexArg, hex2int_reads hl.2 h hc hlength, hpos, if_true]

/-- A string starts with a possibly empty run of digits. -/
theorem split_digits (q : List Byte) :
    ∃ l q' c, q = l ++ q' ∧ (∀ d ∈ l, 0 ≤ hex d) ∧ hex c < 0 ∧ (q' ++ [0]).head? = some c := by
  induction q with
  | nil => exact ⟨[], [], 0, rfl, by simp, by decide, rfl⟩
  | cons d q ih =>
      by_cases hd : 0 ≤ hex d
      · obtain ⟨l, q', c, rfl, hl, hc, hhead⟩ := ih
        refine ⟨d :: l, q', c, rfl, ?_, hc, hhead⟩
        intro e he
        obtain rfl | he := List.mem_cons.1 he
        · exact hd
        · exact hl e he
      · exact ⟨[], d :: q, d, rfl, by simp, by omega, rfl⟩

/-- What `hex2int` reads of a string is a numeral at its start. -/
theorem hexArg_eq_some {v : Word} {ptr' : Nat} (h : Reads buf ptr (q ++ [0]))
    (hlength : q.length ≤ BUFMAX) (hread : hexArg buf ptr = some (v, ptr')) :
    ∃ l q', q = l ++ q' ∧ Numeral l ∧ ptr' = ptr + l.length ∧ Reads buf ptr' (q' ++ [0]) := by
  obtain ⟨l, q', c, rfl, hl, hc, hhead⟩ := split_digits q
  obtain ⟨r, hr⟩ := List.head?_eq_some_iff.1 hhead
  have hboth := h
  rw [List.append_assoc, reads_append] at hboth
  obtain ⟨hreads, hrest⟩ := hboth
  have hnext : Reads buf ptr (l ++ [c]) := by
    rw [hr, reads_cons] at hrest
    exact reads_append.2 ⟨hreads, hrest.1, trivial⟩
  rw [List.length_append] at hlength
  by_cases hempty : l = []
  · subst hempty
    simp [hexArg, hex2int_reads hl hnext hc (Nat.zero_le _)] at hread
  · have hsome := hexArg_reads ⟨hempty, hl⟩ hnext hc (by omega)
    rw [hsome, Option.some.injEq, Prod.mk.injEq] at hread
    obtain ⟨-, rfl⟩ := hread
    exact ⟨l, q', rfl, ⟨hempty, hl⟩, rfl, hrest⟩

/-- The character a string starts with. -/
theorem charArg_reads {c : Char} (h : buf ptr = ascii c) : charArg buf ptr c = some (ptr + 1) :=
  if_pos h

/-- A character found in a string is its first. -/
theorem charArg_eq_some {c : Char} {ptr' : Nat} (h : Reads buf ptr (q ++ [0])) (hc : ascii c ≠ 0)
    (hread : charArg buf ptr c = some ptr') :
    ∃ q', q = ascii c :: q' ∧ ptr' = ptr + 1 ∧ Reads buf ptr' (q' ++ [0]) := by
  rw [charArg] at hread
  split_ifs at hread with hchar
  cases hread
  cases q with
  | nil =>
      rw [List.nil_append, reads_cons, hchar] at h
      exact absurd h.1 hc
  | cons d q =>
      obtain ⟨hd, hrest⟩ := h
      exact ⟨q, by rw [← hd, hchar], rfl, hrest⟩

end Numerals

section Copy

variable {buf : Nat → Byte} {pos : Nat} (mem : Word → Byte) (addr : Word)

/-- `mem2hex` writes the digits of a region as a string. -/
theorem mem2hex_eq (mem : Word → Byte) (addr : Word) (buf : Nat → Byte) (out count : Nat) :
    mem2hex mem addr buf out count =
      (strcpy buf out (hexText (load mem addr count)), out + 2 * count) := by
  induction count generalizing addr buf out with
  | zero => rfl
  | succ count ih =>
      rw [mem2hex, ih, load, hexText_cons, strcpy, strcpy]
      congr 1
      omega

/-- `hex2mem` stores the bytes of its characters. -/
theorem hex2mem_eq {chars : List Byte} {count : Nat} (h : Reads buf pos chars)
    (hlength : chars.length = 2 * count) :
    hex2mem buf pos mem addr count = store mem addr (unhex chars) := by
  induction count generalizing chars pos mem addr with
  | zero =>
      obtain rfl : chars = [] := List.eq_nil_of_length_eq_zero hlength
      rfl
  | succ count ih =>
      obtain ⟨d1, chars, rfl⟩ := List.exists_cons_of_length_eq_add_one
        (show chars.length = 2 * count + 1 + 1 by omega)
      obtain ⟨d2, chars, rfl⟩ := List.exists_cons_of_length_eq_add_one
        (show chars.length = 2 * count + 1 by simp at hlength; omega)
      obtain ⟨rfl, rfl, hrest⟩ := h
      rw [hex2mem, unhex, store, ih _ _ hrest (by simp at hlength; omega)]

/-- Binary data with `}` before each byte that is sent escaped. -/
inductive Escapes : List Byte → List Byte → Prop
  | nil : Escapes [] []
  | plain {b : Byte} {text bytes} : b ≠ ascii '}' → Escapes text bytes →
      Escapes (b :: text) (b :: bytes)
  | escaped {b : Byte} {text bytes} : Escapes text bytes →
      Escapes (ascii '}' :: (b ^^^ 0x20) :: text) (b :: bytes)

/-- `bin2mem` stores the bytes its characters stand for. -/
theorem bin2mem_eq {chars bytes : List Byte} (hescapes : Escapes chars bytes)
    (h : Reads buf pos chars) :
    bin2mem buf pos mem addr bytes.length = store mem addr bytes := by
  induction hescapes generalizing pos mem addr with
  | nil => rfl
  | plain hb _ ih =>
      obtain ⟨rfl, hrest⟩ := h
      have hplain : buf pos ≠ 0x7d := hb
      rw [List.length_cons, bin2mem, if_neg hplain, ih _ _ hrest, store]
  | escaped _ ih =>
      obtain ⟨hmark, hb, hrest⟩ := h
      have hescape : buf pos = 0x7d := hmark
      rw [List.length_cons, bin2mem, if_pos hescape, hb, ih _ _ hrest, store, BitVec.xor_assoc,
        BitVec.xor_self, BitVec.xor_zero]

end Copy

end Soc.Gdbstub
