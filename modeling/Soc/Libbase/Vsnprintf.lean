import Soc.Libbase.Format
import Soc.Libbase.Memcpy
import Soc.Libbase.Strings
import Soc.Library.BoundedWriter

/-!
# Formatting into a buffer

`vsnprintf` and `vscnprintf` of `libbase/libc.c`, and `printf` of `libbase/console.c`. The unlimited
output is what the same code gives over a sink that keeps every character. `truncates_cleanly` says
what of it comes into a buffer of any size that is not negative as an `int`.
-/

namespace Soc.Libbase

open Format (Arg Sink Follows Alike format format_related)
open Library.Region (Covers)
open Library.BoundedWriter (Writer Wrote Apart toNat_add_ofNat)

namespace Vsnprintf

/-- The bytes of a word in memory. -/
def wordBytes (v : Word) : List Byte :=
  [v.extractLsb' 24 8, v.extractLsb' 16 8, v.extractLsb' 8 8, v.extractLsb' 0 8]

/-- The output as `vsnprintf` writes it, to the memory from `buf` up to `stop`. -/
def bufferSink (buf stop : Word) : Sink (Writer 32 Byte) where
  put := Writer.put stop
  count ip s := s.poke (Memcpy.accessed 4 ip) (wordBytes (s.next - buf))

/-- Characters, and the addresses where `%n` stores. -/
structure Text where
  chars : List Byte
  targets : List Word
  deriving DecidableEq

/-- The output with no limit. -/
def textSink : Sink Text where
  put c t := { t with chars := t.chars ++ [c] }
  count ip t := { t with targets := t.targets ++ [Memcpy.accessed 4 ip] }

end Vsnprintf

open Vsnprintf

/-- The output of unlimited size. There is none if the arguments do not match. -/
def unlimited (fmt : CString) (args : List Arg) : Option Text :=
  ((format textSink fmt.chars).run ⟨args, ⟨[], []⟩⟩).map fun p => p.2.out

/-- `vsnprintf`: what it returns, and the memory after it. -/
def vsnprintf (buf size : Word) (fmt : CString) (args : List Arg) (mem : Word → Byte) :
    Option (Word × (Word → Byte)) :=
  if size.slt 0 then some (0, mem)
  else
    let stop := buf + size
    let (stop, size) := if stop < buf then (-1, -1 - buf) else (stop, size)
    ((format (bufferSink buf stop) fmt.chars).run ⟨args, ⟨mem, buf⟩⟩).map fun p =>
      let s := p.2.out
      let last := if s.next < stop then s.next else stop - 1
      (s.next - buf, if (0 : Word).slt size then Function.update s.mem last 0 else s.mem)

/-- `vscnprintf`. The comparison is one of `int`s, which `size_t` is. -/
def vscnprintf (buf size : Word) (fmt : CString) (args : List Arg) (mem : Word → Byte) :
    Option (Word × (Word → Byte)) :=
  (vsnprintf buf size fmt args mem).map fun (i, mem) => (if size.sle i then size - 1 else i, mem)

/-- `printf`, with its buffer at `outbuf`. What goes to `putsnonl` is read from the buffer. -/
def printf (outbuf : Word) (fmt : CString) (args : List Arg) (mem : Word → Byte) :
    Option (Word × (Word → Byte)) :=
  (vscnprintf outbuf 256 fmt args mem).map fun (len, mem) =>
    (len, Function.update mem (outbuf + len) 0)

namespace Vsnprintf

/-- A buffer in which a text is to be put: the size is not 0, and not negative as an `int`. The text
and its NUL would end before the end of the address space. No `%n` stores into the buffer. -/
structure Suits (buf size : Word) (t : Text) : Prop where
  pos : 0 < size.toNat
  nonneg : size.slt 0 = false
  fits : buf.toNat + t.chars.length + 1 < 4294967296
  apart : ∀ p ∈ t.targets, Apart buf size.toNat p 4

/-- A text has been put into a buffer, as far as there is room for it and for the NUL. Nothing else
has changed, except where `%n` stores. -/
structure Truncated (buf size : Word) (t : Text) (mem mem' : Word → Byte) : Prop where
  kept : ∀ a, ¬ Covers buf size.toNat a → (∀ p ∈ t.targets, ¬ Covers p 4 a) → mem' a = mem a
  stored : ∀ i (hi : i < t.chars.length), i < size.toNat - 1 →
    mem' (buf + .ofNat 32 i) = t.chars[i]
  ended : mem' (buf + .ofNat 32 (min (size.toNat - 1) t.chars.length)) = 0

/-- What `vscnprintf` returns for a text: how many characters of it are in the buffer, as long as
the length of the text is an `int`. -/
def scnlength (size : Word) (t : Text) : Nat :=
  if t.chars.length < 2147483648 then min t.chars.length (size.toNat - 1) else t.chars.length

/-- The bytes from `buf` on that `vsnprintf` may use: `end` is not less than `buf`. -/
def room (buf size : Word) : Nat := min size.toNat (4294967295 - buf.toNat)

variable {buf size : Word} {t : Text} {mem : Word → Byte} {fmt : CString} {args : List Arg}

/-- A size that is not rejected. -/
theorem size_lt (h : Suits buf size t) : size.toNat < 2147483648 :=
  (Memcpy.slt_zero_iff size).1 h.nonneg

/-- `end` and `size`, once `end` is not less than `buf`. -/
theorem room_eq (buf size : Word) :
    (if buf + size < buf then (-1, -1 - buf) else (buf + size, size)) =
      (buf + .ofNat 32 (room buf size), (.ofNat 32 (room buf size) : Word)) := by
  have hbuf := buf.isLt
  have hsize := size.isLt
  by_cases hwrap : buf.toNat + size.toNat < 4294967296
  · have hroom : room buf size = size.toNat := by
      unfold room
      omega
    have hlt : ¬ buf + size < buf := by bv_omega
    rw [if_neg hlt, hroom, BitVec.ofNat_toNat, BitVec.setWidth_eq]
  · have hroom : room buf size = 4294967295 - buf.toNat := by
      unfold room
      omega
    have hlt : buf + size < buf := by bv_omega
    have hrest : (.ofNat 32 (4294967295 - buf.toNat) : Word) = -1 - buf := by bv_omega
    rw [if_pos hlt, hroom, hrest]
    grind

/-- The buffer follows the text while the text fits into the address space. -/
theorem follows (mem : Word → Byte) (buf : Word) {room : Nat}
    (hroom : buf.toNat + room < 4294967296) :
    Follows (fun s t => buf.toNat + t.chars.length + 1 < 4294967296 →
      Wrote mem buf room 4 t.chars t.targets s)
      (bufferSink buf (buf + .ofNat 32 room)) textSink where
  put c s t h hfits := by
    have hbefore : buf.toNat + t.chars.length + 1 < 4294967296 := by
      simp only [textSink, List.length_append, List.length_singleton] at hfits
      omega
    exact (h hbefore).put c hroom (by show _ < 4294967296; omega)
  count ip s t h hfits := (h hfits).poke _ rfl

/-- The code ends with every buffer if it ends with no limit, and has written the same text. -/
theorem format_buffer (ht : unlimited fmt args = some t) (mem : Word → Byte) (buf : Word)
    {room : Nat} (hroom : buf.toNat + room < 4294967296)
    (hfits : buf.toNat + t.chars.length + 1 < 4294967296) :
    ∃ j, (format (bufferSink buf (buf + .ofNat 32 room)) fmt.chars).run ⟨args, ⟨mem, buf⟩⟩ =
        some (⟨⟩, j) ∧ Wrote mem buf room 4 t.chars t.targets j.out := by
  obtain ⟨⟨u, j'⟩, hrun, rfl⟩ := Option.map_eq_some_iff.1 ht
  obtain ⟨j, hrun', -, hwrote⟩ := format_related (follows mem buf hroom) fmt.chars
    ⟨args, ⟨mem, buf⟩⟩ ⟨args, ⟨[], []⟩⟩ ⟨rfl, fun _ => Wrote.start mem buf room 4⟩ ⟨⟩ j' hrun
  exact ⟨j, hrun', hwrote hfits⟩

/-- The room is a part of the buffer, and the text is truncated alike. -/
theorem room_cases (h : Suits buf size t) :
    0 < room buf size ∧ room buf size ≤ size.toNat ∧ buf.toNat + room buf size < 4294967296 ∧
      min (room buf size - 1) t.chars.length = min (size.toNat - 1) t.chars.length := by
  have hfits := h.fits
  have hpos := h.pos
  have hbuf := buf.isLt
  unfold room
  omega

/-- `vsnprintf` puts the text into the buffer, and returns its length. -/
theorem vsnprintf_truncates (ht : unlimited fmt args = some t) (h : Suits buf size t)
    (mem : Word → Byte) : ∃ mem',
      vsnprintf buf size fmt args mem = some (.ofNat 32 t.chars.length, mem') ∧
        Truncated buf size t mem mem' := by
  obtain ⟨hpos, hle, hroom, hlast⟩ := room_cases h
  obtain ⟨j, hrun, hwrote⟩ := format_buffer ht mem buf hroom h.fits
  have hlength : buf.toNat + t.chars.length < 4294967296 := by
    have := h.fits
    omega
  have hsize : (0 : Word).slt (.ofNat 32 (room buf size)) = true := by
    have hsmall := size_lt h
    have hnat : (BitVec.ofNat 32 (room buf size)).toNat = room buf size := by
      rw [BitVec.toNat_ofNat, Nat.mod_eq_of_lt (by omega)]
    have hnonneg : (BitVec.ofNat 32 (room buf size)).slt 0 = false := by
      rw [Memcpy.slt_zero_iff, hnat]
      omega
    rw [BitVec.slt_iff_toInt_lt, Memcpy.toInt_of_nonneg hnonneg, hnat]
    exact Int.ofNat_lt.2 hpos
  have hreturn : j.out.next - buf = .ofNat 32 t.chars.length := by
    rw [hwrote.next]
    grind
  have hcovers : ∀ a, Covers buf (room buf size) a → Covers buf size.toNat a :=
    fun a ha => Nat.lt_of_lt_of_le ha hle
  obtain ⟨hkept, hstored, hended⟩ := hwrote.terminate 0 hpos hroom hlength
  have hcall : vsnprintf buf size fmt args mem = some (.ofNat 32 t.chars.length,
      Function.update j.out.mem (if j.out.next < buf + .ofNat 32 (room buf size) then j.out.next
        else buf + .ofNat 32 (room buf size) - 1) 0) := by
    rw [vsnprintf, if_neg (by rw [h.nonneg]; exact Bool.false_ne_true)]
    dsimp only
    rw [room_eq]
    dsimp only
    rw [hrun, Option.map_some, hreturn, if_pos hsize]
  refine ⟨_, hcall, ?_⟩
  · refine ⟨fun a houtside hother => ?_, fun i hi hlt => ?_, ?_⟩
    · exact hkept a (fun ha => houtside (hcovers a ha)) hother
    · refine hstored (fun p hp a ha => h.apart p hp a (hcovers a ha)) i hi ?_
      omega
    · rw [← hlast]
      exact hended

/-- The choice of `vscnprintf`. A length that is negative as an `int` is not above the size. -/
theorem scnlength_eq (h : Suits buf size t) :
    (if size.sle (.ofNat 32 t.chars.length) then size - 1 else .ofNat 32 t.chars.length) =
      .ofNat 32 (scnlength size t) := by
  have hfits := h.fits
  have hpos := h.pos
  have hsmall := size_lt h
  have hnat : (BitVec.ofNat 32 t.chars.length).toNat = t.chars.length := by
    rw [BitVec.toNat_ofNat, Nat.mod_eq_of_lt (by omega)]
  have hsle : size.sle (.ofNat 32 t.chars.length) = true ↔
      size.toNat ≤ t.chars.length ∧ t.chars.length < 2147483648 := by
    rw [BitVec.sle_iff_toInt_le, Memcpy.toInt_of_nonneg h.nonneg, BitVec.toInt_eq_toNat_cond, hnat]
    split <;> omega
  unfold scnlength
  by_cases hle : size.toNat ≤ t.chars.length ∧ t.chars.length < 2147483648
  · rw [if_pos (hsle.2 hle), if_pos hle.2, Nat.min_eq_right (by omega)]
    bv_omega
  · rw [if_neg (mt hsle.1 hle)]
    split
    · rw [Nat.min_eq_left (by omega)]
    · rfl

/-- `vscnprintf` returns how many characters are in the buffer, if the length of the text is an
`int`. -/
theorem vscnprintf_eq {mem' : Word → Byte} (h : Suits buf size t)
    (hcall : vsnprintf buf size fmt args mem = some (.ofNat 32 t.chars.length, mem')) :
    vscnprintf buf size fmt args mem = some (.ofNat 32 (scnlength size t), mem') := by
  rw [vscnprintf, hcall, Option.map_some, ← scnlength_eq h]

/-- `printf` stores a second NUL over the first one. -/
theorem printf_eq {outbuf : Word} {mem' : Word → Byte} (h : Suits outbuf 256 t)
    (hcall : vsnprintf outbuf 256 fmt args mem = some (.ofNat 32 t.chars.length, mem'))
    (htruncated : Truncated outbuf 256 t mem mem') (hint : t.chars.length < 2147483648) :
    printf outbuf fmt args mem = some (.ofNat 32 (min t.chars.length 255), mem') := by
  have hended := htruncated.ended
  have hlength : scnlength 256 t = min t.chars.length 255 := if_pos hint
  rw [Nat.min_comm] at hended
  rw [printf, vscnprintf_eq h hcall, Option.map_some, hlength]
  dsimp only
  rw [Function.update_eq_self_iff.2 hended.symm]

/-- A format without conversions is its own output. -/
theorem unlimited_plain (fmt : CString) (h : Gdbstub.ascii '%' ∉ fmt.chars) :
    unlimited fmt [] = some ⟨fmt.chars, []⟩ := by
  have hrun : ∀ (l before : List Byte), Gdbstub.ascii '%' ∉ l →
      (format textSink l).run ⟨[], ⟨before, []⟩⟩ = some (⟨⟩, ⟨[], ⟨before ++ l, []⟩⟩) := by
    intro l
    induction l with
    | nil =>
        intro before _
        rw [format, List.append_nil]
        rfl
    | cons c l ih =>
        intro before hl
        have hc : c ≠ Gdbstub.ascii '%' := (List.ne_of_not_mem_cons hl).symm
        have hrest := ih (before ++ [c]) (List.not_mem_of_not_mem_cons hl)
        rw [List.append_assoc, List.singleton_append] at hrest
        rw [format, if_pos hc]
        exact hrest
  rw [unlimited, hrun fmt.chars [] h]
  rfl

end Vsnprintf

open Vsnprintf

/-- Whatever the arguments, if they match: `vsnprintf` puts the output of unlimited size into the
buffer as far as there is room, stores nothing outside, and returns the length of the unlimited
output. If that is an `int`, `vscnprintf` returns the length of what is in the buffer, and `printf`
keeps to its own buffer. A size that is negative as an `int` is rejected. -/
theorem truncates_cleanly {fmt : CString} {args : List Arg} {t : Text}
    (ht : unlimited fmt args = some t) {buf size outbuf : Word} (hbuf : Suits buf size t)
    (hout : Suits outbuf 256 t) (mem : Word → Byte) :
    (∃ mem', Truncated buf size t mem mem' ∧
      vsnprintf buf size fmt args mem = some (.ofNat 32 t.chars.length, mem') ∧
      vscnprintf buf size fmt args mem = some (.ofNat 32 (scnlength size t), mem')) ∧
    (t.chars.length < 2147483648 → ∃ mem', Truncated outbuf 256 t mem mem' ∧
      printf outbuf fmt args mem = some (.ofNat 32 (min t.chars.length 255), mem')) ∧
    ∀ large : Word, large.slt 0 → vsnprintf buf large fmt args mem = some (0, mem) := by
  obtain ⟨mem₁, hcall₁, htruncated₁⟩ := vsnprintf_truncates ht hbuf mem
  obtain ⟨mem₂, hcall₂, htruncated₂⟩ := vsnprintf_truncates ht hout mem
  exact ⟨⟨mem₁, htruncated₁, hcall₁, vscnprintf_eq hbuf hcall₁⟩,
    fun hint => ⟨mem₂, htruncated₂, printf_eq hout hcall₂ htruncated₂ hint⟩,
    fun _ hlarge => if_pos hlarge⟩

namespace Vsnprintf

/-- The format `a`. -/
def letterFormat : CString := ⟨Gdbstub.text "a", by decide +kernel⟩

/-- The format `[%5d|%n%-4s]`. -/
def rowFormat : CString := ⟨Gdbstub.text "[%5d|%n%-4s]", by decide +kernel⟩

/-- Arguments for it. -/
def rowArgs : List Arg := [.word (-42), .pointer 0x3000, .string (some (Gdbstub.text "abc" ++ [0]))]

/-- What they give. -/
def rowText : Text := ⟨Gdbstub.text "[  -42|abc ]", [0x3000]⟩

end Vsnprintf

/-- The row in a buffer of 8 bytes, and printed from one at another place. -/
theorem truncates_cleanly_row :
    (∃ mem', Truncated 0x1000 8 rowText (fun _ => 0) mem' ∧
      vsnprintf 0x1000 8 rowFormat rowArgs (fun _ => 0) = some (.ofNat 32 12, mem') ∧
      vscnprintf 0x1000 8 rowFormat rowArgs (fun _ => 0) =
        some (.ofNat 32 (scnlength 8 rowText), mem')) ∧
    (rowText.chars.length < 2147483648 → ∃ mem', Truncated 0x2000 256 rowText (fun _ => 0) mem' ∧
      printf 0x2000 rowFormat rowArgs (fun _ => 0) = some (.ofNat 32 (min 12 255), mem')) ∧
    ∀ large : Word, large.slt 0 →
      vsnprintf 0x1000 large rowFormat rowArgs (fun _ => 0) = some (0, fun _ => 0) := by
  have hapart : ∀ {buf n : Word}, buf.toNat + n.toNat ≤ 0x3000 →
      ∀ p ∈ rowText.targets, Apart buf n.toNat p 4 := by
    intro buf n hbefore p hp c hbuf hcount
    obtain rfl := List.mem_singleton.1 hp
    simp only [Covers] at hbuf hcount
    bv_omega
  exact truncates_cleanly (t := rowText) (by decide +kernel)
    ⟨by decide, by decide, by decide +kernel, hapart (by decide)⟩
    ⟨by decide, by decide, by decide +kernel, hapart (by decide)⟩ _

namespace Vsnprintf

/-- A format of `n` letters. -/
def letters (n : Nat) : CString :=
  ⟨List.replicate n (Gdbstub.ascii 'a'), fun h => absurd (List.eq_of_mem_replicate h) (by decide)⟩

/-- A length that is negative as an `int` is what `vscnprintf` returns, whatever the size. -/
theorem vscnprintf_letters {n : Nat} (hlow : 2147483648 ≤ n)
    (hsuits : Suits buf size ⟨(letters n).chars, []⟩) (mem : Word → Byte) :
    unlimited (letters n) [] = some ⟨(letters n).chars, []⟩ ∧
      ∃ mem', vscnprintf buf size (letters n) [] mem = some (.ofNat 32 n, mem') := by
  have hlength : (letters n).chars.length = n := List.length_replicate
  have hplain := unlimited_plain (letters n) fun h =>
    absurd (List.eq_of_mem_replicate h) (by decide)
  obtain ⟨mem', hcall, -⟩ := vsnprintf_truncates hplain hsuits mem
  have hlong : scnlength size ⟨(letters n).chars, []⟩ = n :=
    (if_neg (by rw [hlength]; omega)).trans hlength
  refine ⟨hplain, mem', ?_⟩
  rw [vscnprintf_eq hsuits hcall, hlong]

/-- A buffer for letters. -/
theorem suits_letters {n : Nat} (h : n < 4294963199) :
    Suits 0x1000 8 ⟨(letters n).chars, []⟩ := by
  have hlength : (letters n).chars.length = n := List.length_replicate
  have hbuf : (0x1000 : Word).toNat = 4096 := rfl
  refine ⟨by decide, by decide, ?_, fun p hp => absurd hp List.not_mem_nil⟩
  rw [hbuf, hlength]
  omega

end Vsnprintf

/-- A size that is negative as an `int` is rejected: nothing comes into the buffer. And for an
output of 2^31 characters `vscnprintf` returns that length, a negative `int`, and not 7 for a buffer
of 8 bytes. -/
theorem vsnprintf_rejected :
    (unlimited letterFormat [] = some ⟨Gdbstub.text "a", []⟩ ∧
      vsnprintf 0x1000 0x80000000 letterFormat [] (fun _ => 0) = some (0, fun _ => 0) ∧
      ∀ mem', vsnprintf 0x1000 0x80000000 letterFormat [] (fun _ => 0) ≠
        some (.ofNat 32 1, mem')) ∧
    unlimited (letters 2147483648) [] = some ⟨(letters 2147483648).chars, []⟩ ∧
      ∀ mem', vscnprintf 0x1000 8 (letters 2147483648) [] (fun _ => 0) ≠
        some (.ofNat 32 7, mem') := by
  have hcall : vsnprintf 0x1000 0x80000000 letterFormat [] (fun _ => 0) = some (0, fun _ => 0) :=
    if_pos (by decide)
  obtain ⟨hplain, mem₁, hcall₁⟩ := vscnprintf_letters (n := 2147483648) (Nat.le_refl _)
    (suits_letters (by decide)) (fun _ => 0)
  refine ⟨⟨by decide +kernel, hcall, fun mem' heq => ?_⟩, hplain, fun mem' heq => ?_⟩
  · rw [hcall] at heq
    have hzero : (0 : Word) = .ofNat 32 1 := congrArg Prod.fst (Option.some.inj heq)
    exact absurd hzero (by decide)
  · rw [hcall₁] at heq
    have hseven : BitVec.ofNat 32 2147483648 = .ofNat 32 7 :=
      congrArg Prod.fst (Option.some.inj heq)
    exact absurd hseven (by decide)

end Soc.Libbase
