import Mathlib.Data.List.Basic
import Soc.Csr

/-!
# The MIF writer

`bin2mif` turns the binary of the debug stub into the memory initialisation file of its ROM. In
32-bit mode it reads records of four bytes and pads with zero words up to the size. A last record
that is not complete is never read, and the size is kept in an `int`, so a binary is preserved
exactly if the bytes beyond the last whole word are zero anyway and the size is an `int`
(`preserves_iff`).
-/

namespace Soc.Tools.Bin2mif

/-- `isspace`. -/
def isspace (c : Char) : Bool := c.toNat = 32 || (9 ≤ c.toNat && c.toNat ≤ 13)

/-- The digits at the beginning of a text. -/
def digits (value : Int) : List Char → Int
  | [] => value
  | c :: cs => if c.isDigit then digits (10 * value + (c.toNat - 48)) cs else value

/-- The number a text stands for. -/
def number (s : String) : Int :=
  match s.toList.dropWhile isspace with
  | '-' :: cs => -digits 0 cs
  | '+' :: cs => digits 0 cs
  | cs => digits 0 cs

/-- `strtol` with base 10. A number that is no `long` gives the nearest one. -/
def strtol (s : String) : Int := max (-9223372036854775808) (min 9223372036854775807 (number s))

/-- `atoi`, which is `(int) strtol(s, NULL, 10)`. -/
def atoi (s : String) : Word := .ofInt 32 (strtol s)

/-- What a call of `fprintf` writes to the output file. -/
inductive Line where
  | size (width : Nat) (depth : Int)
  | radix
  | word (addr : Int) (data : List Byte)
  | finish
  deriving DecidableEq

/-- A byte as `%02hhx` prints it. -/
def hex (byte : Byte) : String :=
  String.ofList [(byte.toNat / 16).digitChar, (byte.toNat % 16).digitChar]

/-- The text of a line. -/
def Line.text : Line → String
  | .size width depth => s!"WIDTH={width};\nDEPTH={depth};\n\n"
  | .radix => "ADDRESS_RADIX=UNS;\nDATA_RADIX=HEX;\n\nCONTENT BEGIN\n"
  | .word addr data =>
      let value := String.join (data.map hex)
      s!"\t{addr}\t:\t{value};\n"
  | .finish => "END;\n"

/-- The input file, if it can be opened, and whether the output file can be opened and closed. -/
structure Files where
  fdi : Option (List Byte)
  fdo : Bool
  closes : Bool

/-- The exit status, the messages, and the output file if it was opened. -/
structure Result where
  status : Int
  stderr : List String
  out : Option (List Line)

/-- A loop over the input file has ended. `addr` and `pad` are `int`s. -/
structure Loop where
  lines : List Line
  addr : Word
  pad : Word

/-- The loop in 16-bit mode. -/
def records16 : List Byte → Word → Word → Loop
  | w0 :: w1 :: rest, addr, pad =>
      let loop := records16 rest (addr + 1) (pad - 1)
      { loop with lines := .word addr.toInt [w1, w0] :: loop.lines }
  | _, addr, pad => ⟨[], addr, pad⟩

/-- The loop in 32-bit mode: `fread` fails if less than a record is left. -/
def records32 : List Byte → Word → Word → Loop
  | w0 :: w1 :: w2 :: w3 :: rest, addr, pad =>
      let loop := records32 rest (addr + 1) (pad - 1)
      { loop with lines := .word addr.toInt [w0, w1, w2, w3] :: loop.lines }
  | _, addr, pad => ⟨[], addr, pad⟩

/-- The loops that pad the output, with words of `bytes` bytes and some rounds to go. -/
def padding (bytes : Nat) (addr : Word) : Nat → List Line
  | 0 => []
  | n + 1 => .word addr.toInt (List.replicate bytes 0) :: padding bytes (addr + 1) n

/-- `main` after its arguments are counted. -/
def convert (size : String) (mode16 : Bool) (files : Files) : Result :=
  let pad := atoi size
  if pad.sle 0 then ⟨1, ["Incorrect size\n"], none⟩
  else
    match files.fdi with
    | none => ⟨1, ["Unable to open input file"], none⟩
    | some file =>
        if !files.fdo then ⟨1, ["Unable to open output file"], none⟩
        else
          let loop := if mode16 then records16 file 0 pad else records32 file 0 pad
          let warning :=
            if loop.pad.slt 0 then ["Warning: Input binary is larger than specified size\n"] else []
          let out := [.size (if mode16 then 16 else 32) pad.toInt, .radix] ++ loop.lines ++
            padding (if mode16 then 2 else 4) loop.addr loop.pad.toInt.toNat ++ [.finish]
          if files.closes then ⟨0, warning, some out⟩
          else ⟨1, warning ++ ["Unable to close output file"], some out⟩

/-- `main`. -/
def main (argv : List String) (files : Files) : Result :=
  match argv with
  | [_, _, _, size] => convert size false files
  | [_, _, _, size, mode] => convert size (mode == "16") files
  | _ => ⟨1, ["Usage: bin2mif <infile> <outfile> <size> [16]\n"], none⟩

/-- The words of an output file, with their addresses. -/
def words (lines : List Line) : List (Int × List Byte) :=
  lines.filterMap fun line =>
    match line with
    | .word addr data => some (addr, data)
    | _ => none

/-- A file in 32-bit mode that preserves a binary: the words of the addresses below `size`, in order
and nothing else between the header and the end, and in them the bytes of the binary and zeros. -/
structure Preserves (lines : List Line) (file : List Byte) (size : Int) : Prop where
  only : lines = [.size 32 size, .radix] ++ (words lines).map (fun w => .word w.1 w.2) ++ [.finish]
  addresses : (words lines).map Prod.fst = (List.range size.toNat).map Int.ofNat
  wide : ∀ w ∈ words lines, w.2.length = 4
  data : (words lines).flatMap Prod.snd = file ++ List.replicate (4 * size.toNat - file.length) 0

/-- The whole records of a binary. -/
def chunks : List Byte → List (List Byte)
  | w0 :: w1 :: w2 :: w3 :: rest => [w0, w1, w2, w3] :: chunks rest
  | _ => []

/-- The lines for some words from an address on. -/
def linesFrom (addr : Int) : List (List Byte) → List Line
  | [] => []
  | data :: rest => .word addr data :: linesFrom (addr + 1) rest

section Lines

variable {addr : Int} {data data' : List (List Byte)}

/-- Words behind others. -/
theorem lines_from_append :
    linesFrom addr (data ++ data') =
      linesFrom addr data ++ linesFrom (addr + data.length) data' := by
  induction data generalizing addr with
  | nil => rw [List.nil_append, linesFrom, List.nil_append, List.length_nil, Int.natCast_zero,
      Int.add_zero]
  | cons word rest ih =>
      have haddr : addr + 1 + rest.length = addr + (word :: rest).length := by
        rw [List.length_cons]
        omega
      rw [List.cons_append, linesFrom, ih, haddr, linesFrom, List.cons_append]

/-- The data of these lines. -/
theorem map_snd_words : (words (linesFrom addr data)).map Prod.snd = data := by
  induction data generalizing addr with
  | nil => rfl
  | cons word rest ih =>
      show word :: (words (linesFrom (addr + 1) rest)).map Prod.snd = _
      rw [ih]

/-- The addresses of these lines. -/
theorem map_fst_words : (words (linesFrom addr data)).map Prod.fst =
    (List.range data.length).map fun i : Nat => addr + i := by
  induction data generalizing addr with
  | nil => rfl
  | cons word rest ih =>
      show addr :: (words (linesFrom (addr + 1) rest)).map Prod.fst = _
      rw [ih, List.length_cons, List.range_succ_eq_map, List.map_cons, List.map_map,
        Int.natCast_zero, Int.add_zero]
      congr 1
      refine List.map_congr_left fun i _ => ?_
      simp only [Function.comp_apply, Nat.succ_eq_add_one, Int.natCast_add, Int.natCast_one]
      omega

/-- They hold nothing but words. -/
theorem lines_eq_words :
    linesFrom addr data = (words (linesFrom addr data)).map fun w => .word w.1 w.2 := by
  induction data generalizing addr with
  | nil => rfl
  | cons word rest ih =>
      show _ = Line.word addr word :: (words (linesFrom (addr + 1) rest)).map _
      rw [← ih, linesFrom]

/-- The next address. -/
theorem toInt_add_one {addr : Word} (h : addr.toInt + 1 < 2147483648) :
    (addr + 1).toInt = addr.toInt + 1 := by
  have haddr := BitVec.le_toInt addr
  have hone : (1 : Word).toInt = 1 := by decide
  rw [BitVec.toInt_add, hone]
  exact Int.bmod_eq_of_le (by omega) (by omega)

/-- The header and the end hold no word. -/
theorem words_file (width : Nat) (depth : Int) (lines : List Line) :
    words ([.size width depth, .radix] ++ lines ++ [.finish]) = words lines := by
  unfold words
  rw [List.filterMap_append, List.filterMap_append]
  exact List.append_nil _

/-- The loop in 32-bit mode emits the whole records, as long as the addresses are `int`s. -/
theorem records32_eq (file : List Byte) (addr pad : Word)
    (h : addr.toInt + (chunks file).length < 2147483648) : records32 file addr pad =
      ⟨linesFrom addr.toInt (chunks file), addr + .ofNat 32 (chunks file).length,
        pad - .ofNat 32 (chunks file).length⟩ := by
  induction file, addr, pad using records32.induct with
  | case1 w0 w1 w2 w3 rest addr pad ih =>
      simp only [chunks, List.length_cons] at h
      have hnext : (addr + 1).toInt = addr.toInt + 1 := toInt_add_one (by omega)
      have hcount : (BitVec.ofNat 32 ((chunks rest).length + 1)) =
          1 + .ofNat 32 (chunks rest).length := by
        rw [Nat.add_comm, BitVec.ofNat_add]
        rfl
      have hpad : pad - 1 - .ofNat 32 (chunks rest).length =
          pad - (1 + .ofNat 32 (chunks rest).length) := by grind
      rw [records32, ih (by omega), hnext]
      simp only [chunks, linesFrom, List.length_cons, hcount, hpad, BitVec.add_assoc]
  | case2 file addr pad hshort =>
      rw [records32.eq_2 _ _ _ hshort, chunks.eq_2 _ hshort]
      simp [linesFrom]

/-- What holds no whole record is shorter. -/
theorem length_lt_four {file : List Byte}
    (h : ∀ w0 w1 w2 w3 rest, file = w0 :: w1 :: w2 :: w3 :: rest → False) : file.length < 4 := by
  match file with
  | [] | [_] | [_, _] | [_, _, _] => simp
  | w0 :: w1 :: w2 :: w3 :: rest => exact (h w0 w1 w2 w3 rest rfl).elim

/-- The whole records of a binary are what it starts with. -/
theorem chunks_flatten (file : List Byte) :
    (chunks file).length = file.length / 4 ∧
      (chunks file).flatten = file.take (file.length / 4 * 4) := by
  induction file using chunks.induct with
  | case1 w0 w1 w2 w3 rest ih =>
      obtain ⟨hlength, hflatten⟩ := ih
      have hcount : (w0 :: w1 :: w2 :: w3 :: rest).length / 4 = rest.length / 4 + 1 := by
        simp only [List.length_cons]
        omega
      rw [chunks, List.length_cons, hcount, hlength, List.flatten_cons, hflatten, Nat.succ_mul]
      exact ⟨rfl, rfl⟩
  | case2 file h =>
      have hcount : file.length / 4 = 0 := Nat.div_eq_of_lt (length_lt_four h)
      rw [chunks.eq_2 _ h, hcount]
      exact ⟨rfl, rfl⟩

/-- The padding emits zero words, as long as the addresses are `int`s. -/
theorem padding_eq (bytes n : Nat) (addr : Word) (h : addr.toInt + n ≤ 2147483648) :
    padding bytes addr n =
      linesFrom addr.toInt (List.replicate n (List.replicate bytes 0)) := by
  induction n generalizing addr with
  | zero => rfl
  | succ n ih =>
      rw [padding, List.replicate_succ, linesFrom]
      cases n with
      | zero => rfl
      | succ n =>
          have hnext : (addr + 1).toInt = addr.toInt + 1 := toInt_add_one (by omega)
          rw [ih (addr + 1) (by omega), hnext]

/-- A whole record has four bytes. -/
theorem length_of_mem_chunks {file record : List Byte} (h : record ∈ chunks file) :
    record.length = 4 := by
  induction file using chunks.induct with
  | case1 w0 w1 w2 w3 rest ih =>
      rw [chunks, List.mem_cons] at h
      rcases h with rfl | h
      · rfl
      · exact ih h
  | case2 file hshort =>
      rw [chunks.eq_2 _ hshort] at h
      cases h

end Lines

/-- Zeros behind the whole records are the binary and zeros if the rest of it is zero. -/
theorem take_append_eq_iff {file : List Byte} {m n k : Nat} (hm : m ≤ file.length)
    (hlength : m + k = file.length + n) :
    file.take m ++ List.replicate k 0 = file ++ List.replicate n 0 ↔
      ∀ byte ∈ file.drop m, byte = 0 := by
  have hk : k = (file.drop m).length + n := by
    rw [List.length_drop]
    omega
  have hsplit : file ++ List.replicate n 0 =
      file.take m ++ (file.drop m ++ List.replicate n 0) := by
    rw [← List.append_assoc, List.take_append_drop]
  rw [hsplit, List.append_cancel_left_eq, hk, ← List.replicate_append_replicate,
    List.append_cancel_right_eq, eq_comm, List.eq_replicate_iff]
  exact ⟨fun h => h.2, fun h => ⟨rfl, h⟩⟩

/-- A file of `size` words in order preserves a binary if their bytes are it and zeros. -/
theorem preserves_words {data : List (List Byte)} {file : List Byte} {size : Int}
    (hlength : data.length = size.toNat) (hwide : ∀ word ∈ data, word.length = 4) :
    Preserves ([.size 32 size, .radix] ++ linesFrom 0 data ++ [.finish]) file size ↔
      data.flatten = file ++ List.replicate (4 * size.toNat - file.length) 0 := by
  have hdata : (words (linesFrom 0 data)).flatMap Prod.snd = data.flatten := by
    rw [List.flatMap_def, map_snd_words]
  constructor
  · intro h
    rw [← hdata, ← h.data, words_file]
  · intro h
    refine ⟨?_, ?_, ?_, ?_⟩
    all_goals rw [words_file]
    · rw [← lines_eq_words]
    · rw [map_fst_words, hlength]
      exact List.map_congr_left fun i _ => Int.zero_add _
    · intro w hw
      have hmem : w.2 ∈ (words (linesFrom 0 data)).map Prod.snd := List.mem_map_of_mem hw
      rw [map_snd_words] at hmem
      exact hwide w.2 hmem
    · exact hdata.trans h

/-- The size is kept if it is an `int`. -/
theorem toInt_atoi {s : String} (hpos : 0 < number s) (h : number s < 2147483648) :
    (atoi s).toInt = number s := by
  have hlong : strtol s = number s := by
    rw [strtol]
    omega
  rw [atoi, hlong, BitVec.toInt_ofInt]
  exact Int.bmod_eq_of_le (by omega) (by omega)

/-- What `bin2mif` writes for a binary that fits, with a size that is an `int`: its whole records,
and zero words up to the size. -/
theorem convert_eq {size : String} {files : Files} {file : List Byte} (hsize : 0 < number size)
    (hint : number size < 2147483648) (hfdi : files.fdi = some file) (hfdo : files.fdo = true)
    (hcloses : files.closes = true) (hfits : file.length ≤ 4 * (number size).toNat) :
    convert size false files =
      ⟨0, [], some ([.size 32 (number size), .radix] ++ linesFrom 0 (chunks file ++
        List.replicate ((number size).toNat - file.length / 4) (List.replicate 4 0)) ++
          [.finish])⟩ := by
  have hatoi := toInt_atoi hsize hint
  have hzero : (0 : Word).toInt = 0 := rfl
  have hcount := (chunks_flatten file).1
  have hle : file.length / 4 ≤ (number size).toNat := by omega
  have hchunks : (BitVec.ofNat 32 (chunks file).length).toInt = (chunks file).length := by
    rw [hcount, BitVec.toInt_eq_toNat_of_lt] <;> rw [BitVec.toNat_ofNat] <;> omega
  have hpad : (atoi size - .ofNat 32 (chunks file).length).toInt =
      number size - (chunks file).length := by
    rw [BitVec.toInt_sub, hatoi, hchunks]
    exact Int.bmod_eq_of_le (by omega) (by omega)
  have hsle : (atoi size).sle 0 = false := by
    rw [Bool.eq_false_iff, ne_eq, BitVec.sle_iff_toInt_le, hatoi, hzero]
    omega
  have hslt : (atoi size - .ofNat 32 (chunks file).length).slt 0 = false := by
    rw [Bool.eq_false_iff, ne_eq, BitVec.slt_iff_toInt_lt, hpad, hzero]
    omega
  have hrest : (number size - (chunks file).length).toNat =
      (number size).toNat - file.length / 4 := by
    omega
  have hrecords := records32_eq file 0 (atoi size) (by rw [hzero]; omega)
  have haddr : ((0 : Word) + .ofNat 32 (chunks file).length).toInt =
      0 + (chunks file).length := by
    rw [show (0 : Word) + .ofNat 32 (chunks file).length = .ofNat 32 (chunks file).length from
      BitVec.zero_add _, hchunks, Int.zero_add]
  have hpadding := padding_eq 4 ((number size).toNat - file.length / 4)
    (0 + .ofNat 32 (chunks file).length) (by rw [haddr]; omega)
  rw [haddr] at hpadding
  simp only [convert, hsle, hfdi, hfdo, hcloses, Bool.not_true, Bool.false_eq_true, if_false,
    if_true, hrecords, hslt, hatoi, hpad, hrest, hpadding, hzero, lines_from_append,
    List.append_assoc]

/-- What is written for a binary that fits preserves it if the rest of the binary is zero. -/
theorem preserves_convert {size : Int} (file : List Byte) (hfits : file.length ≤ 4 * size.toNat) :
    Preserves ([.size 32 size, .radix] ++ linesFrom 0 (chunks file ++
        List.replicate (size.toNat - file.length / 4) (List.replicate 4 0)) ++ [.finish]) file
      size ↔ ∀ byte ∈ file.drop (file.length / 4 * 4), byte = 0 := by
  obtain ⟨hcount, hflatten⟩ := chunks_flatten file
  rw [preserves_words, List.flatten_append, hflatten, List.flatten_replicate_replicate,
    take_append_eq_iff (Nat.div_mul_le_self _ 4) (by omega)]
  · rw [List.length_append, hcount, List.length_replicate]
    omega
  · intro word hword
    rcases List.mem_append.1 hword with hchunk | hpad
    · exact length_of_mem_chunks hchunk
    · rw [List.eq_of_mem_replicate hpad, List.length_replicate]

/-- The size that an output file names is an `int`. -/
theorem size_of_convert {s : String} {files : Files} {lines : List Line} {file : List Byte}
    {size : Int} (hconvert : convert s false files = ⟨0, [], some lines⟩)
    (h : Preserves lines file size) : size < 2147483648 := by
  have hfail : ∀ (stderr : List String) (out : Option (List Line)),
      Result.mk 1 stderr out ≠ ⟨0, [], some lines⟩ := fun stderr out heq =>
    have hstatus : (1 : Int) = 0 := congrArg Result.status heq
    absurd hstatus (by decide)
  have hhead : lines.head? = some (.size 32 (atoi s).toInt) := by
    rw [convert] at hconvert
    split at hconvert
    · exact absurd hconvert (hfail _ _)
    · split at hconvert
      · exact absurd hconvert (hfail _ _)
      · split at hconvert
        · exact absurd hconvert (hfail _ _)
        · simp only [Bool.false_eq_true, if_false] at hconvert
          split at hconvert
          · rw [← Option.some.inj (congrArg Result.out hconvert)]
            rfl
          · exact absurd hconvert (hfail _ _)
  rw [h.only] at hhead
  have hsize : size = (atoi s).toInt := by
    injection Option.some.inj hhead
  rw [hsize]
  exact BitVec.toInt_lt

/-- In 32-bit mode `bin2mif` preserves a binary that fits if and only if the size is an `int` and
the bytes beyond the last whole word of the binary are zero. -/
theorem preserves_iff (prog infile outfile s : String) (mode : Option String)
    (hmode : mode ≠ some "16") (files : Files) (file : List Byte) (hsize : 0 < number s)
    (hfdi : files.fdi = some file) (hfdo : files.fdo = true) (hcloses : files.closes = true)
    (hfits : file.length ≤ 4 * (number s).toNat) :
    (∃ lines, main ([prog, infile, outfile, s] ++ mode.toList) files = ⟨0, [], some lines⟩ ∧
      Preserves lines file (number s)) ↔
      number s < 2147483648 ∧ ∀ byte ∈ file.drop (file.length / 4 * 4), byte = 0 := by
  have hmain : main ([prog, infile, outfile, s] ++ mode.toList) files = convert s false files := by
    cases mode with
    | none => rfl
    | some mode =>
        have hne : (mode == "16") = false := beq_eq_false_iff_ne.2 fun h => hmode (congrArg some h)
        show convert s (mode == "16") files = _
        rw [hne]
  rw [hmain]
  by_cases hint : number s < 2147483648
  · rw [convert_eq hsize hint hfdi hfdo hcloses hfits, ← preserves_convert file hfits]
    simp only [Result.mk.injEq, Option.some.injEq, true_and, exists_eq_left', hint]
  · refine iff_of_false ?_ fun h => hint h.1
    rintro ⟨lines, hlines, hpreserves⟩
    exact absurd (size_of_convert hlines hpreserves) hint

/-- A binary of one word is preserved. -/
theorem preserves_iff_word : ∃ lines,
    main ["bin2mif", "a.bin", "a.mif", "2"] ⟨some [0xde, 0xad, 0xbe, 0xef], true, true⟩ =
      ⟨0, [], some lines⟩ ∧ Preserves lines [0xde, 0xad, 0xbe, 0xef] 2 :=
  (preserves_iff "bin2mif" "a.bin" "a.mif" "2" none (by simp)
    ⟨some [0xde, 0xad, 0xbe, 0xef], true, true⟩ [0xde, 0xad, 0xbe, 0xef] (by decide) rfl rfl rfl
    (by decide)).2 ⟨by decide, by decide⟩

/-- The text for a word and a half, of which the half is lost. -/
example : ((main ["bin2mif", "a.bin", "a.mif", "2"]
    ⟨some [0xde, 0xad, 0xbe, 0xef, 0x12, 0x34], true, true⟩).out.getD []).map Line.text =
    ["WIDTH=32;\nDEPTH=2;\n\n",
     "ADDRESS_RADIX=UNS;\nDATA_RADIX=HEX;\n\nCONTENT BEGIN\n",
     "\t0\t:\tdeadbeef;\n", "\t1\t:\t00000000;\n", "END;\n"] := by
  decide +kernel

-- A size of 2^32 + 2 is kept as 2.
example : atoi "4294967298" = 2 := by decide +kernel

/-- The last two bytes of a binary of a word and a half are lost. -/
theorem tail_lost : ¬ ∀ (file : List Byte) (s : String), 0 < number s →
    file.length ≤ 4 * (number s).toNat → ∃ lines,
      main ["bin2mif", "a.bin", "a.mif", s] ⟨some file, true, true⟩ = ⟨0, [], some lines⟩ ∧
        Preserves lines file (number s) := by
  intro h
  obtain ⟨lines, hmain, hpreserves⟩ := h [0xde, 0xad, 0xbe, 0xef, 0x12, 0x34] "2" (by decide)
    (by decide)
  have hlines : lines = [.size 32 2, .radix, .word 0 [0xde, 0xad, 0xbe, 0xef],
      .word 1 [0, 0, 0, 0], .finish] := by
    have hout := congrArg Result.out hmain
    exact (Option.some.inj hout).symm
  subst hlines
  exact absurd hpreserves.data (by decide)

end Soc.Tools.Bin2mif
