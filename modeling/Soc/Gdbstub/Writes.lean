import Soc.Gdbstub.Delivery

/-!
# Packets that write

The packets `M`, `X`, `G` and `P` of GDB, and what the stub answers to malformed ones. It
looks at the header only: with a complete header it copies the declared number of bytes out
of the buffer, whatever the packet holds, and answers `OK`. A packet of `BUFMAX` or more
characters is dropped without an answer.
-/

namespace Soc.Gdbstub

/-- `p` is the text of a memory write: a header `addr,length:` and data. -/
def MemText (c : Char) (p addr length data : List Byte) : Prop :=
  p = ascii c :: addr ++ ascii ',' :: length ++ ascii ':' :: data ∧ Numeral addr ∧ Numeral length

/-- `p` is the text of a register write: a header `reg=` and data. -/
def RegText (p reg data : List Byte) : Prop :=
  p = ascii 'P' :: reg ++ ascii '=' :: data ∧ Numeral reg

/-- The data starts with the digits of `count` bytes. -/
def HexData (data : List Byte) (count : Nat) : Prop :=
  2 * count ≤ data.length ∧ ∀ c ∈ data.take (2 * count), 0 ≤ hex c

/-- The data starts with `count` bytes of binary data. -/
def BinData (data : List Byte) (count : Nat) : Prop :=
  ∃ chars bytes rest, data = chars ++ rest ∧ Escapes chars bytes ∧ bytes.length = count

/-- The packet is one of the four that write. -/
def Writes (p : List Byte) : Prop :=
  ∃ c, c ∈ ['M', 'X', 'G', 'P'] ∧ p.head? = some (ascii c)

/-- The packet has all the data that it declares or that its command implies. -/
def WellFormed (p : List Byte) : Prop :=
  (∃ addr length data, MemText 'M' p addr length data ∧ HexData data (numeral length)) ∨
  (∃ addr length data, MemText 'X' p addr length data ∧ BinData data (numeral length)) ∨
  (∃ data, p = ascii 'G' :: data ∧ HexData data (NUM_REGS * 4)) ∨
  ∃ reg data, RegText p reg data ∧ HexData data 4

/-- The header of the packet is complete. `G` has none. -/
def HasHeader (p : List Byte) : Prop :=
  (∃ addr length data, MemText 'M' p addr length data ∨ MemText 'X' p addr length data) ∨
  (∃ data, p = ascii 'G' :: data) ∨ ∃ reg data, RegText p reg data

/-- The stub answers the packet with an error, and memory and the saved registers in it stay as they
are. -/
def Refuses (s : Stub) (p : List Byte) : Prop :=
  ∃ d1 d2 s', 0 ≤ hex d1 ∧ 0 ≤ hex d2 ∧ s.Answers p [ascii 'E', d1, d2] s' ∧ s'.mem = s.mem

section Headers

variable {buf : Nat → Byte} {addr length reg q : List Byte} {c : Byte}

/-- The arguments `addr,length` at the start of a packet. -/
theorem memArgs_reads (haddr : Numeral addr) (hlength : Numeral length)
    (h : Reads buf 1 (addr ++ ascii ',' :: length ++ [c])) (hc : hex c < 0)
    (hroom : addr.length + length.length ≤ BUFMAX) :
    memArgs buf = some (.ofNat 32 (numeral addr), .ofNat 32 (numeral length),
      1 + addr.length + 1 + length.length) := by
  rw [List.append_assoc, reads_append] at h
  obtain ⟨haddr', hcomma, hlength'⟩ := h
  have hfirst := hexArg_reads haddr (reads_append.2 ⟨haddr', hcomma, trivial⟩) (by decide)
    (by omega)
  have hsecond := hexArg_reads hlength hlength' hc (by omega)
  rw [memArgs, hfirst, Option.bind_eq_bind, Option.bind_some]
  simp only [charArg_reads hcomma, Option.bind_eq_bind, Option.bind_some, hsecond, Option.pure_def]

/-- Arguments that were read are at the start of the packet. -/
theorem memArgs_eq_some {r : Word × Word × Nat} (h : Reads buf 1 (q ++ [0]))
    (hroom : q.length ≤ BUFMAX) (hread : memArgs buf = some r) :
    ∃ addr length q', q = addr ++ ascii ',' :: length ++ q' ∧ Numeral addr ∧ Numeral length ∧
      Reads buf r.2.2 (q' ++ [0]) := by
  simp only [memArgs, Option.bind_eq_bind, Option.bind_eq_some_iff, Option.pure_def,
    Option.some.injEq] at hread
  obtain ⟨⟨a, ptr⟩, hfirst, ptr', hcomma, ⟨n, ptr''⟩, hsecond, rfl⟩ := hread
  obtain ⟨addr, q, rfl, haddr, -, hrest⟩ := hexArg_eq_some h hroom hfirst
  obtain ⟨q, rfl, -, hrest⟩ := charArg_eq_some hrest (by decide) hcomma
  rw [List.length_append, List.length_cons] at hroom
  obtain ⟨length, q, rfl, hlength, -, hrest⟩ := hexArg_eq_some hrest (by omega) hsecond
  exact ⟨addr, length, q, by simp, haddr, hlength, hrest⟩

/-- The arguments of `cmd_mem_write`. -/
def writeArgs (buf : Nat → Byte) : Option (Word × Word × Nat) := do
  let (addr, length, ptr) ← memArgs buf
  let ptr ← charArg buf ptr ':'
  pure (addr, length, ptr)

/-- The arguments of `cmd_reg_set`. -/
def setArgs (buf : Nat → Byte) : Option (Word × Nat) := do
  let (reg, ptr) ← hexArg buf 1
  let ptr ← charArg buf ptr '='
  pure (reg, ptr)

variable {p data : List Byte} {ch : Char}

/-- The header of a memory write, and where the data starts. -/
theorem writeArgs_reads (hp : MemText ch p addr length data) (h : Reads buf 0 (p ++ [0]))
    (hroom : p.length < BUFMAX) :
    ∃ ptr, writeArgs buf = some (.ofNat 32 (numeral addr), .ofNat 32 (numeral length), ptr) ∧
      Reads buf ptr (data ++ [0]) := by
  obtain ⟨rfl, haddr, hlength⟩ := hp
  have hsplit : ascii ch :: addr ++ ascii ',' :: length ++ ascii ':' :: data ++ [0] =
      ascii ch :: ((addr ++ ascii ',' :: length ++ [ascii ':']) ++ (data ++ [0])) := by simp
  rw [hsplit, reads_cons, reads_append, Nat.zero_add] at h
  obtain ⟨-, hheader, hdata⟩ := h
  simp only [List.length_append, List.length_cons] at hroom
  have hargs := memArgs_reads haddr hlength hheader (by decide) (by omega)
  have hcolon := (reads_append.1 hheader).2.1
  have hptr : 1 + (addr ++ ascii ',' :: length).length = 1 + addr.length + 1 + length.length := by
    rw [List.length_append, List.length_cons]
    omega
  have hend : 1 + (addr ++ ascii ',' :: length ++ [ascii ':']).length =
      1 + addr.length + 1 + length.length + 1 := by
    rw [List.length_append, List.length_singleton, ← Nat.add_assoc, hptr]
  rw [hptr] at hcolon
  rw [hend] at hdata
  refine ⟨_, ?_, hdata⟩
  simp only [writeArgs, hargs, Option.bind_eq_bind, Option.bind_some, charArg_reads hcolon,
    Option.pure_def]

/-- A header the stub reads is a header of the packet. -/
theorem writeArgs_eq_some {r : Word × Word × Nat} (h : Reads buf 0 (ascii ch :: q ++ [0]))
    (hroom : (ascii ch :: q).length < BUFMAX) (hread : writeArgs buf = some r) :
    ∃ addr length data, MemText ch (ascii ch :: q) addr length data := by
  simp only [writeArgs, Option.bind_eq_bind, Option.bind_eq_some_iff, Option.pure_def,
    Option.some.injEq] at hread
  obtain ⟨r', hargs, ptr, hcolon, -⟩ := hread
  rw [List.length_cons] at hroom
  obtain ⟨addr, length, q, rfl, haddr, hlength, hrest⟩ := memArgs_eq_some h.2 (by omega) hargs
  obtain ⟨data, rfl, -, -⟩ := charArg_eq_some hrest (by decide) hcolon
  exact ⟨addr, length, data, by simp, haddr, hlength⟩

/-- The header of a register write, and where the data starts. -/
theorem setArgs_reads (hp : RegText p reg data) (h : Reads buf 0 (p ++ [0]))
    (hroom : p.length < BUFMAX) :
    ∃ ptr, setArgs buf = some (.ofNat 32 (numeral reg), ptr) ∧ Reads buf ptr (data ++ [0]) := by
  obtain ⟨rfl, hreg⟩ := hp
  rw [List.cons_append, List.cons_append, reads_cons, Nat.zero_add, List.append_assoc,
    reads_append] at h
  obtain ⟨-, hreg', hequals, hdata⟩ := h
  simp only [List.length_append, List.length_cons] at hroom
  have harg := hexArg_reads hreg (reads_append.2 ⟨hreg', hequals, trivial⟩) (by decide) (by omega)
  refine ⟨_, ?_, hdata⟩
  simp only [setArgs, harg, Option.bind_eq_bind, Option.bind_some, charArg_reads hequals,
    Option.pure_def]

/-- A header the stub reads is a header of the packet. -/
theorem setArgs_eq_some {r : Word × Nat} (h : Reads buf 0 (ascii 'P' :: q ++ [0]))
    (hroom : (ascii 'P' :: q).length < BUFMAX) (hread : setArgs buf = some r) :
    ∃ reg data, RegText (ascii 'P' :: q) reg data := by
  simp only [setArgs, Option.bind_eq_bind, Option.bind_eq_some_iff, Option.pure_def,
    Option.some.injEq] at hread
  obtain ⟨⟨v, ptr⟩, harg, ptr', hequals, -⟩ := hread
  rw [List.length_cons] at hroom
  obtain ⟨reg, q, rfl, hreg, -, hrest⟩ := hexArg_eq_some h.2 (by omega) harg
  obtain ⟨data, rfl, -, -⟩ := charArg_eq_some hrest (by decide) hequals
  exact ⟨reg, data, by simp, hreg⟩

end Headers

/-- The packet is in the buffer the commands read. -/
theorem Stub.deliver_head {s : Stub} {c : Byte} {q : List Byte} :
    (s.deliver (c :: q)).remcomInBuffer 0 = c :=
  (s.deliver_reads (c :: q)).1

/-- The text of a constant reply. -/
theorem replyText_reply (s : Stub) {t : String} (hnul : 0 ∉ text t)
    (hlength : (text t).length ≤ BUFMAX) : (s.reply t).replyText = text t :=
  cString_of_reads (reads_strcpy _ _ _) hnul (Nat.lt_succ_of_le hlength)

/-- A command that answers `OK`. -/
theorem Stub.answers_ok {s st : Stub} {p : List Byte} (hp : Plain p) (hroom : p.length < BUFMAX)
    (h : (s.deliver p).execute = (st.reply "OK", .reply)) :
    s.Answers p (text "OK") (st.reply "OK") := by
  have hanswers := answers_execute hp hroom (by rw [h])
  rwa [h, replyText_reply st (by decide) (by decide)] at hanswers

section Refusals

variable {s st : Stub} {p : List Byte} {c : Char}

/-- A memory write with a complete header is answered `OK`. -/
theorem memWrite_answer {addr length data : List Byte} (hp : MemText c p addr length data)
    (hroom : p.length < BUFMAX) (binary : Bool) :
    ∃ st : Stub, (s.deliver p).cmdMemWrite binary = st.reply "OK" := by
  obtain ⟨ptr, hargs, -⟩ := writeArgs_reads hp (s.deliver_reads p) hroom
  rw [writeArgs] at hargs
  simp only [Stub.cmdMemWrite, hargs]
  exact ⟨_, rfl⟩

/-- One without is answered with an error. -/
theorem memWrite_refuse (h : writeArgs (s.deliver p).remcomInBuffer = none) (binary : Bool) :
    (s.deliver p).cmdMemWrite binary = (s.deliver p).reply "E22" := by
  rw [writeArgs] at h
  simp only [Stub.cmdMemWrite, h]

/-- A register write with a complete header is answered `OK`. -/
theorem regSet_answer {reg data : List Byte} (hp : RegText p reg data) (hroom : p.length < BUFMAX) :
    ∃ st : Stub, (s.deliver p).cmdRegSet = st.reply "OK" := by
  obtain ⟨ptr, hargs, -⟩ := setArgs_reads hp (s.deliver_reads p) hroom
  rw [setArgs] at hargs
  simp only [Stub.cmdRegSet, hargs]
  exact ⟨_, rfl⟩

/-- One without is answered with an error. -/
theorem regSet_refuse (h : setArgs (s.deliver p).remcomInBuffer = none) :
    (s.deliver p).cmdRegSet = (s.deliver p).reply "E22" := by
  rw [setArgs] at h
  simp only [Stub.cmdRegSet, h]

/-- The reply `OK` is no error. -/
theorem not_refuses_of_ok (hp : Plain p) (h : (s.deliver p).execute = (st.reply "OK", .reply)) :
    ¬ Refuses s p := by
  rintro ⟨d1, d2, s', -, -, herror, -⟩
  have hreply := herror.reply_unique (Stub.answers_ok hp (herror.length_lt hp) h)
  exact absurd (List.cons.inj hreply).1 (by decide)

/-- The reply `E22` is an error. -/
theorem refuses_of_error (hp : Plain p) (hroom : p.length < BUFMAX)
    (h : (s.deliver p).execute = ((s.deliver p).reply "E22", .reply)) : Refuses s p := by
  have hanswers := Stub.answers_execute hp hroom (by rw [h])
  rw [h, replyText_reply (s.deliver p) (by decide) (by decide)] at hanswers
  exact ⟨ascii '2', ascii '2', _, by decide, by decide, hanswers, rfl⟩

/-- A memory write that fits is refused exactly without a complete header. -/
theorem memWrite_refuses_iff {q : List Byte} (hp : Plain (ascii c :: q))
    (hroom : (ascii c :: q).length < BUFMAX) {binary : Bool}
    (hexecute : ∀ s : Stub, s.remcomInBuffer 0 = ascii c →
      s.execute = (s.cmdMemWrite binary, .reply)) :
    Refuses s (ascii c :: q) ↔ ¬ ∃ addr length data, MemText c (ascii c :: q) addr length data := by
  have hrun := hexecute _ (Stub.deliver_head (s := s) (c := ascii c) (q := q))
  constructor
  · rintro hrefuses ⟨addr, length, data, htext⟩
    obtain ⟨st, hok⟩ := memWrite_answer (s := s) htext hroom binary
    exact not_refuses_of_ok hp (hrun.trans (by rw [hok])) hrefuses
  · intro hnone
    refine refuses_of_error hp hroom (hrun.trans ?_)
    rw [memWrite_refuse]
    refine Option.eq_none_iff_forall_ne_some.2 fun r hr => hnone ?_
    exact writeArgs_eq_some (s.deliver_reads _) hroom hr

/-- A register write that fits is refused exactly without a complete header. -/
theorem regSet_refuses_iff {q : List Byte} (hp : Plain (ascii 'P' :: q))
    (hroom : (ascii 'P' :: q).length < BUFMAX) :
    Refuses s (ascii 'P' :: q) ↔ ¬ ∃ reg data, RegText (ascii 'P' :: q) reg data := by
  have hrun := Stub.execute_regSet _ (Stub.deliver_head (s := s) (c := ascii 'P') (q := q))
  constructor
  · rintro hrefuses ⟨reg, data, htext⟩
    obtain ⟨st, hok⟩ := regSet_answer (s := s) htext hroom
    exact not_refuses_of_ok hp (hrun.trans (by rw [hok])) hrefuses
  · intro hnone
    refine refuses_of_error hp hroom (hrun.trans ?_)
    rw [regSet_refuse]
    refine Option.eq_none_iff_forall_ne_some.2 fun r hr => hnone ?_
    exact setArgs_eq_some (s.deliver_reads _) hroom hr

/-- Writing all registers is never refused. -/
theorem setregs_not_refuses {q : List Byte} (hp : Plain (ascii 'G' :: q)) :
    ¬ Refuses s (ascii 'G' :: q) :=
  not_refuses_of_ok hp
    (Stub.execute_setregs _ (Stub.deliver_head (s := s) (c := ascii 'G') (q := q)))

end Refusals

section Headers

variable {q : List Byte}

/-- The header of a packet belongs to its command. -/
theorem hasHeader_memWrite : HasHeader (ascii 'M' :: q) ↔
    ∃ addr length data, MemText 'M' (ascii 'M' :: q) addr length data := by
  constructor
  · rintro (⟨addr, length, data, hp | ⟨hp, -⟩⟩ | ⟨data, hp⟩ | ⟨reg, data, hp, -⟩)
    · exact ⟨addr, length, data, hp⟩
    · exact absurd (List.cons.inj hp).1 (by decide)
    · exact absurd (List.cons.inj hp).1 (by decide)
    · exact absurd (List.cons.inj hp).1 (by decide)
  · rintro ⟨addr, length, data, hp⟩
    exact .inl ⟨addr, length, data, .inl hp⟩

theorem hasHeader_memWriteBinary : HasHeader (ascii 'X' :: q) ↔
    ∃ addr length data, MemText 'X' (ascii 'X' :: q) addr length data := by
  constructor
  · rintro (⟨addr, length, data, ⟨hp, -⟩ | hp⟩ | ⟨data, hp⟩ | ⟨reg, data, hp, -⟩)
    · exact absurd (List.cons.inj hp).1 (by decide)
    · exact ⟨addr, length, data, hp⟩
    · exact absurd (List.cons.inj hp).1 (by decide)
    · exact absurd (List.cons.inj hp).1 (by decide)
  · rintro ⟨addr, length, data, hp⟩
    exact .inl ⟨addr, length, data, .inr hp⟩

theorem hasHeader_regSet : HasHeader (ascii 'P' :: q) ↔
    ∃ reg data, RegText (ascii 'P' :: q) reg data := by
  constructor
  · rintro (⟨addr, length, data, ⟨hp, -⟩ | ⟨hp, -⟩⟩ | ⟨data, hp⟩ | hp)
    · exact absurd (List.cons.inj hp).1 (by decide)
    · exact absurd (List.cons.inj hp).1 (by decide)
    · exact absurd (List.cons.inj hp).1 (by decide)
    · exact hp
  · intro hp
    exact .inr (.inr hp)

end Headers

/-- A packet that writes is refused exactly if it fits and has no complete header. -/
theorem refuses_iff (s : Stub) {p : List Byte} (hwrites : Writes p) (hp : Plain p) :
    Refuses s p ↔ p.length < BUFMAX ∧ ¬ HasHeader p := by
  by_cases hroom : p.length < BUFMAX
  · simp only [hroom, true_and]
    obtain ⟨c, hc, hhead⟩ := hwrites
    obtain ⟨q, rfl⟩ := List.head?_eq_some_iff.1 hhead
    simp only [List.mem_cons, List.not_mem_nil, or_false] at hc
    obtain rfl | rfl | rfl | rfl := hc
    · rw [hasHeader_memWrite, memWrite_refuses_iff hp hroom Stub.execute_memWrite]
    · rw [hasHeader_memWriteBinary, memWrite_refuses_iff hp hroom Stub.execute_memWriteBinary]
    · exact iff_of_false (setregs_not_refuses hp) fun h => h (.inr (.inl ⟨q, rfl⟩))
    · rw [hasHeader_regSet, regSet_refuses_iff hp hroom]
  · -- the packet is dropped
    refine iff_of_false ?_ fun h => hroom h.1
    rintro ⟨d1, d2, s', -, -, hanswers, -⟩
    exact hroom (hanswers.length_lt hp)

/-- A packet with all its data has a header. -/
theorem WellFormed.hasHeader {p : List Byte} (h : WellFormed p) : HasHeader p := by
  obtain ⟨addr, length, data, hp, -⟩ | ⟨addr, length, data, hp, -⟩ | ⟨data, hp, -⟩ |
    ⟨reg, data, hp, -⟩ := h
  · exact .inl ⟨addr, length, data, .inl hp⟩
  · exact .inl ⟨addr, length, data, .inr hp⟩
  · exact .inr (.inl ⟨data, hp⟩)
  · exact .inr (.inr ⟨reg, data, hp⟩)

/-- Malformed packets are refused exactly when they fit and their header is incomplete. -/
theorem malformed_refused_iff (s : Stub) {p : List Byte} (hwrites : Writes p) (hp : Plain p) :
    (¬ WellFormed p → Refuses s p) ↔ (¬ WellFormed p → p.length < BUFMAX ∧ ¬ HasHeader p) :=
  imp_congr_right fun _ => refuses_iff s hwrites hp

/-- A memory write that ends within its header has none. -/
theorem short_header : ¬ HasHeader (text "M100,4") := by
  intro h
  obtain ⟨addr, length, data, hp⟩ := hasHeader_memWrite.1 h
  obtain ⟨ptr, hargs, -⟩ := writeArgs_reads hp (reads_fill (fun _ => 0) _) (by decide)
  have hnone : writeArgs (fill (fun _ => 0) (text "M100,4" ++ [0])) = none := by decide
  exact absurd (hnone.symm.trans hargs) (by simp)

/-- Such a packet is refused. -/
theorem malformed_refused_short : Refuses (.boot fun _ => 0) (text "M100,4") :=
  (malformed_refused_iff (.boot fun _ => 0) (p := text "M100,4") ⟨'M', by decide, rfl⟩
    (by decide)).2 (fun _ => ⟨by decide, short_header⟩) (fun h => short_header h.hasHeader)

/-- A `G` without any registers is answered `OK`. -/
theorem empty_setregs_accepted :
    ¬ (¬ WellFormed [ascii 'G'] → Refuses (.boot fun _ => 0) [ascii 'G']) := by
  intro h
  refine setregs_not_refuses (by decide) (h ?_)
  rintro (⟨addr, length, data, ⟨hp, -⟩, -⟩ | ⟨addr, length, data, ⟨hp, -⟩, -⟩ | ⟨data, hp, hdata⟩ |
    ⟨reg, data, ⟨hp, -⟩, -⟩)
  · exact absurd (List.cons.inj hp).1 (by decide)
  · exact absurd (List.cons.inj hp).1 (by decide)
  · obtain rfl := (List.cons.inj hp).2
    exact absurd hdata.1 (by decide)
  · exact absurd (List.cons.inj hp).1 (by decide)

end Soc.Gdbstub
