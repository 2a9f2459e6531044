import Mathlib.Data.List.OfFn
import Soc.Gdbstub.Writes

/-!
# Register and memory commands as a byte store

An abstract target with 37 registers and a byte-addressed memory, the requests GDB makes of
it, and the packets that ask for them. The stub answers a list of requests as the abstract
target does exactly if all their packets have fewer than `BUFMAX` characters.
-/

namespace Soc.Gdbstub

open Library.Region (Covers load load_congr load_store_other load_store_same store store_outside)

/-- The RAM of the stub, from `linker.ld`. -/
def StubRam (a : Word) : Prop := Covers 0x10001800 0x800 a

/-- The bytes of a word, the most significant first. -/
def wordBytes (w : Word) : List Byte :=
  [w.extractLsb' 24 8, w.extractLsb' 16 8, w.extractLsb' 8 8, w.extractLsb' 0 8]

/-- The number of a register. -/
abbrev RegNum := Fin NUM_REGS

/-- The bytes of all registers in order. -/
def regBytes (reg : RegNum → Word) : List Byte :=
  (List.ofFn fun n => wordBytes (reg n)).flatten

/-- An upper-case digit in lower case. -/
def lower (c : Byte) : Byte :=
  if ascii 'A' ≤ c ∧ c ≤ ascii 'F' then c + 32 else c

/-- What GDB sees of the target: registers and memory. -/
structure Target where
  reg : RegNum → Word
  mem : Word → Byte

/-- What GDB asks of the target. -/
inductive Request where
  | readMem (addr : Word) (length : Nat)
  | writeMem (addr : Word) (bytes : List Byte)
  | readRegs
  | writeRegs (values : RegNum → Word)
  | readReg (n : RegNum)
  | writeReg (n : RegNum) (value : Word)

/-- The reply of the target to a request, and the target afterwards. -/
def Target.answer (t : Target) : Request → List Byte × Target
  | .readMem addr length => (hexText (load t.mem addr length), t)
  | .writeMem addr bytes => (text "OK", { t with mem := store t.mem addr bytes })
  | .readRegs => (hexText (regBytes t.reg), t)
  | .writeRegs values => (text "OK", { t with reg := values })
  | .readReg n => (hexText (wordBytes (t.reg n)), t)
  | .writeReg n value => (text "OK", { t with reg := Function.update t.reg n value })

/-- The replies to a list of requests, and the target after them. -/
def Target.answers (t : Target) : List Request → List (List Byte) × Target
  | [] => ([], t)
  | r :: rs => (((t.answer r).1 :: ((t.answer r).2.answers rs).1), ((t.answer r).2.answers rs).2)

/-- At most 400 bytes are read, and memory accesses stay outside the RAM of the stub. -/
def Request.Allowed : Request → Prop
  | .readMem addr length => length ≤ 400 ∧ ∀ a, Covers addr length a → ¬ StubRam a
  | .writeMem addr bytes => ∀ a, Covers addr bytes.length a → ¬ StubRam a
  | _ => True

/-- The packet is a well-formed text of the request. -/
inductive Asks : List Byte → Request → Prop
  | readMem {addr length} : Numeral addr → Numeral length →
      Asks (ascii 'm' :: addr ++ ascii ',' :: length)
        (.readMem (.ofNat 32 (numeral addr)) (numeral length))
  | writeMem {p addr length digits bytes rest} : MemText 'M' p addr length (digits ++ rest) →
      HexOf digits bytes → numeral length = bytes.length →
      Asks p (.writeMem (.ofNat 32 (numeral addr)) bytes)
  | writeBinary {p addr length chars bytes rest} : MemText 'X' p addr length (chars ++ rest) →
      Escapes chars bytes → numeral length = bytes.length →
      Asks p (.writeMem (.ofNat 32 (numeral addr)) bytes)
  | readRegs : Asks [ascii 'g'] .readRegs
  | writeRegs {digits values rest} : HexOf digits (regBytes values) →
      Asks (ascii 'G' :: digits ++ rest) (.writeRegs values)
  | readReg {reg} {n : RegNum} : Numeral reg → numeral reg = (n : Nat) →
      Asks (ascii 'p' :: reg) (.readReg n)
  | writeReg {p reg digits value rest} {n : RegNum} : RegText p reg (digits ++ rest) →
      numeral reg = (n : Nat) → HexOf digits (wordBytes value) → Asks p (.writeReg n value)

/-- The stub's registers are those of the target, and so is the memory outside its own RAM. -/
structure Represents (s : Stub) (t : Target) : Prop where
  frame : s.registers = debugFrame
  reg : ∀ n : RegNum, load s.mem (s.regAddr (.ofNat 32 n)) 4 = wordBytes (t.reg n)
  mem : ∀ a, ¬ StubRam a → s.mem a = t.mem a

/-- The loop of `handle_exception` answers one packet after the other with these replies and goes on
with the last state. -/
inductive Stub.Converses : Stub → List (List Byte) → List (List Byte) → Stub → Prop
  | nil {s} : Converses s [] [] s
  | cons {s s' s'' p ps reply replies} : s.Answers p reply s' → Converses s' ps replies s'' →
      Converses s (p :: ps) (reply :: replies) s''

/-- Every packet has fewer than `BUFMAX` characters. -/
def Fit (ps : List (List Byte)) : Prop := ∀ p ∈ ps, p.length < BUFMAX

section Frame

variable {mem : Word → Byte}

/-- The address of a register in the frame. -/
def regSlot (n : Nat) : Word := debugFrame + .ofNat 32 n * 4

/-- The frame is in the RAM of the stub. -/
theorem frame_in_ram {a : Word} (h : Covers debugFrame (NUM_REGS * 4) a) : StubRam a := by
  simp only [StubRam, Covers, debugFrame, NUM_REGS] at h ⊢
  bv_omega

/-- A register is in the frame. -/
theorem regSlot_in_frame {n : Nat} (hn : n < NUM_REGS) {a : Word} (h : Covers (regSlot n) 4 a) :
    Covers debugFrame (NUM_REGS * 4) a := by
  simp only [Covers, regSlot, debugFrame, NUM_REGS] at h hn ⊢
  bv_omega

/-- The registers do not overlap. -/
theorem regSlot_disjoint {m n : Nat} (hm : m < NUM_REGS) (hn : n < NUM_REGS) (hne : m ≠ n)
    {a : Word} (h : Covers (regSlot m) 4 a) : ¬ Covers (regSlot n) 4 a := by
  simp only [Covers, regSlot, debugFrame, NUM_REGS] at h hm hn ⊢
  bv_omega

/-- The frame is one register behind the other. -/
theorem load_blocks (count : Nat) :
    load mem debugFrame (count * 4) =
      (List.ofFn fun n : Fin count => load mem (regSlot n) 4).flatten := by
  induction count with
  | zero => rfl
  | succ count ih =>
      rw [Nat.succ_mul, Library.Region.load_add, ih, List.ofFn_succ_last, List.flatten_append]
      have hslot : debugFrame + BitVec.ofNat 32 (count * 4) = regSlot count := by
        rw [regSlot, BitVec.ofNat_mul]
        rfl
      simp [hslot]

/-- The frame holds the bytes of all registers exactly if each register holds its own. -/
theorem load_frame_iff (reg : RegNum → Word) :
    load mem debugFrame (NUM_REGS * 4) = regBytes reg ↔
      ∀ n : RegNum, load mem (regSlot n) 4 = wordBytes (reg n) := by
  rw [load_blocks, regBytes]
  constructor
  · intro h
    have hblocks : (List.ofFn fun n : RegNum => load mem (regSlot n) 4) =
        List.ofFn fun n => wordBytes (reg n) := by
      refine List.eq_iff_flatten_eq.2 ⟨h, ?_⟩
      simp [List.map_ofFn, Function.comp_def, wordBytes]
    exact fun n => congrFun (List.ofFn_injective hblocks) n
  · intro h
    simp only [h]

end Frame

section Replies

variable {s : Stub}

/-- The digits of bytes are digits. -/
theorem hexText_digits {bytes : List Byte} {c : Byte} (hc : c ∈ hexText bytes) : 0 ≤ hex c := by
  have hvalue := List.mem_map_of_mem (f := hex) hc
  rw [show (hexText bytes).map hex = _ from hexOf_hexText bytes] at hvalue
  simp only [List.mem_flatMap, List.mem_cons, List.not_mem_nil, or_false] at hvalue
  obtain ⟨b, -, h | h⟩ := hvalue <;> omega

/-- No digit is NUL. -/
theorem nul_not_mem_hexText (bytes : List Byte) : 0 ∉ hexText bytes :=
  fun hmem => absurd (hexText_digits hmem) (by decide)

/-- The reply of a command that reads memory. -/
theorem replyText_mem2hex (addr : Word) {count : Nat} (hcount : count ≤ 400) :
    Stub.replyText { s with remcomOutBuffer := (mem2hex s.mem addr s.remcomOutBuffer 0 count).1 } =
      hexText (load s.mem addr count) := by
  rw [mem2hex_eq]
  refine cString_of_reads (reads_strcpy _ _ _) (nul_not_mem_hexText _) ?_
  rw [hexText_length, Library.Region.load_length, BUFMAX]
  omega

/-- The reply `OK`. -/
theorem replyText_ok : (s.reply "OK").replyText = text "OK" :=
  replyText_reply s (by decide) (by decide)

end Replies

section Steps

variable {s : Stub} {t : Target} {p : List Byte}

/-- The stub has answered a packet as the target answers a request. -/
def Agree (s : Stub) (t : Target) (p : List Byte) (r : Request) : Prop :=
  (s.deliver p).execute.2 = .reply ∧ (s.deliver p).execute.1.replyText = (t.answer r).1 ∧
    Represents (s.deliver p).execute.1 (t.answer r).2

/-- The registers of the stub are the slots of its frame. -/
theorem Represents.slot (h : Represents s t) (n : RegNum) :
    load s.mem (regSlot n) 4 = wordBytes (t.reg n) := by
  rw [← h.reg n, Stub.regAddr, h.frame]
  rfl

/-- A state with the same memory represents the same target. -/
theorem Represents.of_slots {s' : Stub} (hframe : s'.registers = debugFrame)
    (hreg : ∀ n : RegNum, load s'.mem (regSlot n) 4 = wordBytes (t.reg n))
    (hmem : ∀ a, ¬ StubRam a → s'.mem a = t.mem a) : Represents s' t where
  frame := hframe
  reg n := by
    rw [Stub.regAddr, hframe]
    exact hreg n
  mem := hmem

/-- A command that changes the reply only. -/
theorem Represents.of_read (h : Represents s t) {s' : Stub} (hmem : s'.mem = s.mem)
    (hframe : s'.registers = s.registers) : Represents s' t :=
  .of_slots (by rw [hframe, h.frame]) (fun n => by rw [hmem, h.slot])
    (fun a ha => by rw [hmem, h.mem a ha])

/-- Memory of the target that is read. -/
theorem Represents.load_mem (h : Represents s t) {addr : Word} {length : Nat}
    (hout : ∀ a, Covers addr length a → ¬ StubRam a) (hlength : length ≤ 400) :
    load s.mem addr length = load t.mem addr length :=
  load_congr (fun a ha => h.mem a (hout a ha)) (Nat.le_trans hlength (by decide))

/-- Memory of the target that is written. -/
theorem Represents.store_mem (h : Represents s t) {s' : Stub} {addr : Word} {bytes : List Byte}
    (hout : ∀ a, Covers addr bytes.length a → ¬ StubRam a)
    (hmem : s'.mem = store s.mem addr bytes) (hframe : s'.registers = s.registers) :
    Represents s' { t with mem := store t.mem addr bytes } := by
  refine .of_slots (by rw [hframe, h.frame]) (fun n => ?_) fun a ha => ?_
  · rw [hmem, load_store_other _ (by decide), h.slot]
    exact fun a ha haddr => hout a haddr (frame_in_ram (regSlot_in_frame n.isLt ha))
  · rw [hmem]
    exact Library.Region.store_congr (h.mem a ha)

/-- A register that is written. -/
theorem Represents.store_reg (h : Represents s t) {s' : Stub} {n : RegNum} {value : Word}
    (hmem : s'.mem = store s.mem (regSlot n) (wordBytes value))
    (hframe : s'.registers = s.registers) :
    Represents s' { t with reg := Function.update t.reg n value } := by
  refine .of_slots (by rw [hframe, h.frame]) (fun m => ?_) fun a ha => ?_
  · rw [hmem]
    show _ = wordBytes (Function.update t.reg n value m)
    by_cases hmn : m = n
    · subst hmn
      rw [Function.update_self]
      exact load_store_same (show 4 ≤ Nat.pow 2 32 by decide)
    · rw [Function.update_of_ne hmn, load_store_other _ (by decide), h.slot]
      have hne : (m : Nat) ≠ n := fun heq => hmn (Fin.ext heq)
      exact fun a ha => regSlot_disjoint m.isLt n.isLt hne ha
  · rw [hmem, store_outside, h.mem a ha]
    exact fun hcovers => ha (frame_in_ram (regSlot_in_frame n.isLt hcovers))

/-- The bytes of all registers. -/
theorem regBytes_length (values : RegNum → Word) : (regBytes values).length = NUM_REGS * 4 := by
  simp [regBytes, wordBytes, List.length_flatten, List.map_ofFn, Function.comp_def]

/-- All registers are written. -/
theorem Represents.store_regs (h : Represents s t) {s' : Stub} {values : RegNum → Word}
    (hmem : s'.mem = store s.mem debugFrame (regBytes values))
    (hframe : s'.registers = s.registers) : Represents s' { t with reg := values } := by
  have hlength := regBytes_length values
  refine .of_slots (by rw [hframe, h.frame]) ((load_frame_iff values).1 ?_) fun a ha => ?_
  · rw [hmem, ← hlength]
    exact load_store_same (by rw [hlength]; decide)
  · rw [hmem, store_outside, h.mem a ha]
    rw [hlength]
    exact fun hcovers => ha (frame_in_ram hcovers)

/-- A length the data of a packet has is counted in full. -/
theorem count_eq {length : Nat} (h : length < BUFMAX) :
    (BitVec.ofNat 32 length).toInt.toNat = length := by
  rw [BUFMAX] at h
  rw [BitVec.toInt_eq_toNat_of_lt, BitVec.toNat_ofNat] <;> simp <;> omega

/-- Escaping does not shorten data. -/
theorem Escapes.length_le {chars bytes : List Byte} (h : Escapes chars bytes) :
    bytes.length ≤ chars.length := by
  induction h with
  | nil => exact Nat.le_refl _
  | plain _ _ ih => exact Nat.succ_le_succ ih
  | escaped _ ih => exact Nat.le_succ_of_le (Nat.succ_le_succ ih)

/-- `m` reads memory. -/
theorem agree_readMem (h : Represents s t) {addr length : List Byte} (haddr : Numeral addr)
    (hlength : Numeral length)
    (hallowed : (Request.readMem (.ofNat 32 (numeral addr)) (numeral length)).Allowed)
    (hroom : (ascii 'm' :: addr ++ ascii ',' :: length).length < BUFMAX) :
    Agree s t (ascii 'm' :: addr ++ ascii ',' :: length)
      (.readMem (.ofNat 32 (numeral addr)) (numeral length)) := by
  obtain ⟨hcount, hout⟩ := hallowed
  have hreads := s.deliver_reads (ascii 'm' :: addr ++ ascii ',' :: length)
  simp only [List.length_append, List.length_cons] at hroom
  have hargs := memArgs_reads (c := 0) haddr hlength hreads.2 (by decide) (by omega)
  have hnat : (BitVec.ofNat 32 (numeral length)).toNat = numeral length := by
    rw [BitVec.toNat_ofNat]
    omega
  have hle : (BitVec.ofNat 32 (numeral length)).toNat ≤ (BUFMAX + 1) / 2 := by
    rw [hnat]
    exact hcount
  rw [Agree, Stub.execute_memRead _ hreads.1]
  simp only [Stub.cmdMemRead, hargs, hle, if_true]
  refine ⟨trivial, ?_, h.of_read rfl rfl⟩
  rw [hnat, replyText_mem2hex _ hcount]
  exact congrArg hexText (h.load_mem hout hcount)

/-- `M` stores the bytes of its digits. -/
theorem execute_writeMem {addr length digits bytes rest : List Byte}
    (hp : MemText 'M' p addr length (digits ++ rest)) (hdigits : HexOf digits bytes)
    (hcount : numeral length = bytes.length) (hroom : p.length < BUFMAX) :
    (s.deliver p).execute =
      (Stub.reply { s.deliver p with mem := store s.mem (.ofNat 32 (numeral addr)) bytes } "OK",
        .reply) := by
  obtain ⟨ptr, hargs, hdata⟩ := writeArgs_reads hp (s.deliver_reads p) hroom
  rw [writeArgs] at hargs
  rw [List.append_assoc, reads_append] at hdata
  have hhead : (s.deliver p).remcomInBuffer 0 = ascii 'M' := by
    obtain ⟨rfl, -, -⟩ := hp
    exact Stub.deliver_head
  have hlength : bytes.length < BUFMAX := by
    have hdouble := hdigits.length_eq
    obtain ⟨rfl, -, -⟩ := hp
    simp only [List.length_append, List.length_cons] at hroom
    omega
  have hcopy := hex2mem_eq s.mem (.ofNat 32 (numeral addr)) hdata.1
    (by rw [hdigits.length_eq])
  rw [hdigits.unhex_eq] at hcopy
  rw [Stub.execute_memWrite _ hhead]
  simp only [Stub.cmdMemWrite, hargs, hcount, count_eq hlength, if_false, Bool.false_eq_true,
    Stub.deliver_mem, hcopy]

/-- `X` stores the bytes its data stands for. -/
theorem execute_writeBinary {addr length chars bytes rest : List Byte}
    (hp : MemText 'X' p addr length (chars ++ rest)) (hescapes : Escapes chars bytes)
    (hcount : numeral length = bytes.length) (hroom : p.length < BUFMAX) :
    (s.deliver p).execute =
      (Stub.reply { s.deliver p with mem := store s.mem (.ofNat 32 (numeral addr)) bytes } "OK",
        .reply) := by
  obtain ⟨ptr, hargs, hdata⟩ := writeArgs_reads hp (s.deliver_reads p) hroom
  rw [writeArgs] at hargs
  rw [List.append_assoc, reads_append] at hdata
  have hhead : (s.deliver p).remcomInBuffer 0 = ascii 'X' := by
    obtain ⟨rfl, -, -⟩ := hp
    exact Stub.deliver_head
  have hlength : bytes.length < BUFMAX := by
    have hle := hescapes.length_le
    obtain ⟨rfl, -, -⟩ := hp
    simp only [List.length_append, List.length_cons] at hroom
    omega
  have hcopy := bin2mem_eq s.mem (.ofNat 32 (numeral addr)) hescapes hdata.1
  rw [Stub.execute_memWriteBinary _ hhead]
  simp only [Stub.cmdMemWrite, hargs, hcount, count_eq hlength, if_true, Stub.deliver_mem, hcopy]

/-- `g` reads all registers. -/
theorem agree_readRegs (h : Represents s t) : Agree s t [ascii 'g'] .readRegs := by
  rw [Agree, Stub.execute_getregs _ Stub.deliver_head]
  refine ⟨rfl, ?_, h.of_read rfl rfl⟩
  refine (replyText_mem2hex _ (by decide)).trans (congrArg hexText ?_)
  show load s.mem s.registers _ = _
  rw [h.frame]
  exact (load_frame_iff t.reg).2 h.slot

/-- `G` writes all registers. -/
theorem agree_writeRegs (h : Represents s t) {digits rest : List Byte} {values : RegNum → Word}
    (hdigits : HexOf digits (regBytes values)) :
    Agree s t (ascii 'G' :: digits ++ rest) (.writeRegs values) := by
  have hreads := s.deliver_reads (ascii 'G' :: (digits ++ rest))
  rw [List.cons_append, reads_cons, List.append_assoc, reads_append] at hreads
  rw [List.cons_append, Agree, Stub.execute_setregs _ Stub.deliver_head]
  refine ⟨rfl, replyText_ok, h.store_regs ?_ rfl⟩
  have hlength : digits.length = 2 * (NUM_REGS * 4) := by
    rw [hdigits.length_eq, regBytes_length]
  have hcopy := hex2mem_eq s.mem s.registers hreads.2.1 hlength
  rw [hdigits.unhex_eq, Nat.zero_add] at hcopy
  rw [← h.frame, ← hcopy]
  simp only [Stub.cmdSetregs, Stub.reply, Stub.deliver_mem, Stub.deliver_registers]

/-- `p` reads a register. -/
theorem agree_readReg (h : Represents s t) {reg : List Byte} {n : RegNum} (hreg : Numeral reg)
    (hn : numeral reg = (n : Nat)) (hroom : (ascii 'p' :: reg).length < BUFMAX) :
    Agree s t (ascii 'p' :: reg) (.readReg n) := by
  have hreads := s.deliver_reads (ascii 'p' :: reg)
  have harg := hexArg_reads hreg hreads.2 (by decide) (by simp at hroom; omega)
  rw [Nat.zero_add] at harg
  rw [Agree, Stub.execute_regGet _ Stub.deliver_head]
  simp only [Stub.cmdRegGet, harg]
  refine ⟨trivial, ?_, h.of_read rfl rfl⟩
  refine (replyText_mem2hex _ (by decide)).trans (congrArg hexText ?_)
  rw [hn]
  exact h.reg n

/-- `P` writes a register. -/
theorem agree_writeReg (h : Represents s t) {reg digits rest : List Byte} {n : RegNum}
    {value : Word}
    (hp : RegText p reg (digits ++ rest)) (hn : numeral reg = (n : Nat))
    (hdigits : HexOf digits (wordBytes value)) (hroom : p.length < BUFMAX) :
    Agree s t p (.writeReg n value) := by
  obtain ⟨ptr, hargs, hdata⟩ := setArgs_reads hp (s.deliver_reads p) hroom
  rw [setArgs] at hargs
  rw [List.append_assoc, reads_append] at hdata
  have hhead : (s.deliver p).remcomInBuffer 0 = ascii 'P' := by
    obtain ⟨rfl, -⟩ := hp
    exact Stub.deliver_head
  rw [Agree, Stub.execute_regSet _ hhead]
  simp only [Stub.cmdRegSet, hargs]
  refine ⟨trivial, replyText_ok, h.store_reg ?_ rfl⟩
  refine (hex2mem_eq _ _ hdata.1 hdigits.length_eq).trans ?_
  rw [hdigits.unhex_eq, hn, Stub.regAddr, Stub.deliver_registers, h.frame]
  rfl

/-- The stub answers a packet as the target answers the request it asks for. -/
theorem agree (h : Represents s t) {r : Request} (hasks : Asks p r) (hallowed : r.Allowed)
    (hroom : p.length < BUFMAX) : Agree s t p r := by
  cases hasks with
  | readMem haddr hlength => exact agree_readMem h haddr hlength hallowed hroom
  | writeMem hp hdigits hcount =>
      rw [Agree, execute_writeMem hp hdigits hcount hroom]
      exact ⟨rfl, replyText_ok, h.store_mem hallowed rfl rfl⟩
  | writeBinary hp hescapes hcount =>
      rw [Agree, execute_writeBinary hp hescapes hcount hroom]
      exact ⟨rfl, replyText_ok, h.store_mem hallowed rfl rfl⟩
  | readRegs => exact agree_readRegs h
  | writeRegs hdigits => exact agree_writeRegs h hdigits
  | readReg hreg hn => exact agree_readReg h hreg hn hroom
  | writeReg hp hn hdigits => exact agree_writeReg h hp hn hdigits hroom

end Steps

/-- What `Agree` says of the loop. -/
theorem Agree.answers {s : Stub} {t : Target} {p : List Byte} {r : Request} (h : Agree s t p r)
    (hp : Plain p) (hroom : p.length < BUFMAX) :
    s.Answers p (t.answer r).1 (s.deliver p).execute.1 := by
  obtain ⟨hafter, hreply, -⟩ := h
  have hanswers := Stub.answers_execute hp hroom hafter
  rwa [hreply] at hanswers

/-- The packets are well-formed texts of the requests, which are allowed. -/
def Requests (ps : List (List Byte)) (rs : List Request) : Prop :=
  List.Forall₂ (fun p r => Asks p r ∧ r.Allowed ∧ Plain p) ps rs

/-- Packets that were answered fit. -/
theorem Stub.Converses.fit {s s' : Stub} {ps replies : List (List Byte)}
    (h : s.Converses ps replies s') (hps : ∀ p ∈ ps, Plain p) : Fit ps := by
  induction h with
  | nil => exact fun p hp => absurd hp List.not_mem_nil
  | cons hfirst _ ih =>
      intro p hp
      obtain rfl | hrest := List.mem_cons.1 hp
      · exact hfirst.length_lt (hps _ hp)
      · exact ih (fun p hp => hps p (List.mem_cons_of_mem _ hp)) p hrest

/-- Requests are made in packets. -/
theorem Requests.plain {ps : List (List Byte)} {rs : List Request} (h : Requests ps rs) :
    ∀ p ∈ ps, Plain p := by
  induction h with
  | nil => exact fun p hp => absurd hp List.not_mem_nil
  | cons hfirst _ ih =>
      intro p hp
      obtain rfl | hrest := List.mem_cons.1 hp
      · exact hfirst.2.2
      · exact ih p hrest

/-- The stub answers a list of packets that fit as the target answers the requests they ask for. -/
theorem converses_of_fit {s : Stub} {t : Target} (h : Represents s t) {ps : List (List Byte)}
    {rs : List Request} (hrequests : Requests ps rs) (hfit : Fit ps) :
    ∃ s', s.Converses ps (t.answers rs).1 s' ∧ Represents s' (t.answers rs).2 := by
  induction hrequests generalizing s t with
  | nil => exact ⟨s, .nil, h⟩
  | cons hfirst _ ih =>
      obtain ⟨hasks, hallowed, hp⟩ := hfirst
      have hroom := hfit _ List.mem_cons_self
      have hagree := agree h hasks hallowed hroom
      obtain ⟨s', hrest, hlast⟩ := ih hagree.2.2 fun p hp => hfit p (List.mem_cons_of_mem _ hp)
      exact ⟨s', .cons (hagree.answers hp hroom) hrest, hlast⟩

/-- The target a stub shows to GDB. -/
def Stub.target (s : Stub) : Target where
  reg n := readWord s.mem (s.regAddr (.ofNat 32 n))
  mem := s.mem

/-- The bytes of a word put together from bytes. -/
theorem wordBytes_append (a b c d : Byte) : wordBytes (a ++ b ++ c ++ d) = [a, b, c, d] := by
  simp only [wordBytes, List.cons.injEq, and_true]
  refine ⟨?_, ?_, ?_, ?_⟩ <;> apply BitVec.eq_of_getLsbD_eq <;> intro i hi <;>
    simp only [BitVec.getLsbD_extractLsb', BitVec.getLsbD_append] <;> grind

/-- The bytes of a word in memory. -/
theorem wordBytes_readWord (mem : Word → Byte) (addr : Word) :
    wordBytes (readWord mem addr) = load mem addr 4 := by
  have h2 : addr + 1 + 1 = addr + 2 := by bv_omega
  have h3 : addr + 2 + 1 = addr + 3 := by bv_omega
  rw [readWord, wordBytes_append]
  simp only [load, h2, h3]

/-- Every stub represents the target it shows. -/
theorem represents_target {s : Stub} (hframe : s.registers = debugFrame) :
    Represents s s.target where
  frame := hframe
  reg _ := (wordBytes_readWord _ _).symm
  mem _ _ := rfl

/-- The digit the stub writes for the value of a digit. -/
theorem hexchars_hex : ∀ c : Byte, 0 ≤ hex c → hexchars.getD (hex c).toNat 0 = lower c := by
  decide

/-- The stub writes digits in lower case. -/
theorem HexOf.hexText_eq {digits bytes : List Byte} (h : HexOf digits bytes) :
    hexText bytes = digits.map lower := by
  induction bytes generalizing digits with
  | nil =>
      obtain rfl : digits = [] := List.map_eq_nil_iff.1 h
      rfl
  | cons b bytes ih =>
      rw [HexOf, List.flatMap_cons, List.cons_append, List.cons_append, List.nil_append] at h
      obtain ⟨d1, digits, rfl, hd1, h⟩ := List.map_eq_cons_iff.1 h
      obtain ⟨d2, digits, rfl, hd2, h⟩ := List.map_eq_cons_iff.1 h
      have h1 := hexchars_hex d1 (by omega)
      have h2 := hexchars_hex d2 (by omega)
      rw [hexText_cons, ih h, List.map_cons, List.map_cons, ← h1, ← h2, hd1, hd2]
      rfl

/-- The stub is a byte store for the packets that fit, and for no others. -/
structure ByteStore (s : Stub) : Prop where
  /-- The stub answers a list of well-formed packets as the target it represents does. -/
  refines : ∀ {t ps rs}, Represents s t → Requests ps rs →
    ((∃ s', s.Converses ps (t.answers rs).1 s' ∧ Represents s' (t.answers rs).2) ↔ Fit ps)
  /-- `m` after `M` returns the digits that were written. -/
  read_written : ∀ {p addr length digits bytes rest addr' length'},
    MemText 'M' p addr length (digits ++ rest) → Plain p → HexOf digits bytes →
    numeral length = bytes.length →
    (Request.writeMem (.ofNat 32 (numeral addr)) bytes).Allowed →
    Numeral addr' → Numeral length' → numeral addr' = numeral addr →
    numeral length' = numeral length →
    ((∃ s', s.Converses [p, ascii 'm' :: addr' ++ ascii ',' :: length']
        [text "OK", digits.map lower] s') ↔
      Fit [p, ascii 'm' :: addr' ++ ascii ',' :: length'])
  /-- `X` with escaped bytes does what `M` does with their digits. -/
  binary : ∀ {p q addr length digits bytes rest addr' length' chars rest'},
    MemText 'M' p addr length (digits ++ rest) → Plain p → HexOf digits bytes →
    numeral length = bytes.length →
    MemText 'X' q addr' length' (chars ++ rest') → Plain q → Escapes chars bytes →
    numeral length' = bytes.length → numeral addr' = numeral addr →
    ((∃ s' s'', s.Converses [p] [text "OK"] s' ∧ s.Converses [q] [text "OK"] s'' ∧
        ∀ buf, { s'' with remcomInBuffer := buf } = { s' with remcomInBuffer := buf }) ↔
      Fit [p, q])
  /-- `G` with the reply of `g` leaves the registers as they are. -/
  write_back : ∃ reply s', s.Converses [[ascii 'g'], ascii 'G' :: reply] [reply, text "OK"] s' ∧
    s'.mem = s.mem
  /-- `p` returns the digits of its register in the reply of `g`. -/
  one_register : ∀ {reg} {n : RegNum}, Numeral reg → numeral reg = (n : Nat) →
    ((∃ reply s' s'', s.Converses [[ascii 'g']] [reply] s' ∧
        s.Converses [ascii 'p' :: reg] [(reply.drop (8 * n)).take 8] s'') ↔
      Fit [ascii 'p' :: reg])

/-- `G` with the digits of the registers. -/
theorem setregs_same (s : Stub) :
    (s.deliver (ascii 'G' :: hexText (load s.mem s.registers (NUM_REGS * 4)))).cmdSetregs.mem =
      s.mem := by
  have hreads := s.deliver_reads (ascii 'G' :: hexText (load s.mem s.registers (NUM_REGS * 4)))
  rw [List.cons_append, reads_cons, reads_append] at hreads
  have hlength : (hexText (load s.mem s.registers (NUM_REGS * 4))).length = 2 * (NUM_REGS * 4) := by
    rw [hexText_length, Library.Region.load_length]
  have hcopy := hex2mem_eq s.mem s.registers hreads.2.1 hlength
  rw [(hexOf_hexText _).unhex_eq, Library.Region.store_load, Nat.zero_add] at hcopy
  simp only [Stub.cmdSetregs, Stub.reply, Stub.deliver_mem, Stub.deliver_registers, hcopy]

/-- The digits of a register among those of the frame. -/
theorem frame_slot (mem : Word → Byte) (n : RegNum) :
    ((hexText (load mem debugFrame (NUM_REGS * 4))).drop (8 * n)).take 8 =
      hexText (load mem (regSlot n) 4) := by
  have hcount : NUM_REGS * 4 = n * 4 + (4 + (NUM_REGS * 4 - n * 4 - 4)) := by
    have hn := n.isLt
    omega
  have hslot : debugFrame + BitVec.ofNat 32 (n * 4) = regSlot n := by
    rw [regSlot, BitVec.ofNat_mul]
    rfl
  rw [hcount, Library.Region.load_add, Library.Region.load_add, hslot, hexText_append,
    hexText_append, List.drop_left' (by simp; omega), List.take_left' (by simp)]

/-- Digits are data of a frame. -/
theorem plain_digits {l : List Byte} (h : ∀ c ∈ l, 0 ≤ hex c) : Plain l := by
  refine ⟨fun hmem => ?_, fun hmem => ?_⟩
  · exact absurd (h _ hmem) (by decide)
  · exact absurd (h _ hmem) (by decide)

/-- A packet that reads memory. -/
theorem plain_memRead {addr length : List Byte} (haddr : Numeral addr) (hlength : Numeral length) :
    Plain (ascii 'm' :: addr ++ ascii ',' :: length) := by
  rw [plain_append, plain_cons, plain_cons]
  exact ⟨⟨by decide, plain_digits haddr.2⟩, by decide, plain_digits hlength.2⟩

/-- A packet that reads a register. -/
theorem plain_regGet {reg : List Byte} (hreg : Numeral reg) : Plain (ascii 'p' :: reg) :=
  plain_cons.2 ⟨by decide, plain_digits hreg.2⟩

/-- A packet that writes all registers. -/
theorem plain_setregs (bytes : List Byte) : Plain (ascii 'G' :: hexText bytes) :=
  plain_cons.2 ⟨by decide, plain_digits fun _ hc => hexText_digits hc⟩

/-- `g` is answered with the digits of the registers and changes nothing but the buffers. -/
theorem getregs_answers (s : Stub) :
    ∃ s', s.Answers [ascii 'g'] (hexText (load s.mem s.registers (NUM_REGS * 4))) s' ∧
      s'.mem = s.mem ∧ s'.registers = s.registers := by
  have hexecute := Stub.execute_getregs (s.deliver [ascii 'g']) Stub.deliver_head
  have hanswers := Stub.answers_execute (s := s) (p := [ascii 'g']) (by decide) (by decide)
    (by rw [hexecute])
  rw [hexecute] at hanswers
  have hreply : (s.deliver [ascii 'g']).cmdGetregs.replyText =
      hexText (load s.mem s.registers (NUM_REGS * 4)) := replyText_mem2hex _ (by decide)
  rw [hreply] at hanswers
  exact ⟨_, hanswers, rfl, rfl⟩

/-- The stub is a byte store for the packets that fit, and for no others. -/
theorem byteStore {s : Stub} (hframe : s.registers = debugFrame) : ByteStore s where
  refines h hrequests := by
    refine ⟨?_, converses_of_fit h hrequests⟩
    rintro ⟨s', hconverses, -⟩
    exact hconverses.fit hrequests.plain
  read_written := by
    intro p addr length digits bytes rest addr' length' hp hplain hdigits hcount hallowed haddr
      hlength hsame hsize
    have hplains : ∀ q ∈ [p, ascii 'm' :: addr' ++ ascii ',' :: length'], Plain q := by
      simp only [List.forall_mem_cons]
      exact ⟨hplain, plain_memRead haddr hlength, fun q hq => absurd hq List.not_mem_nil⟩
    refine ⟨fun ⟨s', h⟩ => h.fit hplains, fun hfit => ?_⟩
    have hshort : bytes.length ≤ 400 := by
      have hroom := hfit p List.mem_cons_self
      have hdouble := hdigits.length_eq
      obtain ⟨rfl, -, -⟩ := hp
      simp only [List.length_append, List.length_cons, BUFMAX] at hroom
      omega
    have hread : Asks (ascii 'm' :: addr' ++ ascii ',' :: length')
        (.readMem (.ofNat 32 (numeral addr)) bytes.length) := by
      rw [← hsame, ← hcount, ← hsize]
      exact .readMem haddr hlength
    have hrequests : Requests [p, ascii 'm' :: addr' ++ ascii ',' :: length']
        [.writeMem (.ofNat 32 (numeral addr)) bytes,
          .readMem (.ofNat 32 (numeral addr)) bytes.length] :=
      .cons ⟨.writeMem hp hdigits hcount, hallowed, hplain⟩
        (.cons ⟨hread, ⟨hshort, hallowed⟩, plain_memRead haddr hlength⟩ .nil)
    obtain ⟨s', hconverses, -⟩ := converses_of_fit (represents_target hframe) hrequests hfit
    simp only [Target.answers, Target.answer] at hconverses
    rw [load_store_same (Nat.le_trans hshort (by decide)), hdigits.hexText_eq] at hconverses
    exact ⟨s', hconverses⟩
  binary := by
    intro p q addr length digits bytes rest addr' length' chars rest' hp hplain hdigits hcount
      hq hplain' hescapes hcount' hsame
    constructor
    · rintro ⟨s', s'', hfirst, hsecond, -⟩
      cases hfirst with
      | cons hanswers _ =>
          cases hsecond with
          | cons hanswers' _ =>
              simp only [Fit, List.forall_mem_cons]
              exact ⟨hanswers.length_lt hplain, hanswers'.length_lt hplain',
                fun q hq => absurd hq List.not_mem_nil⟩
    · intro hfit
      have hroom := hfit p List.mem_cons_self
      have hroom' := hfit q (List.mem_cons_of_mem _ List.mem_cons_self)
      have hdigitRun := execute_writeMem (s := s) hp hdigits hcount hroom
      have hbinaryRun := execute_writeBinary (s := s) hq hescapes hcount' hroom'
      refine ⟨_, _, .cons (Stub.answers_ok hplain hroom hdigitRun) .nil,
        .cons (Stub.answers_ok hplain' hroom' hbinaryRun) .nil, fun buf => ?_⟩
      rw [hsame]
      rfl
  write_back := by
    obtain ⟨s', hget, hmem, hregisters⟩ := getregs_answers s
    have hset := Stub.answers_ok (s := s')
      (p := ascii 'G' :: hexText (load s.mem s.registers (NUM_REGS * 4))) (plain_setregs _)
      (by simp [NUM_REGS, BUFMAX]) (Stub.execute_setregs _ Stub.deliver_head)
    refine ⟨_, _, .cons hget (.cons hset .nil), ?_⟩
    have hsame := setregs_same s'
    rw [hmem, hregisters] at hsame
    exact hsame
  one_register := by
    intro reg n hreg hn
    constructor
    · rintro ⟨reply, s', s'', -, hconverses⟩
      refine hconverses.fit fun p hp => ?_
      obtain rfl := List.mem_singleton.1 hp
      exact plain_regGet hreg
    · intro hfit
      have hroom := hfit _ List.mem_cons_self
      obtain ⟨s', hget, -⟩ := getregs_answers s
      have hrep := represents_target hframe
      have hone := (agree hrep (.readReg hreg hn) trivial hroom).answers (plain_regGet hreg) hroom
      have hdigits : (s.target.answer (.readReg n)).1 =
          ((hexText (load s.mem s.registers (NUM_REGS * 4))).drop (8 * n)).take 8 := by
        rw [hframe, frame_slot s.mem n, hrep.slot n]
        rfl
      rw [hdigits] at hone
      exact ⟨_, _, _, .cons hget .nil, .cons hone .nil⟩

/-- Memory far from the RAM of the stub. -/
theorem allowed_far :
    (Request.writeMem (.ofNat 32 (numeral (text "40000000"))) [0xab, 0xcd]).Allowed := by
  intro a ha
  have haddr : numeral (text "40000000") = 0x40000000 := by decide
  rw [haddr] at ha
  simp only [Covers, StubRam, List.length_cons, List.length_nil] at ha ⊢
  bv_omega

/-- Two bytes written in digits of both cases and read back after a board reset. -/
theorem byteStore_boot :
    ∃ s', (Stub.boot fun _ => 0).Converses [text "M40000000,2:aBCd", text "m40000000,2"]
      [text "OK", text "abcd"] s' := by
  have hp : MemText 'M' (text "M40000000,2:aBCd") (text "40000000") (text "2")
      (text "aBCd" ++ []) := ⟨by decide, by decide, by decide⟩
  have hdigits : HexOf (text "aBCd") [0xab, 0xcd] := by decide
  have haddr : Numeral (text "40000000") := by decide
  have hlength : Numeral (text "2") := by decide
  have hread : ascii 'm' :: text "40000000" ++ ascii ',' :: text "2" = text "m40000000,2" := by
    decide
  have hlower : (text "aBCd").map lower = text "abcd" := by decide
  rw [← hread, ← hlower]
  refine ((byteStore (s := .boot fun _ => 0) rfl).read_written hp (by decide) hdigits (by decide)
    allowed_far haddr hlength rfl rfl).2 ?_
  rw [hread]
  unfold Fit
  decide

/-- A read of four bytes at address 0, with as many leading zeros as a packet of the announced size
has room for. -/
def longRead : List Byte :=
  ascii 'm' :: List.replicate 797 (ascii '0') ++ ascii ',' :: text "4"

/-- Zeros are a numeral, and denote zero. -/
theorem zeros_numeral {n : Nat} (hn : n ≠ 0) : Numeral (List.replicate n (ascii '0')) := by
  refine ⟨fun hnil => hn ((List.replicate_eq_nil_iff _).1 hnil), fun c hc => ?_⟩
  rw [List.eq_of_mem_replicate hc]
  decide

theorem numeral_zeros (n : Nat) : numeral (List.replicate n (ascii '0')) = 0 := by
  induction n with
  | zero => rfl
  | succ n ih =>
      rw [List.replicate_succ, numeral, List.foldl_cons]
      exact ih

/-- The packet asks for these bytes. -/
theorem requests_longRead : Requests [longRead] [.readMem 0 4] := by
  have haddr := zeros_numeral (show 797 ≠ 0 by decide)
  have hlength : Numeral (text "4") := by decide
  have hasks := Asks.readMem haddr hlength
  rw [numeral_zeros] at hasks
  refine .cons ⟨hasks, ⟨by decide, fun a ha => ?_⟩, plain_memRead haddr hlength⟩ .nil
  simp only [Covers, StubRam] at ha ⊢
  bv_omega

/-- A read of the announced size is not answered. -/
theorem long_read_unanswered :
    ¬ ∀ s t ps rs, Represents s t → Requests ps rs →
      ∃ s', s.Converses ps (t.answers rs).1 s' ∧ Represents s' (t.answers rs).2 := by
  intro h
  obtain ⟨s', hconverses, -⟩ := h (.boot fun _ => 0) (Stub.boot fun _ => 0).target [longRead]
    [.readMem 0 4] (represents_target rfl) requests_longRead
  have hfit := hconverses.fit requests_longRead.plain longRead List.mem_cons_self
  simp only [longRead, List.length_append, List.length_cons, List.length_replicate] at hfit
  exact absurd hfit (by decide)

end Soc.Gdbstub
