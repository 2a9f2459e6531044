import Soc.Gdbstub.Store

/-!
# Two buffers with one packet

What the commands make of two packet buffers that hold the same string and differ behind it.
They read their arguments from the string, and their replies are the same; only the data
that a write copies can come from behind the string. The buffers are part of the RAM of the
stub, of which nothing but the saved registers is compared.
-/

namespace Soc.Gdbstub

open Library.Region (Covers load load_congr store store_congr)

/-- Both buffers hold the same characters up to a NUL at `n`. -/
def Shares (n : Nat) (b b' : Nat → Byte) : Prop := b n = 0 ∧ ∀ i ≤ n, b i = b' i

section Arguments

variable {n ptr : Nat} {b b' : Nat → Byte}

/-- The loop of `hex2int` stays before the NUL. -/
theorem hex2intFrom_shares (h : Shares n b b') (fuel : Nat) {r : HexInt} (hptr : r.ptr ≤ n) :
    hex2intFrom b fuel r = hex2intFrom b' fuel r ∧ (hex2intFrom b fuel r).ptr ≤ n := by
  induction fuel generalizing r with
  | zero => exact ⟨rfl, hptr⟩
  | succ fuel ih =>
      rw [hex2intFrom, hex2intFrom, ← h.2 _ hptr]
      by_cases hnul : b r.ptr = 0
      · simpa only [hnul, if_true, true_and] using hptr
      have hne : r.ptr ≠ n := fun heq => hnul (heq ▸ h.1)
      by_cases hdigit : hex (b r.ptr) < 0
      · simpa only [hnul, hdigit, if_true, if_false, true_and] using hptr
      simp only [hnul, hdigit, if_false]
      exact ih (show r.ptr + 1 ≤ n by omega)

/-- `hex2int` reads the same number. -/
theorem hexArg_shares (h : Shares n b b') (hptr : ptr ≤ n) :
    hexArg b ptr = hexArg b' ptr ∧ ∀ r, hexArg b ptr = some r → r.2 ≤ n := by
  obtain ⟨hsame, hend⟩ := hex2intFrom_shares h (BUFMAX + 1) (r := ⟨0, 0, ptr⟩) hptr
  rw [hexArg, hexArg, hex2int, hex2int, ← hsame]
  refine ⟨rfl, fun r hr => ?_⟩
  simp only [gt_iff_lt] at hr
  split_ifs at hr
  cases hr
  exact hend

/-- The same character is found. -/
theorem charArg_shares (h : Shares n b b') (hptr : ptr ≤ n) {c : Char} (hc : ascii c ≠ 0) :
    charArg b ptr c = charArg b' ptr c ∧ ∀ r, charArg b ptr c = some r → r ≤ n := by
  rw [charArg, charArg, ← h.2 _ hptr]
  refine ⟨rfl, fun r hr => ?_⟩
  split_ifs at hr with hchar
  cases hr
  have hne : ptr ≠ n := by
    rintro rfl
    exact hc (hchar ▸ h.1)
  omega

/-- One argument after another. -/
theorem bind_shares {α β : Type} {x x' : Option α} {f f' : α → Option β} (hx : x = x')
    (hf : ∀ a, x = some a → f a = f' a) : x >>= f = x' >>= f' := by
  subst hx
  cases x with
  | none => rfl
  | some a => exact hf a rfl

/-- The arguments of a memory command are the same. -/
theorem memArgs_shares (h : Shares n b b') (hn : 1 ≤ n) :
    memArgs b = memArgs b' ∧ ∀ r, memArgs b = some r → r.2.2 ≤ n := by
  obtain ⟨haddr, haddrEnd⟩ := hexArg_shares h hn
  refine ⟨bind_shares haddr fun r hr => ?_, fun r hr => ?_⟩
  · obtain ⟨hcomma, hcommaEnd⟩ := charArg_shares h (haddrEnd r hr) (c := ',') (by decide)
    refine bind_shares hcomma fun ptr hptr => ?_
    exact bind_shares (hexArg_shares h (hcommaEnd ptr hptr)).1 fun _ _ => rfl
  · simp only [memArgs, Option.bind_eq_bind, Option.bind_eq_some_iff, Option.pure_def,
      Option.some.injEq] at hr
    obtain ⟨r1, h1, ptr, h2, r2, h3, rfl⟩ := hr
    have hptr := (charArg_shares h (haddrEnd r1 h1) (by decide)).2 ptr h2
    exact (hexArg_shares h hptr).2 r2 h3

/-- The arguments of a memory write are the same. -/
theorem writeArgs_shares (h : Shares n b b') (hn : 1 ≤ n) : writeArgs b = writeArgs b' := by
  obtain ⟨hargs, hend⟩ := memArgs_shares h hn
  refine bind_shares hargs fun r hr => ?_
  exact bind_shares (charArg_shares h (hend r hr) (by decide)).1 fun _ _ => rfl

/-- The arguments of a register write are the same. -/
theorem setArgs_shares (h : Shares n b b') (hn : 1 ≤ n) : setArgs b = setArgs b' := by
  obtain ⟨hreg, hend⟩ := hexArg_shares h hn
  refine bind_shares hreg fun r hr => ?_
  exact bind_shares (charArg_shares h (hend r hr) (by decide)).1 fun _ _ => rfl

/-- The arguments of `cmd_break` are the same. -/
theorem breakArgs_shares (h : Shares n b b') (hn : 2 ≤ n) : breakArgs b = breakArgs b' := by
  obtain ⟨hcomma, hcommaEnd⟩ := charArg_shares h hn (c := ',') (by decide)
  refine bind_shares hcomma fun ptr hptr => ?_
  obtain ⟨haddr, haddrEnd⟩ := hexArg_shares h (hcommaEnd ptr hptr)
  refine bind_shares haddr fun r hr => ?_
  obtain ⟨hsecond, hsecondEnd⟩ := charArg_shares h (haddrEnd r hr) (c := ',') (by decide)
  refine bind_shares hsecond fun ptr hptr => ?_
  exact bind_shares (hexArg_shares h (hsecondEnd ptr hptr)).1 fun _ _ => rfl

/-- A comparison with a text that reaches the NUL fails in both buffers. -/
theorem compare_shares (h : Shares n b b') (hptr : ptr ≤ n) {l : List Byte} (hl : 0 ∉ l) :
    (List.range l.length).map (fun i => b (i + ptr)) = l ↔
      (List.range l.length).map (fun i => b' (i + ptr)) = l := by
  by_cases hinside : ptr + l.length ≤ n + 1
  · have hsame : ∀ i ∈ List.range l.length, b (i + ptr) = b' (i + ptr) := by
      intro i hi
      exact h.2 _ (by have := List.mem_range.1 hi; omega)
    rw [List.map_congr_left hsame]
  · have hnul : ∀ b : Nat → Byte, b n = 0 →
        (List.range l.length).map (fun i => b (i + ptr)) ≠ l := by
      intro b hb heq
      apply hl
      rw [← heq]
      refine List.mem_map.2 ⟨n - ptr, List.mem_range.2 (by omega), ?_⟩
      rw [Nat.sub_add_cancel hptr, hb]
    have hnul' : b' n = 0 := (h.2 n (Nat.le_refl n)).symm.trans h.1
    exact iff_of_false (hnul b h.1) (hnul b' hnul')

end Arguments

section Replies

variable {n pos : Nat} {b b' : Nat → Byte}

/-- Both buffers hold the same string. -/
theorem cString_shares (h : Shares n b b') (fuel : Nat) (hpos : pos ≤ n) :
    cString b pos fuel = cString b' pos fuel := by
  induction fuel generalizing pos with
  | zero => rfl
  | succ fuel ih =>
      rw [cString, cString, ← h.2 _ hpos]
      by_cases hnul : b pos = 0
      · simp only [hnul, if_true]
      have hne : pos ≠ n := fun heq => hnul (heq ▸ h.1)
      simp only [hnul, if_false, ih (show pos + 1 ≤ n by omega)]

/-- `put_packet` sends the same characters. -/
theorem packetChars_shares (h : Shares n b b') : packetChars b = packetChars b' := by
  rw [packetChars, packetChars, cString_shares h _ (Nat.zero_le n)]

/-- One more character is stored into both buffers. -/
theorem update_shares (h : ∀ i < pos, b i = b' i) (c : Byte) :
    ∀ i < pos + 1, Function.update b pos c i = Function.update b' pos c i := by
  intro i hi
  by_cases heq : i = pos
  · rw [heq, Function.update_self, Function.update_self]
  · rw [Function.update_of_ne heq, Function.update_of_ne heq, h i (by omega)]

/-- A text is copied behind the same characters. -/
theorem strcpy_shares {l : List Byte} (h : ∀ i < pos, b i = b' i) :
    Shares (pos + l.length) (strcpy b pos l) (strcpy b' pos l) := by
  induction l generalizing b b' pos with
  | nil =>
      refine ⟨Function.update_self _ _ _, fun i hi => ?_⟩
      exact update_shares h 0 i (Nat.lt_succ_of_le hi)
  | cons c l ih =>
      have hrest := ih (update_shares h c)
      rw [Nat.add_assoc, Nat.add_comm 1] at hrest
      exact hrest

/-- The digits of a region are written behind the same characters. -/
theorem mem2hex_shares {mem mem' : Word → Byte} {addr : Word} {count : Nat}
    (hload : load mem addr count = load mem' addr count) (h : ∀ i < pos, b i = b' i) :
    Shares (mem2hex mem addr b pos count).2 (mem2hex mem addr b pos count).1
      (mem2hex mem' addr b' pos count).1 := by
  rw [mem2hex_eq, mem2hex_eq, ← hload]
  have hagree := strcpy_shares (l := hexText (load mem addr count)) h
  rwa [hexText_length, Library.Region.load_length] at hagree

/-- A constant reply. -/
theorem reply_shares (s s' : Stub) (t : String) :
    Shares (text t).length (s.reply t).remcomOutBuffer (s'.reply t).remcomOutBuffer := by
  have h : Shares _ (strcpy s.remcomOutBuffer 0 (text t)) (strcpy s'.remcomOutBuffer 0 (text t)) :=
    strcpy_shares fun i hi => absurd hi (Nat.not_lt_zero i)
  rwa [Nat.zero_add] at h

end Replies

section Copies

/-- The byte `hex2mem` stores for the digits at a position. -/
def hexByte (buf : Nat → Byte) (pos : Nat) : Byte :=
  BitVec.ofInt 8 (hex (buf pos)) <<< 4 ||| BitVec.ofInt 8 (hex (buf (pos + 1)))

/-- The bytes `hex2mem` stores. -/
def hexBytes (buf : Nat → Byte) : Nat → Nat → List Byte
  | _, 0 => []
  | pos, count + 1 => hexByte buf pos :: hexBytes buf (pos + 2) count

/-- The bytes `bin2mem` stores. -/
def binBytes (buf : Nat → Byte) : Nat → Nat → List Byte
  | _, 0 => []
  | pos, count + 1 =>
      if buf pos = 0x7d then (buf (pos + 1) ^^^ 0x20) :: binBytes buf (pos + 2) count
      else buf pos :: binBytes buf (pos + 1) count

variable {b b' : Nat → Byte} {pos count : Nat} (mem : Word → Byte) (addr : Word)

theorem hexBytes_length : (hexBytes b pos count).length = count := by
  induction count generalizing pos with
  | zero => rfl
  | succ count ih => rw [hexBytes, List.length_cons, ih]

theorem binBytes_length : (binBytes b pos count).length = count := by
  induction count generalizing pos with
  | zero => rfl
  | succ count ih =>
      rw [binBytes]
      split_ifs <;> rw [List.length_cons, ih]

theorem hex2mem_store (b : Nat → Byte) (pos count : Nat) :
    hex2mem b pos mem addr count = store mem addr (hexBytes b pos count) := by
  induction count generalizing pos mem addr with
  | zero => rfl
  | succ count ih => rw [hex2mem, ih, hexBytes, store, hexByte]

theorem bin2mem_store (b : Nat → Byte) (pos count : Nat) :
    bin2mem b pos mem addr count = store mem addr (binBytes b pos count) := by
  induction count generalizing pos mem addr with
  | zero => rfl
  | succ count ih =>
      rw [bin2mem, binBytes]
      split_ifs <;> rw [ih, store]

/-- The bytes of digits one by one. -/
theorem hexBytes_eq_iff : hexBytes b pos count = hexBytes b' pos count ↔
    ∀ i < count, hexByte b (pos + 2 * i) = hexByte b' (pos + 2 * i) := by
  induction count generalizing pos with
  | zero => simp [hexBytes]
  | succ count ih =>
      rw [hexBytes, hexBytes, List.cons.injEq, ih]
      constructor
      · rintro ⟨hfirst, hrest⟩ i hi
        cases i with
        | zero => exact hfirst
        | succ i =>
            have hnext := hrest i (Nat.lt_of_succ_lt_succ hi)
            rwa [Nat.add_assoc, Nat.add_comm 2] at hnext
      · intro h
        refine ⟨h 0 (Nat.succ_pos _), fun i hi => ?_⟩
        have hnext := h (i + 1) (Nat.succ_lt_succ hi)
        rwa [Nat.mul_succ, Nat.add_comm (2 * i), ← Nat.add_assoc] at hnext

/-- The bytes a write copies out of the packet buffer. -/
def copied (b : Nat → Byte) : List Byte :=
  if b 0 = ascii 'G' then hexBytes b 1 (NUM_REGS * 4)
  else if b 0 = ascii 'M' then
    (writeArgs b).elim [] fun (_, length, ptr) => hexBytes b ptr length.toInt.toNat
  else if b 0 = ascii 'X' then
    (writeArgs b).elim [] fun (_, length, ptr) => binBytes b ptr length.toInt.toNat
  else if b 0 = ascii 'P' then (setArgs b).elim [] fun (_, ptr) => hexBytes b ptr 4
  else []

/-- The bytes that each command copies. -/
theorem copied_setregs (h : b 0 = ascii 'G') : copied b = hexBytes b 1 (NUM_REGS * 4) :=
  if_pos h

theorem copied_memWrite (h : b 0 = ascii 'M') :
    copied b = (writeArgs b).elim [] fun r => hexBytes b r.2.2 r.2.1.toInt.toNat := by
  have hne : b 0 ≠ ascii 'G' := by
    rw [h]
    decide
  exact (if_neg hne).trans (if_pos h)

theorem copied_memWriteBinary (h : b 0 = ascii 'X') :
    copied b = (writeArgs b).elim [] fun r => binBytes b r.2.2 r.2.1.toInt.toNat := by
  have hne : b 0 ≠ ascii 'G' := by
    rw [h]
    decide
  have hne' : b 0 ≠ ascii 'M' := by
    rw [h]
    decide
  exact (if_neg hne).trans ((if_neg hne').trans (if_pos h))

theorem copied_regSet (h : b 0 = ascii 'P') :
    copied b = (setArgs b).elim [] fun r => hexBytes b r.2 4 := by
  have hne : b 0 ≠ ascii 'G' := by
    rw [h]
    decide
  have hne' : b 0 ≠ ascii 'M' := by
    rw [h]
    decide
  have hne'' : b 0 ≠ ascii 'X' := by
    rw [h]
    decide
  exact (if_neg hne).trans ((if_neg hne').trans ((if_neg hne'').trans (if_pos h)))

end Copies

@[simp] theorem Stub.wcsr_mem (s : Stub) (csr : BitVec 5) (value : Word) :
    (s.wcsr csr value).mem = s.mem := rfl

@[simp] theorem Stub.removeAllBreak_mem (s : Stub) : s.removeAllBreak.mem = s.mem := by
  simp only [removeAllBreak, wcsr_mem]

/-- What no command changes: the packet buffer, and where the registers are. -/
def Stub.fixed (s : Stub) : (Nat → Byte) × Word := (s.remcomInBuffer, s.registers)

@[simp] theorem Stub.reply_fixed (s : Stub) (t : String) : (s.reply t).fixed = s.fixed := rfl

@[simp] theorem Stub.wcsr_fixed (s : Stub) (csr : BitVec 5) (value : Word) :
    (s.wcsr csr value).fixed = s.fixed := rfl

@[simp] theorem Stub.removeAllBreak_fixed (s : Stub) : s.removeAllBreak.fixed = s.fixed := by
  simp only [removeAllBreak, wcsr_fixed]

/-- The RAM of the stub without the saved registers: its static data, among them the packet buffers,
and its stack. -/
def Own (a : Word) : Prop := StubRam a ∧ ¬ Covers debugFrame (NUM_REGS * 4) a

/-- The memories agree outside the stub's own RAM. -/
def SameOutside (mem mem' : Word → Byte) : Prop := ∀ a, ¬ Own a → mem a = mem' a

/-- The memory the command in a buffer reads and writes lies outside the stub's own RAM. -/
structure Outside (b : Nat → Byte) : Prop where
  memRead : b 0 = ascii 'm' → ∀ r, memArgs b = some r → r.2.1.toNat ≤ (BUFMAX + 1) / 2 →
    ∀ a, Covers r.1 r.2.1.toNat a → ¬ Own a
  memWrite : b 0 = ascii 'M' ∨ b 0 = ascii 'X' → ∀ r, writeArgs b = some r →
    ∀ a, Covers r.1 r.2.1.toInt.toNat a → ¬ Own a
  regGet : b 0 = ascii 'p' → ∀ r, hexArg b 1 = some r →
    ∀ a, Covers (debugFrame + r.1 * 4) 4 a → ¬ Own a
  regSet : b 0 = ascii 'P' → ∀ r, setArgs b = some r →
    ∀ a, Covers (debugFrame + r.1 * 4) 4 a → ¬ Own a

/-- The string determines the memory that is read and written. -/
theorem Outside.shares {n : Nat} {b b' : Nat → Byte} (h : Outside b) (hagree : Shares n b b')
    (hn : 1 ≤ n) : Outside b' := by
  have hhead := hagree.2 0 (Nat.zero_le n)
  obtain ⟨hread, hwrite, hget, hset⟩ := h
  rw [hhead, (memArgs_shares hagree hn).1] at hread
  rw [hhead, writeArgs_shares hagree hn] at hwrite
  rw [hhead, (hexArg_shares hagree hn).1] at hget
  rw [hhead, setArgs_shares hagree hn] at hset
  exact ⟨hread, hwrite, hget, hset⟩

section SameOutside

variable {mem mem' : Word → Byte} {addr : Word} {count : Nat}

/-- A region outside holds the same bytes. -/
theorem SameOutside.load_eq (h : SameOutside mem mem') (hout : ∀ a, Covers addr count a → ¬ Own a)
    (hcount : count ≤ Nat.pow 2 32) : load mem addr count = load mem' addr count :=
  load_congr (fun a ha => h a (hout a ha)) hcount

/-- The saved registers are outside. -/
theorem frame_outside {a : Word} (h : Covers debugFrame (NUM_REGS * 4) a) : ¬ Own a :=
  fun hown => hown.2 h

theorem SameOutside.slot (h : SameOutside mem mem') {n : Nat} (hn : n < NUM_REGS) :
    load mem (regSlot n) 4 = load mem' (regSlot n) 4 :=
  h.load_eq (fun _ ha => frame_outside (regSlot_in_frame hn ha)) (by decide)

/-- The same bytes make the same word. -/
theorem readWord_congr (h : load mem addr 4 = load mem' addr 4) :
    readWord mem addr = readWord mem' addr := by
  have h2 : addr + 1 + 1 = addr + 2 := by bv_omega
  have h3 : addr + 2 + 1 = addr + 3 := by bv_omega
  simp only [load, h2, h3, List.cons.injEq, and_true] at h
  rw [readWord, readWord, h.1, h.2.1, h.2.2.1, h.2.2.2]

/-- The same bytes are stored into both memories. -/
theorem SameOutside.store (h : SameOutside mem mem') (addr : Word) (l : List Byte) :
    SameOutside (store mem addr l) (store mem' addr l) :=
  fun a ha => store_congr (h a ha)

/-- The same byte is stored into both memories. -/
theorem SameOutside.update (h : SameOutside mem mem') (addr : Word) (c : Byte) :
    SameOutside (Function.update mem addr c) (Function.update mem' addr c) := by
  intro a ha
  by_cases heq : a = addr
  · rw [heq, Function.update_self, Function.update_self]
  · rw [Function.update_of_ne heq, Function.update_of_ne heq, h a ha]

theorem SameOutside.writeWord (h : SameOutside mem mem') (addr value : Word) :
    SameOutside (writeWord mem addr value) (writeWord mem' addr value) :=
  (((h.update _ _).update _ _).update _ _).update _ _

end SameOutside

/-- The state with other packet buffers and another memory. -/
def Stub.withRam (s : Stub) (b o : Nat → Byte) (mem : Word → Byte) : Stub :=
  { s with
    remcomInBuffer := b
    remcomOutBuffer := o
    mem := mem }

@[simp] theorem Stub.withRam_remcomInBuffer (s : Stub) (b o : Nat → Byte) (mem : Word → Byte) :
    (s.withRam b o mem).remcomInBuffer = b := rfl

@[simp] theorem Stub.withRam_cfg (s : Stub) (b o : Nat → Byte) (mem : Word → Byte) :
    (s.withRam b o mem).cfg = s.cfg := rfl

@[simp] theorem Stub.withRam_bpwpEnabled (s : Stub) (b o : Nat → Byte) (mem : Word → Byte) :
    (s.withRam b o mem).bpwpEnabled = s.bpwpEnabled := rfl

/-- The states differ at most in the packet buffers and in the stub's own RAM. -/
structure Same (s s' : Stub) : Prop where
  mem : SameOutside s.mem s'.mem
  rest : s' = s.withRam s'.remcomInBuffer s'.remcomOutBuffer s'.mem

theorem same_withRam {s : Stub} {mem : Word → Byte} (h : SameOutside s.mem mem)
    (b o : Nat → Byte) : Same s (s.withRam b o mem) := ⟨h, rfl⟩

/-- Two commands leave the same state, the same reply and the same decision. -/
structure Echo (r r' : Stub × After) : Prop where
  same : Same r.1 r'.1
  after : r.2 = r'.2
  reply : ∃ n, Shares n r.1.remcomOutBuffer r'.1.remcomOutBuffer

section Commands

variable {s : Stub} {n : Nat} {b o : Nat → Byte} {mem : Word → Byte}

/-- Two commands that answer with the same text. -/
theorem echo_reply {s s' : Stub} (t : String) (a : After) (h : Same s s') :
    Echo (s.reply t, a) (s'.reply t, a) where
  same := by
    refine ⟨h.mem, ?_⟩
    have hrest := h.rest
    rw [hrest]
    rfl
  after := rfl
  reply := ⟨_, reply_shares _ _ t⟩

/-- Two commands that answer nothing. -/
theorem echo_empty {s s' : Stub} (a : After) (h : Same s s') (hout : s.remcomOutBuffer 0 = 0)
    (hout' : s'.remcomOutBuffer 0 = 0) : Echo (s, a) (s', a) where
  same := h
  after := rfl
  reply := ⟨0, hout, fun i hi => by rw [Nat.le_zero.1 hi, hout, hout']⟩

/-- Two buffers are filled up to the same position with the same characters. -/
def Level (r r' : (Nat → Byte) × Nat) : Prop := r'.2 = r.2 ∧ ∀ i < r.2, r.1 i = r'.1 i

/-- One more character. -/
theorem Level.put {r r' : (Nat → Byte) × Nat} (h : Level r r') (c : Byte) :
    Level (Function.update r.1 r.2 c, r.2 + 1) (Function.update r'.1 r'.2 c, r'.2 + 1) := by
  obtain ⟨hpos, hsame⟩ := h
  rw [hpos]
  exact ⟨rfl, update_shares hsame c⟩

/-- The digits of a region. -/
theorem Level.digits {r r' : (Nat → Byte) × Nat} (h : Level r r') {mem mem' : Word → Byte}
    {addr : Word} {count : Nat} (hload : load mem addr count = load mem' addr count) :
    Level (mem2hex mem addr r.1 r.2 count) (mem2hex mem' addr r'.1 r'.2 count) := by
  obtain ⟨hpos, hsame⟩ := h
  rw [hpos]
  have hagree := mem2hex_shares hload hsame
  refine ⟨?_, fun i hi => hagree.2 i (Nat.le_of_lt hi)⟩
  rw [mem2hex_eq, mem2hex_eq]

/-- A NUL ends the string. -/
theorem Level.ends {r r' : (Nat → Byte) × Nat} (h : Level r r') :
    Shares r.2 (Function.update r.1 r.2 0) (Function.update r'.1 r'.2 0) := by
  obtain ⟨hpos, hsame⟩ := h
  rw [hpos]
  exact ⟨Function.update_self _ _ _, fun i hi => update_shares hsame 0 i (Nat.lt_succ_of_le hi)⟩

/-- The status is the same. -/
theorem echo_status (hframe : s.registers = debugFrame) (hmem : SameOutside s.mem mem) :
    Echo (s.cmdStatus, .reply) ((s.withRam b o mem).cmdStatus, .reply) where
  same := ⟨hmem, rfl⟩
  after := rfl
  reply := by
    have hslot : ∀ {n}, n < NUM_REGS → load s.mem (s.regAddr (.ofNat 32 n)) 4 =
        load mem ((s.withRam b o mem).regAddr (.ofNat 32 n)) 4 := by
      intro n hn
      have hsame := hmem.slot hn
      rwa [regSlot, ← hframe] at hsame
    have heid := readWord_congr (hslot (n := LM32_REG_EID) (by decide))
    have hstart : Level (s.remcomOutBuffer, 0) (o, 0) :=
      ⟨rfl, fun i hi => absurd hi (Nat.not_lt_zero i)⟩
    have hsignal := fun c1 c2 c3 => ((hstart.put c1).put c2).put c3
    have hreg : ∀ {r r'} (c1 c2 c3 c4 : Byte) (n : Nat), n < NUM_REGS → Level r r' →
        Level _ _ :=
      fun c1 c2 c3 c4 n hn h => ((((h.put c1).put c2).put c3).digits (hslot hn)).put c4
    simp only [Stub.cmdStatus]
    rw [heid]
    exact ⟨_, (hreg _ _ _ _ _ (by decide) (hreg _ _ _ _ _ (by decide) (hsignal _ _ _))).ends⟩

/-- A command that writes the digits of a region. -/
theorem echo_digits {addr : Word} {count : Nat} (a : After) (hmem : SameOutside s.mem mem)
    (hload : load s.mem addr count = load mem addr count) :
    Echo ({ s with remcomOutBuffer := (mem2hex s.mem addr s.remcomOutBuffer 0 count).1 }, a)
      ({ s.withRam b o mem with
          remcomOutBuffer := (mem2hex mem addr o 0 count).1 }, a) where
  same := ⟨hmem, rfl⟩
  after := rfl
  reply := ⟨_, mem2hex_shares hload fun i hi => absurd hi (Nat.not_lt_zero i)⟩

/-- Reading memory gives the same digits. -/
theorem echo_memRead (h : Shares n s.remcomInBuffer b) (hn : 1 ≤ n)
    (hhead : s.remcomInBuffer 0 = ascii 'm') (hmem : SameOutside s.mem mem)
    (hout : Outside s.remcomInBuffer) :
    Echo (s.cmdMemRead, .reply) ((s.withRam b o mem).cmdMemRead, .reply) := by
  have hargs : memArgs s.remcomInBuffer = memArgs (s.withRam b o mem).remcomInBuffer :=
    (memArgs_shares h hn).1
  have hregion := hout.memRead hhead
  rw [Stub.cmdMemRead, Stub.cmdMemRead, ← hargs]
  cases hread : memArgs s.remcomInBuffer with
  | none => exact echo_reply _ _ (same_withRam hmem b o)
  | some r =>
      by_cases hlength : r.2.1.toNat ≤ (BUFMAX + 1) / 2
      · simp only [hlength, if_true]
        exact echo_digits _ hmem
          (hmem.load_eq (hregion r hread hlength) (Nat.le_trans hlength (by decide)))
      · simp only [hlength, if_false]
        exact echo_reply _ _ (same_withRam hmem b o)

/-- Reading a register gives the same digits. -/
theorem echo_regGet (h : Shares n s.remcomInBuffer b) (hn : 1 ≤ n)
    (hhead : s.remcomInBuffer 0 = ascii 'p') (hframe : s.registers = debugFrame)
    (hmem : SameOutside s.mem mem) (hout : Outside s.remcomInBuffer) :
    Echo (s.cmdRegGet, .reply) ((s.withRam b o mem).cmdRegGet, .reply) := by
  have hargs : hexArg s.remcomInBuffer 1 = hexArg (s.withRam b o mem).remcomInBuffer 1 :=
    (hexArg_shares h hn).1
  have hregion := hout.regGet hhead
  rw [Stub.cmdRegGet, Stub.cmdRegGet, ← hargs]
  cases hread : hexArg s.remcomInBuffer 1 with
  | none => exact echo_reply _ _ (same_withRam hmem b o)
  | some r =>
      refine echo_digits _ hmem (hmem.load_eq ?_ (by decide))
      rw [Stub.regAddr, hframe]
      exact hregion r hread

/-- A write that stores the same bytes. -/
theorem echo_store {addr : Word} {l l' : List Byte} (hmem : SameOutside s.mem mem) (hl : l = l')
    (t : String) :
    Echo ({ s with mem := store s.mem addr l }.reply t, .reply)
      ({ s.withRam b o mem with mem := store mem addr l' }.reply t, .reply) := by
  subst hl
  exact echo_reply _ _ ⟨hmem.store addr l, rfl⟩

/-- A memory write with its arguments. -/
theorem memWrite_store {addr length : Word} {ptr : Nat} (binary : Bool)
    (h : writeArgs s.remcomInBuffer = some (addr, length, ptr)) :
    s.cmdMemWrite binary =
      { s with
        mem := store s.mem addr ((if binary then binBytes else hexBytes) s.remcomInBuffer ptr
          length.toInt.toNat) }.reply "OK" := by
  rw [writeArgs] at h
  simp only [Stub.cmdMemWrite, h]
  cases binary with
  | false => exact congrArg (fun m => { s with mem := m }.reply "OK") (hex2mem_store _ _ _ _ _)
  | true => exact congrArg (fun m => { s with mem := m }.reply "OK") (bin2mem_store _ _ _ _ _)

/-- A memory write without. -/
theorem memWrite_none (binary : Bool) (h : writeArgs s.remcomInBuffer = none) :
    s.cmdMemWrite binary = s.reply "E22" := by
  rw [writeArgs] at h
  simp only [Stub.cmdMemWrite, h]

/-- Writing memory stores the same bytes if those copied are the same. -/
theorem echo_memWrite (binary : Bool) (h : Shares n s.remcomInBuffer b) (hn : 1 ≤ n)
    (hmem : SameOutside s.mem mem)
    (hcopied : ∀ addr length ptr, writeArgs b = some (addr, length, ptr) →
      (if binary then binBytes else hexBytes) s.remcomInBuffer ptr length.toInt.toNat =
        (if binary then binBytes else hexBytes) b ptr length.toInt.toNat) :
    Echo (s.cmdMemWrite binary, .reply) ((s.withRam b o mem).cmdMemWrite binary, .reply) := by
  have hargs := writeArgs_shares h hn
  cases hb : writeArgs b with
  | none =>
      rw [memWrite_none binary (hargs.trans hb), memWrite_none (s := s.withRam b o mem) binary hb]
      exact echo_reply _ _ (same_withRam hmem b o)
  | some r =>
      obtain ⟨addr, length, ptr⟩ := r
      rw [memWrite_store binary (hargs.trans hb),
        memWrite_store (s := s.withRam b o mem) binary hb]
      exact echo_store hmem (hcopied addr length ptr hb) _

/-- A register write with its arguments. -/
theorem regSet_store {reg : Word} {ptr : Nat} (h : setArgs s.remcomInBuffer = some (reg, ptr)) :
    s.cmdRegSet = { s with
      mem := store s.mem (s.regAddr reg) (hexBytes s.remcomInBuffer ptr 4) }.reply "OK" := by
  rw [setArgs] at h
  simp only [Stub.cmdRegSet, h, hex2mem_store]

/-- A register write without. -/
theorem regSet_none (h : setArgs s.remcomInBuffer = none) : s.cmdRegSet = s.reply "E22" := by
  rw [setArgs] at h
  simp only [Stub.cmdRegSet, h]

/-- Writing a register stores the same bytes if those copied are the same. -/
theorem echo_regSet (h : Shares n s.remcomInBuffer b) (hn : 1 ≤ n) (hmem : SameOutside s.mem mem)
    (hcopied : ∀ reg ptr, setArgs b = some (reg, ptr) →
      hexBytes s.remcomInBuffer ptr 4 = hexBytes b ptr 4) :
    Echo (s.cmdRegSet, .reply) ((s.withRam b o mem).cmdRegSet, .reply) := by
  have hargs := setArgs_shares h hn
  cases hb : setArgs b with
  | none =>
      rw [regSet_none (hargs.trans hb), regSet_none (s := s.withRam b o mem) hb]
      exact echo_reply _ _ (same_withRam hmem b o)
  | some r =>
      obtain ⟨reg, ptr⟩ := r
      rw [regSet_store (hargs.trans hb), regSet_store (s := s.withRam b o mem) hb]
      exact echo_store hmem (hcopied reg ptr hb) _

/-- Writing all registers. -/
theorem setregs_store : s.cmdSetregs = { s with
    mem := store s.mem s.registers (hexBytes s.remcomInBuffer 1 (NUM_REGS * 4)) }.reply "OK" := by
  rw [Stub.cmdSetregs, hex2mem_store]

/-- Detaching takes no arguments. -/
theorem echo_detachkill (h : Shares n s.remcomInBuffer b) (a : After)
    (hmem : SameOutside s.mem mem) (hout : s.remcomOutBuffer 0 = 0) (ho : o 0 = 0) :
    Echo (s.cmdDetachkill, a) ((s.withRam b o mem).cmdDetachkill, a) := by
  have hhead : (s.withRam b o mem).remcomInBuffer 0 = s.remcomInBuffer 0 :=
    (h.2 0 (Nat.zero_le n)).symm
  have hfirst : s.cmdDetachkill = if s.remcomInBuffer 0 = ascii 'D' then
      { s.removeAllBreak with gdbConnected := false }.reply "OK"
      else { s.removeAllBreak with gdbConnected := false } := rfl
  have hsecond : (s.withRam b o mem).cmdDetachkill =
      if (s.withRam b o mem).remcomInBuffer 0 = ascii 'D' then
        { (s.withRam b o mem).removeAllBreak with gdbConnected := false }.reply "OK"
      else { (s.withRam b o mem).removeAllBreak with gdbConnected := false } := rfl
  have hremove : (s.withRam b o mem).removeAllBreak = s.removeAllBreak.withRam b o mem := rfl
  have hkept : SameOutside s.removeAllBreak.mem mem := by rwa [Stub.removeAllBreak_mem]
  rw [hfirst, hsecond, hhead, hremove]
  split_ifs
  · exact echo_reply _ _ ⟨hkept, rfl⟩
  · exact echo_empty _ ⟨hkept, rfl⟩ hout ho

/-- Resuming reads the same address. -/
theorem echo_continuestep (h : Shares n s.remcomInBuffer b) (hn : 1 ≤ n) (a : After)
    (hmem : SameOutside s.mem mem) (hout : s.remcomOutBuffer 0 = 0) (ho : o 0 = 0) :
    Echo (s.cmdContinuestep, a) ((s.withRam b o mem).cmdContinuestep, a) := by
  have hhead : (s.withRam b o mem).remcomInBuffer 0 = s.remcomInBuffer 0 :=
    (h.2 0 (Nat.zero_le n)).symm
  have hargs : hexArg (s.withRam b o mem).remcomInBuffer 1 = hexArg s.remcomInBuffer 1 :=
    (hexArg_shares h hn).1.symm
  rw [Stub.cmdContinuestep, Stub.cmdContinuestep, hargs]
  rw [Stub.withRam_remcomInBuffer] at hhead
  cases hexArg s.remcomInBuffer 1 with
  | none =>
      simp only [Stub.withRam_remcomInBuffer, hhead]
      split_ifs <;> exact echo_empty _ ⟨hmem, rfl⟩ hout ho
  | some r =>
      simp only [Stub.withRam_remcomInBuffer, hhead]
      split_ifs <;> exact echo_empty _ ⟨hmem.writeWord _ _, rfl⟩ hout ho

/-- The tables do not depend on the packet buffers. -/
theorem setHwBreakpoint_withRam (address : Word) :
    (s.withRam b o mem).setHwBreakpoint address =
      ((s.setHwBreakpoint address).1, (s.setHwBreakpoint address).2.withRam b o mem) := by
  change _ = (fun r : Bool × Stub => (r.1, r.2.withRam b o mem)) _
  simp only [Stub.setHwBreakpoint, Stub.withRam_cfg, Stub.withRam_bpwpEnabled,
    apply_ite (fun r : Bool × Stub => (r.1, r.2.withRam b o mem))]
  rfl

theorem disableHwBreakpoint_withRam (address : Word) :
    (s.withRam b o mem).disableHwBreakpoint address =
      ((s.disableHwBreakpoint address).1, (s.disableHwBreakpoint address).2.withRam b o mem) := by
  have hbreaks : (s.withRam b o mem).breaksAt = s.breaksAt := rfl
  simp only [Stub.disableHwBreakpoint, hbreaks]
  split_ifs <;> rfl

theorem setHwWatchpoint_withRam (address : Word) (mode : Byte) :
    (s.withRam b o mem).setHwWatchpoint address mode =
      ((s.setHwWatchpoint address mode).1, (s.setHwWatchpoint address mode).2.withRam b o mem) := by
  simp only [Stub.setHwWatchpoint, Stub.withRam_cfg, Stub.withRam_bpwpEnabled]
  split <;> rfl

theorem disableHwWatchpoint_withRam (address : Word) (mode : Byte) :
    (s.withRam b o mem).disableHwWatchpoint address mode =
      ((s.disableHwWatchpoint address mode).1,
        (s.disableHwWatchpoint address mode).2.withRam b o mem) := by
  have hwatches : (s.withRam b o mem).watches = s.watches := rfl
  simp only [Stub.disableHwWatchpoint, hwatches]
  split <;> rfl

/-- The tables are changed without memory. -/
theorem setHwBreakpoint_fixed (address : Word) :
    (s.setHwBreakpoint address).2.fixed = s.fixed ∧
      (s.setHwBreakpoint address).2.mem = s.mem := by
  simp only [Stub.setHwBreakpoint]
  split_ifs <;> exact ⟨rfl, rfl⟩

theorem disableHwBreakpoint_fixed (address : Word) :
    (s.disableHwBreakpoint address).2.fixed = s.fixed ∧
      (s.disableHwBreakpoint address).2.mem = s.mem := by
  simp only [Stub.disableHwBreakpoint]
  split_ifs <;> exact ⟨rfl, rfl⟩

theorem setHwWatchpoint_fixed (address : Word) (mode : Byte) :
    (s.setHwWatchpoint address mode).2.fixed = s.fixed ∧
      (s.setHwWatchpoint address mode).2.mem = s.mem := by
  simp only [Stub.setHwWatchpoint]
  split <;> exact ⟨rfl, rfl⟩

theorem disableHwWatchpoint_fixed (address : Word) (mode : Byte) :
    (s.disableHwWatchpoint address mode).2.fixed = s.fixed ∧
      (s.disableHwWatchpoint address mode).2.mem = s.mem := by
  simp only [Stub.disableHwWatchpoint]
  split <;> exact ⟨rfl, rfl⟩

/-- Breakpoints are set and removed alike. -/
theorem echo_break (h : Shares n s.remcomInBuffer b) (hn : 2 ≤ n) (hmem : SameOutside s.mem mem)
    (hout : s.remcomOutBuffer 0 = 0)
    (ho : o 0 = 0) : Echo (s.cmdBreak, .reply) ((s.withRam b o mem).cmdBreak, .reply) := by
  have hfinish : ∀ r : Bool × Stub, r.2.mem = s.mem →
      Echo (r.2.reply (if r.1 then "OK" else "E28"), .reply)
        ((r.2.withRam b o mem).reply (if r.1 then "OK" else "E28"), .reply) :=
    fun r hr => echo_reply _ _ (same_withRam (by rwa [hr]) b o)
  have hargs : breakArgs b = breakArgs s.remcomInBuffer := (breakArgs_shares h hn).symm
  have hcell : ∀ i ≤ 2, b i = s.remcomInBuffer i := fun i hi => (h.2 i (by omega)).symm
  simp only [Stub.cmdBreak, Stub.withRam_remcomInBuffer, hargs, hcell 0 (by decide),
    hcell 1 (by decide), setHwBreakpoint_withRam, disableHwBreakpoint_withRam,
    setHwWatchpoint_withRam, disableHwWatchpoint_withRam]
  cases breakArgs s.remcomInBuffer with
  | none => exact echo_reply _ _ (same_withRam hmem b o)
  | some addr =>
      by_cases hbp : s.remcomInBuffer 1 = ascii '1'
      · simp only [hbp, if_true]
        by_cases hinsert : s.remcomInBuffer 0 = ascii 'Z'
        · simp only [hinsert, if_true]
          exact hfinish _ (setHwBreakpoint_fixed addr).2
        · simp only [hinsert, if_false]
          exact hfinish _ (disableHwBreakpoint_fixed addr).2
      simp only [hbp, if_false]
      cases watchMode (s.remcomInBuffer 1) with
      | none => exact echo_empty _ (same_withRam hmem b o) hout ho
      | some mode =>
          by_cases hinsert : s.remcomInBuffer 0 = ascii 'Z'
          · simp only [hinsert, if_true]
            exact hfinish _ (setHwWatchpoint_fixed addr mode).2
          · simp only [hinsert, if_false]
            exact hfinish _ (disableHwWatchpoint_fixed addr mode).2

/-- Queries are answered alike. -/
theorem echo_query (h : Shares n s.remcomInBuffer b) (hn : 1 ≤ n) (hmem : SameOutside s.mem mem)
    (hout : s.remcomOutBuffer 0 = 0)
    (ho : o 0 = 0) : Echo (s.cmdQuery, .reply) ((s.withRam b o mem).cmdQuery, .reply) := by
  have hcompare : (List.range 9).map (fun i => s.remcomInBuffer (i + 1)) = text "Supported" ↔
      (List.range 9).map (fun i => b (i + 1)) = text "Supported" :=
    compare_shares h hn (show 0 ∉ text "Supported" by decide)
  rw [Stub.cmdQuery, Stub.cmdQuery, Stub.withRam_remcomInBuffer]
  by_cases hsupported : (List.range 9).map (fun i => b (i + 1)) = text "Supported"
  · rw [if_pos hsupported, if_pos (hcompare.2 hsupported)]
    exact echo_reply _ _ (same_withRam hmem b o)
  · rw [if_neg hsupported, if_neg (mt hcompare.1 hsupported)]
    exact echo_empty _ (same_withRam hmem b o) hout ho

/-- A packet has the same effect over different old content if the command copies the same bytes and
leaves the stub's own RAM alone. -/
theorem echo_execute (h : Shares n s.remcomInBuffer b) (hn : 2 ≤ n)
    (hout : s.remcomOutBuffer 0 = 0) (ho : o 0 = 0) (hcopied : copied s.remcomInBuffer = copied b)
    (hframe : s.registers = debugFrame) (hmem : SameOutside s.mem mem)
    (houtside : Outside s.remcomInBuffer) :
    Echo s.execute (s.withRam b o mem).execute := by
  have hn1 : 1 ≤ n := Nat.le_of_succ_le hn
  have hhead : b 0 = s.remcomInBuffer 0 := (h.2 0 (Nat.zero_le n)).symm
  have hwrite := writeArgs_shares h hn1
  have hset := setArgs_shares h hn1
  rw [Stub.execute, Stub.execute, Stub.withRam_remcomInBuffer, hhead]
  generalize hc : s.remcomInBuffer 0 = c
  rw [hc] at hhead
  by_cases h1 : c = ascii '?'
  · rw [if_pos h1, if_pos h1]
    exact echo_status hframe hmem
  rw [if_neg h1, if_neg h1]
  by_cases h2 : c = ascii 'g'
  · rw [if_pos h2, if_pos h2]
    refine echo_digits _ hmem (hmem.load_eq ?_ (by decide))
    rw [hframe]
    exact fun _ ha => frame_outside ha
  rw [if_neg h2, if_neg h2]
  by_cases h3 : c = ascii 'G'
  · subst h3
    rw [if_pos rfl, if_pos rfl, setregs_store, setregs_store]
    rw [copied_setregs hc, copied_setregs hhead] at hcopied
    exact echo_store hmem hcopied _
  rw [if_neg h3, if_neg h3]
  by_cases h4 : c = ascii 'm'
  · rw [if_pos h4, if_pos h4]
    exact echo_memRead h hn1 (hc.trans h4) hmem houtside
  rw [if_neg h4, if_neg h4]
  by_cases h5 : c = ascii 'M'
  · subst h5
    rw [if_pos rfl, if_pos rfl]
    rw [copied_memWrite hc, copied_memWrite hhead, hwrite] at hcopied
    refine echo_memWrite false h hn1 hmem fun addr length ptr hargs => ?_
    rw [hargs] at hcopied
    exact hcopied
  rw [if_neg h5, if_neg h5]
  by_cases h6 : c = ascii 'X'
  · subst h6
    rw [if_pos rfl, if_pos rfl]
    rw [copied_memWriteBinary hc, copied_memWriteBinary hhead, hwrite] at hcopied
    refine echo_memWrite true h hn1 hmem fun addr length ptr hargs => ?_
    rw [hargs] at hcopied
    exact hcopied
  rw [if_neg h6, if_neg h6]
  by_cases h7 : c = ascii 'p'
  · rw [if_pos h7, if_pos h7]
    exact echo_regGet h hn1 (hc.trans h7) hframe hmem houtside
  rw [if_neg h7, if_neg h7]
  by_cases h8 : c = ascii 'P'
  · subst h8
    rw [if_pos rfl, if_pos rfl]
    rw [copied_regSet hc, copied_regSet hhead, hset] at hcopied
    refine echo_regSet h hn1 hmem fun reg ptr hargs => ?_
    rw [hargs] at hcopied
    exact hcopied
  rw [if_neg h8, if_neg h8]
  by_cases h9 : c = ascii 'D' ∨ c = ascii 'k'
  · rw [if_pos h9, if_pos h9]
    exact echo_detachkill h _ hmem hout ho
  rw [if_neg h9, if_neg h9]
  by_cases h10 : c = ascii 'c' ∨ c = ascii 's'
  · rw [if_pos h10, if_pos h10]
    exact echo_continuestep h hn1 _ hmem hout ho
  rw [if_neg h10, if_neg h10]
  by_cases h11 : c = ascii 'z' ∨ c = ascii 'Z'
  · rw [if_pos h11, if_pos h11]
    exact echo_break h hn hmem hout ho
  rw [if_neg h11, if_neg h11]
  by_cases h12 : c = ascii 'q'
  · rw [if_pos h12, if_pos h12]
    exact echo_query h hn1 hmem hout ho
  rw [if_neg h12, if_neg h12]
  exact echo_empty _ (same_withRam hmem b o) hout ho

end Commands

end Soc.Gdbstub
