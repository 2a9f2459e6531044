import Soc.Monitor.Transfers

/-!
# Halfwords and words through the mailbox

The four routines that assemble a value on the stack, byte by byte, or send it from there. The least
significant byte goes over first. `jtag_get_halfword` loads a byte of what it has assembled, so it
returns the upper half of the value.
-/

namespace Soc.Monitor

open Lm32 (Cpu Reg Instr SP RA_REG loadWord wordBytes)
open Library.Region (Covers store)

/-- `sp` between the commands: a word below the frame of `save_all`. -/
def top : Word := 0x10000768

/-- The address is on the stack of the monitor: the return address of `handle_exception` and the
frames of the routines below it. -/
def OnStack (a : Word) : Prop := Covers 0x10000764 12 a

instance : DecidablePred OnStack := fun a => inferInstanceAs (Decidable (Covers _ 12 a))

/-- A piece of a routine ends at a label: r1, r2 and `ra` are its own. -/
structure Reaches (k : Nat) (s f : State) : Prop where
  pc : f.cpu.pc = label k
  regs : ∀ r, r ≠ 1 → r ≠ 2 → r ≠ RA_REG → f.cpu.regs r = s.cpu.regs r

/-- A routine returns: r1 and r2 are its own, and so is the stack. -/
structure Returned (j : Nat) (s f : State) : Prop where
  pc : f.cpu.pc = label j
  regs : ∀ r, r ≠ 1 → r ≠ 2 → f.cpu.regs r = s.cpu.regs r
  mem : ∀ a, ¬ OnStack a → f.cpu.mem a = s.cpu.mem a

/-- The state after a call. -/
def State.call (s : State) (k j : Nat) : State :=
  { s with
    cpu.pc := label j
    cpu.regs := Function.update s.cpu.regs RA_REG (label (k + 1)) }

section Pieces

variable {s f : State} {k j : Nat} {y : Reg} {d : BitVec 16} {a : Word} {b : Byte}
  {rest : List Word}

/-- `calli`. -/
theorem Runs.call (hpc : s.cpu.pc = label k) (hi : Monitor.instr k = some (calli j))
    (hk : k < size) : Runs s (s.call k j) := by
  refine Runs.instr hpc hi hk ?_
  rw [State.call, ← label_succ, ← hpc]
  rfl

/-- A call keeps the registers but `ra`. -/
theorem call_regs {r : Reg} (hr : r ≠ RA_REG) : (s.call k j).cpu.regs r = s.cpu.regs r :=
  Function.update_of_ne hr _ _

/-- The return address of a call. -/
theorem call_ra : (s.call k j).cpu.regs RA_REG = label (k + 1) :=
  Function.update_self RA_REG _ s.cpu.regs

/-- A routine that was called has returned. -/
theorem Returned.reaches (h : Returned (k + 1) (s.call k j) f) : Reaches (k + 1) s f :=
  ⟨h.pc, fun r h1 h2 hra => (h.regs r h1 h2).trans (call_regs hra)⟩

/-- A call of `jtag_get_byte`. -/
theorem callGetByte (hpc : s.cpu.pc = label k) (hi : Monitor.instr k = some (calli JTAG_GET_BYTE))
    (hk : k + 1 < size) (hzero : s.cpu.regs 0 = 0) (hexchange : Exchange [.get b] s.polls rest) :
    ∃ f, Runs s f ∧ Reaches (k + 1) s f ∧ f.cpu.regs 1 = b.setWidth 32 ∧
      f.cpu.mem = s.cpu.mem ∧ f.polls = rest ∧ f.sent = s.sent := by
  have hcall := Runs.call hpc hi (Nat.lt_of_succ_lt hk)
  obtain ⟨f, hruns, hend, h1, hkept, hpolls, hsent⟩ := getByte_spec
    (s := s.call k JTAG_GET_BYTE) rfl ((call_regs (by decide)).trans hzero) call_ra hk hexchange
  exact ⟨f, hcall.trans hruns,
    ⟨hend, fun r h1 h2 hra => (hkept.regs r h1 h2).trans (call_regs hra)⟩, h1, hkept.mem, hpolls,
    hsent⟩

/-- A call of `jtag_put_byte`. -/
theorem callPutByte (hpc : s.cpu.pc = label k) (hi : Monitor.instr k = some (calli JTAG_PUT_BYTE))
    (hk : k + 1 < size) (hzero : s.cpu.regs 0 = 0) (hexchange : Exchange [.put] s.polls rest) :
    ∃ f, Runs s f ∧ Reaches (k + 1) s f ∧ f.cpu.mem = s.cpu.mem ∧ f.polls = rest ∧
      f.sent = s.sent ++ [(s.cpu.regs 1).extractLsb' 0 8] := by
  have hcall := Runs.call hpc hi (Nat.lt_of_succ_lt hk)
  obtain ⟨f, hruns, hend, hkept, hpolls, hsent⟩ := putByte_spec
    (s := s.call k JTAG_PUT_BYTE) rfl ((call_regs (by decide)).trans hzero) call_ra hk hexchange
  refine ⟨f, hcall.trans hruns,
    ⟨hend, fun r h1 h2 hra => (hkept.regs r h1 h2).trans (call_regs hra)⟩, hkept.mem, hpolls, ?_⟩
  rw [hsent, call_regs (by decide)]
  rfl

/-- What an instruction leaves that only writes a register. -/
structure Sets (x : Reg) (value : Word) (s f : State) : Prop where
  value : f.cpu.regs x = value
  others : ∀ r, r ≠ x → f.cpu.regs r = s.cpu.regs r
  mem : f.cpu.mem = s.cpu.mem
  polls : f.polls = s.polls
  sent : f.sent = s.sent

/-- An instruction that only writes a register. -/
theorem Runs.sets {op : Op} {x : Reg} {value : Word} (hpc : s.cpu.pc = label k)
    (hi : Monitor.instr k = some op) (hk : k < size)
    (hexec : s.exec op = some { s with cpu := s.cpu.put x value }) :
    ∃ f, Runs s f ∧ f.cpu.pc = label (k + 1) ∧ Sets x value s f := by
  refine ⟨_, Runs.instr hpc hi hk hexec, ?_,
    ⟨Cpu.put_self .., fun r hr => Cpu.put_of_ne _ hr _, rfl, rfl, rfl⟩⟩
  rw [← label_succ, ← hpc]
  rfl

/-- `lbu`. -/
theorem exec_lbu {x : Reg} (ha : s.cpu.address y d = a) (hplain : Plain a 1) :
    s.exec (.lbu x y d) = some { s with cpu := s.cpu.put x ((s.cpu.mem a).setWidth 32) } := by
  rw [State.exec, ha, State.load, if_pos hplain]

/-- A byte or a halfword in a register. -/
theorem low_bits {w : Nat} (hw : w ≤ 32) (v : BitVec w) : (v.setWidth 32).extractLsb' 0 w = v := by
  apply BitVec.eq_of_getLsbD_eq
  intro i hi
  have hbit : i < 32 := Nat.lt_of_lt_of_le hi hw
  simp [hi, hbit]

/-- A byte is got and stored. -/
theorem takeByte (hpc : s.cpu.pc = label k) (hi : Monitor.instr k = some (calli JTAG_GET_BYTE))
    (hi' : Monitor.instr (k + 1) = some (.sb y d 1)) (hk : k + 1 < size)
    (hy : y ≠ 1 ∧ y ≠ 2 ∧ y ≠ RA_REG) (ha : s.cpu.address y d = a)
    (hplain : Plain a 1 ∧ ¬ InText a) (hzero : s.cpu.regs 0 = 0)
    (hexchange : Exchange [.get b] s.polls rest) :
    ∃ f, Runs s f ∧ Reaches (k + 2) s f ∧ f.cpu.mem = Function.update s.cpu.mem a b ∧
      f.polls = rest ∧ f.sent = s.sent := by
  obtain ⟨s', hruns, hreach, h1, hmem, hpolls, hsent⟩ := callGetByte hpc hi hk hzero hexchange
  have ha' : s'.cpu.address y d = a := by
    rw [← ha, Cpu.address, Cpu.address, hreach.regs y hy.1 hy.2.1 hy.2.2]
  have hbyte : (s'.cpu.regs 1).extractLsb' 0 8 = b := by rw [h1, low_bits (by decide)]
  have hexec : s'.exec (.sb y d 1) =
      some { s'.skip with cpu.mem := store s'.cpu.mem a [b] } := by
    rw [State.exec, ha', hbyte]
    exact if_pos hplain
  have hstore := Runs.instr hreach.pc hi' hk hexec
  refine ⟨_, hruns.trans hstore, ⟨?_, hreach.regs⟩, ?_, hpolls, hsent⟩
  · change s'.cpu.pc + 4 = _
    rw [hreach.pc, label_succ]
  · change store s'.cpu.mem a [b] = _
    rw [hmem]
    rfl

/-- A byte is loaded and put. -/
theorem giveByte (hpc : s.cpu.pc = label k) (hi : Monitor.instr k = some (.lbu 1 y d))
    (hi' : Monitor.instr (k + 1) = some (calli JTAG_PUT_BYTE)) (hk : k + 2 < size)
    (ha : s.cpu.address y d = a) (hplain : Plain a 1) (hzero : s.cpu.regs 0 = 0)
    (hexchange : Exchange [.put] s.polls rest) :
    ∃ f, Runs s f ∧ Reaches (k + 2) s f ∧ f.cpu.mem = s.cpu.mem ∧ f.polls = rest ∧
      f.sent = s.sent ++ [s.cpu.mem a] := by
  obtain ⟨s', hload, hpc', hsets⟩ := Runs.sets hpc hi (by omega) (exec_lbu ha hplain)
  obtain ⟨f, hruns, hreach, hmem, hpolls, hsent⟩ := callPutByte hpc' hi' hk
    ((hsets.others 0 (by decide)).trans hzero) (hsets.polls ▸ hexchange)
  refine ⟨f, hload.trans hruns,
    ⟨hreach.pc, fun r h1 h2 hra => (hreach.regs r h1 h2 hra).trans (hsets.others r h1)⟩,
    hmem.trans hsets.mem, hpolls, ?_⟩
  rw [hsent, hsets.value, hsets.sent, low_bits (by decide)]

end Pieces

section Accesses

variable {s : State} {k : Nat} {x y : Reg} {d : BitVec 16} {a : Word}

/-- A register of the mailbox is in the mailbox. -/
theorem Plain.ne {n : Nat} (h : Plain a n) : a ≠ rxData ∧ a ≠ rxAck ∧ a ≠ txData ∧ a ≠ txAck :=
  ⟨fun heq => h.2 (heq ▸ by decide), fun heq => h.2 (heq ▸ by decide),
    fun heq => h.2 (heq ▸ by decide), fun heq => h.2 (heq ▸ by decide)⟩

/-- `lw` from memory. -/
theorem exec_lw (ha : s.cpu.address y d = a) (hplain : Plain a 4) :
    s.exec (lw x y d) = some { s with cpu := s.cpu.put x (loadWord s.cpu.mem a) } := by
  change s.lw x y d = _
  simp only [State.lw, ha, State.load, hplain.ne, if_pos hplain, or_self, if_false]

/-- `sw` to memory. -/
theorem exec_sw (ha : s.cpu.address y d = a) (hplain : Plain a 4 ∧ ¬ InText a) :
    s.exec (sw y d x) =
      some { s.skip with cpu.mem := Lm32.storeWord s.cpu.mem a (s.cpu.regs x) } := by
  change s.sw y d x = _
  simp only [State.sw, ha, hplain.1.ne, if_false]
  exact if_pos hplain

end Accesses

section Frames

variable {s s' : State} {k j : Nat} {d : BitVec 16} {a : Word} {b : Byte} {rest : List Word}

/-- An address on the stack is another one. -/
theorem update_outside {mem : Word → Byte} {a c : Word} {b : Byte} (hc : ¬ OnStack c)
    (ha : OnStack a) : Function.update mem a b c = mem c :=
  Function.update_of_ne (fun heq : c = a => hc (heq ▸ ha)) b mem

/-- A list that is stored on the stack does not cover another address. -/
theorem store_outside {mem : Word → Byte} {a c : Word} {bytes : List Byte} (hc : ¬ OnStack c)
    (ha : (a - 0x10000764).toNat + bytes.length ≤ 12) : store mem a bytes c = mem c := by
  refine Library.Region.store_outside fun hcovers => hc ?_
  change (c - a).toNat < bytes.length at hcovers
  change (c - 0x10000764).toNat < 12
  bv_omega

/-- The word of the return address is apart from a byte that is stored. -/
theorem loadWord_update {mem : Word → Byte} {a c : Word} {b : Byte} (h : ¬ Covers a 4 c) :
    loadWord (Function.update mem c b) a = loadWord mem a := by
  have hne : ∀ i, i < 4 → a + .ofNat 32 i ≠ c := by
    rintro i hi rfl
    refine h ?_
    rw [Covers, BitVec.add_comm, BitVec.add_sub_cancel, BitVec.toNat_ofNat]
    omega
  have h0 : a ≠ c := by simpa using hne 0 (by decide)
  have h1 : a + 1 ≠ c := hne 1 (by decide)
  have h2 : a + 1 + 1 ≠ c := by simpa [BitVec.add_assoc] using hne 2 (by decide)
  have h3 : a + 1 + 1 + 1 ≠ c := by simpa [BitVec.add_assoc] using hne 3 (by decide)
  rw [loadWord, loadWord, Function.update_of_ne h0, Function.update_of_ne h1,
    Function.update_of_ne h2, Function.update_of_ne h3]

/-- In the frame of a routine that was entered in state `s` and returns to label `j`. -/
structure Inside (j : Nat) (s s' : State) : Prop where
  sp : s'.cpu.regs SP = 0x10000760
  ra : loadWord s'.cpu.mem 0x10000764 = label j
  regs : ∀ r, r ≠ 1 → r ≠ 2 → r ≠ SP → r ≠ RA_REG → s'.cpu.regs r = s.cpu.regs r
  mem : ∀ a, ¬ OnStack a → s'.cpu.mem a = s.cpu.mem a

/-- The address of a byte or word in the frame. -/
theorem Inside.address (h : Inside j s s') (ha : 0x10000760 + d.signExtend 32 = a) :
    s'.cpu.address SP d = a := by
  rw [Cpu.address, h.sp, ha]

/-- r0 stays 0. -/
theorem Inside.zero (h : Inside j s s') (hzero : s.cpu.regs 0 = 0) : s'.cpu.regs 0 = 0 :=
  (h.regs 0 (by decide) (by decide) (by decide) (by decide)).trans hzero

/-- A routine makes its frame. -/
theorem enter_spec (hpc : s.cpu.pc = label k) (hi : Monitor.instr k = some (addi SP SP (-8)))
    (hi' : Monitor.instr (k + 1) = some (sw SP 4 RA_REG)) (hk : k + 1 < size)
    (hsp : s.cpu.regs SP = top) (hra : s.cpu.regs RA_REG = label j) :
    ∃ f, Runs s f ∧ f.cpu.pc = label (k + 2) ∧ Inside j s f ∧ f.cpu.regs 1 = s.cpu.regs 1 ∧
      f.polls = s.polls ∧ f.sent = s.sent := by
  obtain ⟨s', hfirst, hpc', hsets⟩ := Runs.sets hpc hi (Nat.lt_of_succ_lt hk) rfl
  have hsp' : s'.cpu.regs SP = 0x10000760 := by
    rw [hsets.value, hsp]
    decide
  have haddress : s'.cpu.address SP 4 = 0x10000764 := by
    rw [Cpu.address, hsp']
    decide
  have hstore := Runs.instr hpc' hi' hk (exec_sw haddress (by decide))
  rw [hsets.others RA_REG (by decide), hra, hsets.mem] at hstore
  refine ⟨_, hfirst.trans hstore, ?_,
    ⟨hsp', Lm32.loadWord_storeWord_same, fun r _ _ hr _ => hsets.others r hr,
      fun a ha => store_outside ha (show 0 + 4 ≤ 12 by decide)⟩,
    hsets.others 1 (by decide), hsets.polls, hsets.sent⟩
  change s'.cpu.pc + 4 = _
  rw [hpc', label_succ]

/-- A byte is got and stored in the frame. -/
theorem Inside.take (h : Inside j s s') (hpc : s'.cpu.pc = label k)
    (hi : Monitor.instr k = some (calli JTAG_GET_BYTE))
    (hi' : Monitor.instr (k + 1) = some (.sb SP d 1)) (hk : k + 1 < size)
    (hzero : s.cpu.regs 0 = 0) (ha : 0x10000760 + d.signExtend 32 = a)
    (hplace : (Plain a 1 ∧ ¬ InText a) ∧ ¬ Covers 0x10000764 4 a ∧ OnStack a)
    (hexchange : Exchange [.get b] s'.polls rest) :
    ∃ f, Runs s' f ∧ f.cpu.pc = label (k + 2) ∧ Inside j s f ∧
      f.cpu.mem = Function.update s'.cpu.mem a b ∧ f.polls = rest ∧ f.sent = s'.sent := by
  obtain ⟨f, hruns, hreach, hmem, hpolls, hsent⟩ := takeByte hpc hi hi' hk (by decide)
    (h.address ha) hplace.1 (h.zero hzero) hexchange
  refine ⟨f, hruns, hreach.pc, ⟨?_, ?_, fun r h1 h2 hsp hra => ?_, fun c hc => ?_⟩, hmem, hpolls,
    hsent⟩
  · rw [hreach.regs SP (by decide) (by decide) (by decide), h.sp]
  · rw [hmem, loadWord_update hplace.2.1, h.ra]
  · rw [hreach.regs r h1 h2 hra, h.regs r h1 h2 hsp hra]
  · rw [hmem, update_outside hc hplace.2.2, h.mem c hc]

/-- A byte of the frame is put. -/
theorem Inside.give (h : Inside j s s') (hpc : s'.cpu.pc = label k)
    (hi : Monitor.instr k = some (.lbu 1 SP d))
    (hi' : Monitor.instr (k + 1) = some (calli JTAG_PUT_BYTE)) (hk : k + 2 < size)
    (hzero : s.cpu.regs 0 = 0) (ha : 0x10000760 + d.signExtend 32 = a) (hplain : Plain a 1)
    (hexchange : Exchange [.put] s'.polls rest) :
    ∃ f, Runs s' f ∧ f.cpu.pc = label (k + 2) ∧ Inside j s f ∧ f.cpu.mem = s'.cpu.mem ∧
      f.polls = rest ∧ f.sent = s'.sent ++ [s'.cpu.mem a] := by
  obtain ⟨f, hruns, hreach, hmem, hpolls, hsent⟩ :=
    giveByte hpc hi hi' hk (h.address ha) hplain (h.zero hzero) hexchange
  refine ⟨f, hruns, hreach.pc, ⟨?_, ?_, fun r h1 h2 hsp hra => ?_, fun c hc => ?_⟩, hmem, hpolls,
    hsent⟩
  · rw [hreach.regs SP (by decide) (by decide) (by decide), h.sp]
  · rw [hmem, h.ra]
  · rw [hreach.regs r h1 h2 hra, h.regs r h1 h2 hsp hra]
  · rw [hmem, h.mem c hc]

/-- A value is stored in the frame. -/
theorem Inside.stores {op : Op} {bytes : List Byte} (h : Inside j s s')
    (hpc : s'.cpu.pc = label k) (hi : Monitor.instr k = some op) (hk : k < size)
    (hexec : s'.exec op = some { s'.skip with cpu.mem := store s'.cpu.mem 0x10000768 bytes })
    (hlength : bytes.length ≤ 4) :
    ∃ f, Runs s' f ∧ f.cpu.pc = label (k + 1) ∧ Inside j s f ∧
      f.cpu.mem = store s'.cpu.mem 0x10000768 bytes ∧ f.polls = s'.polls ∧ f.sent = s'.sent := by
  have hplace : (0x10000768 - 0x10000764 : Word).toNat = 4 := by decide
  have hother : ∀ c : Word, (c - 0x10000764).toNat < 4 →
      store s'.cpu.mem 0x10000768 bytes c = s'.cpu.mem c := by
    intro c hc
    refine Library.Region.store_outside fun hcovers => ?_
    change (c - 0x10000768).toNat < bytes.length at hcovers
    bv_omega
  refine ⟨_, Runs.instr hpc hi hk hexec, ?_, ⟨h.sp, ?_, h.regs, fun c hc => ?_⟩, rfl, rfl, rfl⟩
  · change s'.cpu.pc + 4 = _
    rw [hpc, label_succ]
  · rw [← h.ra]
    change loadWord (store s'.cpu.mem 0x10000768 bytes) 0x10000764 = _
    rw [loadWord, loadWord, hother _ (by decide), hother _ (by decide), hother _ (by decide),
      hother _ (by decide)]
  · rw [← h.mem c hc]
    exact store_outside hc (by omega)

/-- A value is loaded from the frame. -/
theorem Inside.sets {value : Word} {f : State} (h : Inside j s s') (hsets : Sets 1 value s' f) :
    Inside j s f :=
  ⟨(hsets.others SP (by decide)).trans h.sp, hsets.mem ▸ h.ra,
    fun r h1 h2 hsp hra => (hsets.others r h1).trans (h.regs r h1 h2 hsp hra),
    fun a ha => hsets.mem ▸ h.mem a ha⟩

/-- A routine leaves its frame and returns. -/
theorem Inside.leave (h : Inside j s s') (hpc : s'.cpu.pc = label k)
    (hi : Monitor.instr k = some (lw RA_REG SP 4))
    (hi' : Monitor.instr (k + 1) = some (addi SP SP 8)) (hi'' : Monitor.instr (k + 2) = some ret)
    (hk : k + 2 < size) (hsp : s.cpu.regs SP = top) (hra : s.cpu.regs RA_REG = label j)
    (hj : j < size) :
    ∃ f, Runs s' f ∧ Returned j s f ∧ f.cpu.regs 1 = s'.cpu.regs 1 ∧ f.polls = s'.polls ∧
      f.sent = s'.sent := by
  obtain ⟨s1, hruns1, hpc1, hsets1⟩ :=
    Runs.sets hpc hi (by omega) (exec_lw (h.address rfl) (by decide))
  obtain ⟨s2, hruns2, hpc2, hsets2⟩ := Runs.sets hpc1 hi' (by omega) rfl
  have hra2 : s2.cpu.regs RA_REG = label j := by
    rw [hsets2.others RA_REG (by decide), hsets1.value]
    exact h.ra
  have hsp2 : s2.cpu.regs SP = top := by
    rw [hsets2.value, hsets1.others SP (by decide), h.sp]
    decide
  refine ⟨_, (hruns1.trans hruns2).trans (Runs.ret hpc2 hi'' hk hra2 hj),
    ⟨rfl, fun r h1 h2 => ?_, fun a ha => ?_⟩, ?_, hsets2.polls.trans hsets1.polls,
    hsets2.sent.trans hsets1.sent⟩
  · rw [State.goto_regs]
    by_cases hrsp : r = SP
    · rw [hrsp, hsp2, hsp]
    by_cases hrra : r = RA_REG
    · rw [hrra, hra2, hra]
    rw [hsets2.others r hrsp, hsets1.others r hrra, h.regs r h1 h2 hrsp hrra]
  · rw [State.goto_mem, hsets2.mem, hsets1.mem, h.mem a ha]
  · rw [State.goto_regs, hsets2.others 1 (by decide), hsets1.others 1 (by decide)]

end Frames

section Routines

variable {s : State} {j : Nat} {rest : List Word} {b0 b1 b2 b3 : Byte}

/-- Transfers one after the other. -/
theorem exchange_cons {t : Transfer} {ts : List Transfer} {polls : List Word}
    (h : Exchange (t :: ts) polls rest) :
    ∃ mid, Exchange [t] polls mid ∧ Exchange ts mid rest :=
  exchange_append.1 (show Exchange ([t] ++ ts) polls rest from h)

/-- `jtag_get_halfword` returns the byte that is sent last. -/
theorem getHalfword_spec (hpc : s.cpu.pc = label JTAG_GET_HALFWORD) (hzero : s.cpu.regs 0 = 0)
    (hsp : s.cpu.regs SP = top) (hra : s.cpu.regs RA_REG = label j) (hj : j < size)
    (hexchange : Exchange [.get b0, .get b1] s.polls rest) :
    ∃ f, Runs s f ∧ Returned j s f ∧ f.cpu.regs 1 = b1.setWidth 32 ∧ f.polls = rest ∧
      f.sent = s.sent := by
  obtain ⟨mid, hfirst, hsecond⟩ := exchange_cons hexchange
  obtain ⟨s1, hruns1, hpc1, h1, -, hpolls1, hsent1⟩ := enter_spec hpc rfl rfl (by decide) hsp hra
  obtain ⟨s2, hruns2, hpc2, h2, hmem2, hpolls2, hsent2⟩ :=
    h1.take (a := 0x10000769) hpc1 rfl rfl (by decide) hzero (by decide) (by decide)
      (hpolls1 ▸ hfirst)
  obtain ⟨s3, hruns3, hpc3, h3, hmem3, hpolls3, hsent3⟩ :=
    h2.take (a := 0x10000768) hpc2 rfl rfl (by decide) hzero (by decide) (by decide)
      (hpolls2 ▸ hsecond)
  obtain ⟨s4, hruns4, hpc4, hsets⟩ := Runs.sets hpc3 rfl (by decide)
    (exec_lbu (a := 0x10000768) (h3.address (by decide)) (by decide))
  obtain ⟨f, hruns5, hreturned, hvalue, hpolls5, hsent5⟩ :=
    (h3.sets hsets).leave hpc4 rfl rfl rfl (by decide) hsp hra hj
  refine ⟨f, (((hruns1.trans hruns2).trans hruns3).trans hruns4).trans hruns5, hreturned, ?_, ?_,
    ?_⟩
  · rw [hvalue, hsets.value, hmem3, Function.update_self]
  · rw [hpolls5, hsets.polls, hpolls3]
  · rw [hsent5, hsets.sent, hsent3, hsent2, hsent1]

/-- `jtag_get_word` returns the word that is sent. -/
theorem getWord_spec (hpc : s.cpu.pc = label JTAG_GET_WORD) (hzero : s.cpu.regs 0 = 0)
    (hsp : s.cpu.regs SP = top) (hra : s.cpu.regs RA_REG = label j) (hj : j < size)
    (hexchange : Exchange [.get b0, .get b1, .get b2, .get b3] s.polls rest) :
    ∃ f, Runs s f ∧ Returned j s f ∧ f.cpu.regs 1 = b3 ++ b2 ++ b1 ++ b0 ∧ f.polls = rest ∧
      f.sent = s.sent := by
  obtain ⟨mid1, hget0, hexchange⟩ := exchange_cons hexchange
  obtain ⟨mid2, hget1, hexchange⟩ := exchange_cons hexchange
  obtain ⟨mid3, hget2, hget3⟩ := exchange_cons hexchange
  obtain ⟨s1, hruns1, hpc1, h1, -, hpolls1, hsent1⟩ := enter_spec hpc rfl rfl (by decide) hsp hra
  obtain ⟨s2, hruns2, hpc2, h2, hmem2, hpolls2, hsent2⟩ :=
    h1.take (a := 0x1000076b) hpc1 rfl rfl (by decide) hzero (by decide) (by decide)
      (hpolls1 ▸ hget0)
  obtain ⟨s3, hruns3, hpc3, h3, hmem3, hpolls3, hsent3⟩ :=
    h2.take (a := 0x1000076a) hpc2 rfl rfl (by decide) hzero (by decide) (by decide)
      (hpolls2 ▸ hget1)
  obtain ⟨s4, hruns4, hpc4, h4, hmem4, hpolls4, hsent4⟩ :=
    h3.take (a := 0x10000769) hpc3 rfl rfl (by decide) hzero (by decide) (by decide)
      (hpolls3 ▸ hget2)
  obtain ⟨s5, hruns5, hpc5, h5, hmem5, hpolls5, hsent5⟩ :=
    h4.take (a := 0x10000768) hpc4 rfl rfl (by decide) hzero (by decide) (by decide)
      (hpolls4 ▸ hget3)
  obtain ⟨s6, hruns6, hpc6, hsets⟩ := Runs.sets hpc5 rfl (by decide)
    (exec_lw (a := 0x10000768) (h5.address (by decide)) (by decide))
  obtain ⟨f, hruns7, hreturned, hvalue, hpolls7, hsent7⟩ :=
    (h5.sets hsets).leave hpc6 rfl rfl rfl (by decide) hsp hra hj
  have hgets := ((hruns1.trans hruns2).trans hruns3).trans (hruns4.trans hruns5)
  refine ⟨f, (hgets.trans hruns6).trans hruns7, hreturned, ?_, ?_, ?_⟩
  · rw [hvalue, hsets.value, hmem5, hmem4, hmem3, hmem2]
    rfl
  · rw [hpolls7, hsets.polls, hpolls5]
  · rw [hsent7, hsets.sent, hsent5, hsent4, hsent3, hsent2, hsent1]

/-- `jtag_put_halfword` sends the low halfword of r1. -/
theorem putHalfword_spec (hpc : s.cpu.pc = label JTAG_PUT_HALFWORD) (hzero : s.cpu.regs 0 = 0)
    (hsp : s.cpu.regs SP = top) (hra : s.cpu.regs RA_REG = label j) (hj : j < size)
    (hexchange : Exchange [.put, .put] s.polls rest) :
    ∃ f, Runs s f ∧ Returned j s f ∧ f.polls = rest ∧
      f.sent = s.sent ++ (halfwordBytes ((s.cpu.regs 1).extractLsb' 0 16)).reverse := by
  obtain ⟨mid, hput0, hput1⟩ := exchange_cons hexchange
  obtain ⟨s1, hruns1, hpc1, h1, hvalue, hpolls1, hsent1⟩ :=
    enter_spec hpc rfl rfl (by decide) hsp hra
  have hstore : s1.exec (.sh SP 8 1) = some { s1.skip with
      cpu.mem := store s1.cpu.mem 0x10000768
        (halfwordBytes ((s.cpu.regs 1).extractLsb' 0 16)) } := by
    rw [State.exec, h1.address (a := 0x10000768) (by decide), hvalue]
    exact if_pos (show Plain 0x10000768 2 ∧ ¬ InText 0x10000768 by decide)
  obtain ⟨s2, hruns2, hpc2, h2, hmem2, hpolls2, hsent2⟩ :=
    h1.stores hpc1 rfl (by decide) hstore (show 2 ≤ 4 by decide)
  obtain ⟨s3, hruns3, hpc3, h3, hmem3, hpolls3, hsent3⟩ :=
    h2.give (a := 0x10000769) hpc2 rfl rfl (by decide) hzero (by decide) (by decide)
      ((hpolls2.trans hpolls1) ▸ hput0)
  obtain ⟨s4, hruns4, hpc4, h4, hmem4, hpolls4, hsent4⟩ :=
    h3.give (a := 0x10000768) hpc3 rfl rfl (by decide) hzero (by decide) (by decide)
      (hpolls3 ▸ hput1)
  obtain ⟨f, hruns5, hreturned, -, hpolls5, hsent5⟩ :=
    h4.leave hpc4 rfl rfl rfl (by decide) hsp hra hj
  refine ⟨f, (((hruns1.trans hruns2).trans hruns3).trans hruns4).trans hruns5, hreturned,
    hpolls5.trans hpolls4, ?_⟩
  rw [hsent5, hsent4, hsent3, hsent2, hsent1, hmem3, hmem2, List.append_assoc]
  rfl

/-- `jtag_put_word` sends r1. -/
theorem putWord_spec (hpc : s.cpu.pc = label JTAG_PUT_WORD) (hzero : s.cpu.regs 0 = 0)
    (hsp : s.cpu.regs SP = top) (hra : s.cpu.regs RA_REG = label j) (hj : j < size)
    (hexchange : Exchange [.put, .put, .put, .put] s.polls rest) :
    ∃ f, Runs s f ∧ Returned j s f ∧ f.polls = rest ∧
      f.sent = s.sent ++ (wordBytes (s.cpu.regs 1)).reverse := by
  obtain ⟨mid1, hput0, hexchange⟩ := exchange_cons hexchange
  obtain ⟨mid2, hput1, hexchange⟩ := exchange_cons hexchange
  obtain ⟨mid3, hput2, hput3⟩ := exchange_cons hexchange
  obtain ⟨s1, hruns1, hpc1, h1, hvalue, hpolls1, hsent1⟩ :=
    enter_spec hpc rfl rfl (by decide) hsp hra
  have hstore := exec_sw (s := s1) (x := 1) (h1.address (d := 8) (a := 0x10000768) (by decide))
    (by decide)
  rw [hvalue] at hstore
  obtain ⟨s2, hruns2, hpc2, h2, hmem2, hpolls2, hsent2⟩ :=
    h1.stores hpc1 rfl (by decide) hstore (show 4 ≤ 4 by decide)
  obtain ⟨s3, hruns3, hpc3, h3, hmem3, hpolls3, hsent3⟩ :=
    h2.give (a := 0x1000076b) hpc2 rfl rfl (by decide) hzero (by decide) (by decide)
      ((hpolls2.trans hpolls1) ▸ hput0)
  obtain ⟨s4, hruns4, hpc4, h4, hmem4, hpolls4, hsent4⟩ :=
    h3.give (a := 0x1000076a) hpc3 rfl rfl (by decide) hzero (by decide) (by decide)
      (hpolls3 ▸ hput1)
  obtain ⟨s5, hruns5, hpc5, h5, hmem5, hpolls5, hsent5⟩ :=
    h4.give (a := 0x10000769) hpc4 rfl rfl (by decide) hzero (by decide) (by decide)
      (hpolls4 ▸ hput2)
  obtain ⟨s6, hruns6, hpc6, h6, hmem6, hpolls6, hsent6⟩ :=
    h5.give (a := 0x10000768) hpc5 rfl rfl (by decide) hzero (by decide) (by decide)
      (hpolls5 ▸ hput3)
  obtain ⟨f, hruns7, hreturned, -, hpolls7, hsent7⟩ :=
    h6.leave hpc6 rfl rfl rfl (by decide) hsp hra hj
  have hputs := (hruns3.trans hruns4).trans (hruns5.trans hruns6)
  refine ⟨f, (hruns1.trans hruns2).trans (hputs.trans hruns7), hreturned, hpolls7.trans hpolls6, ?_⟩
  rw [hsent7, hsent6, hsent5, hsent4, hsent3, hsent2, hsent1, hmem5, hmem4, hmem3, hmem2,
    List.append_assoc, List.append_assoc, List.append_assoc]
  rfl

end Routines

end Soc.Monitor
