import Soc.Monitor.Program

/-!
# Bytes through the mailbox

What `jtag_get_byte` and `jtag_put_byte` do with the polls the host lets them have. A byte goes over
in a handshake: the register that is polled is waited for to be 0, and then to be something else.
-/

namespace Soc.Monitor

open Lm32 (Cpu Reg Instr SP RA_REG loadWord)
open Library.Region (Covers store)

/-- A transfer of a byte: the monitor gets it, or puts one of its own. -/
inductive Transfer where
  | get (b : Byte)
  | put

/-- The poll that ends a transfer: a byte that is got comes with it. -/
def Transfer.Ends (value : Word) : Transfer → Prop
  | .get b => value.extractLsb' 0 8 = b
  | .put => True

/-- The polls of one handshake, up to `value`. -/
def Handshake (value : Word) (polls : List Word) : Prop :=
  value ≠ 0 ∧ ∃ busy idle, (∀ v ∈ busy, v ≠ 0) ∧ (∀ v ∈ idle, v = 0) ∧
    polls = busy ++ 0 :: (idle ++ [value])

/-- The polls from `polls` up to `rest` are those of transfers in a row. -/
def Exchange : List Transfer → List Word → List Word → Prop
  | [], polls, rest => polls = rest
  | t :: ts, polls, rest =>
      ∃ value first polls', Handshake value first ∧ t.Ends value ∧ polls = first ++ polls' ∧
        Exchange ts polls' rest

/-- Transfers behind each other. -/
theorem exchange_append {ts us : List Transfer} {polls rest : List Word} :
    Exchange (ts ++ us) polls rest ↔ ∃ mid, Exchange ts polls mid ∧ Exchange us mid rest := by
  induction ts generalizing polls with
  | nil => exact ⟨fun h => ⟨polls, rfl, h⟩, fun ⟨mid, heq, h⟩ => heq ▸ h⟩
  | cons t ts ih =>
      constructor
      · rintro ⟨value, first, polls', hshake, hends, hpolls, hrest⟩
        obtain ⟨mid, hleft, hright⟩ := ih.1 hrest
        exact ⟨mid, ⟨value, first, polls', hshake, hends, hpolls, hleft⟩, hright⟩
      · rintro ⟨mid, ⟨value, first, polls', hshake, hends, hpolls, hleft⟩, hright⟩
        exact ⟨value, first, polls', hshake, hends, hpolls, ih.2 ⟨mid, hleft, hright⟩⟩

/-- What a transfer of a byte leaves: r1 and r2 are its own. -/
structure Kept (s f : State) : Prop where
  regs : ∀ r, r ≠ 1 → r ≠ 2 → f.cpu.regs r = s.cpu.regs r
  mem : f.cpu.mem = s.cpu.mem

theorem Kept.trans {s s' f : State} (h : Kept s s') (h' : Kept s' f) : Kept s f :=
  ⟨fun r h1 h2 => (h'.regs r h1 h2).trans (h.regs r h1 h2), h'.mem.trans h.mem⟩

/-- The state at another label. -/
def State.goto (s : State) (k : Nat) : State := { s with cpu.pc := label k }

section Goto

variable (s : State) (k : Nat)

@[simp] theorem State.goto_regs : (s.goto k).cpu.regs = s.cpu.regs := rfl

@[simp] theorem State.goto_mem : (s.goto k).cpu.mem = s.cpu.mem := rfl

@[simp] theorem State.goto_polls : (s.goto k).polls = s.polls := rfl

@[simp] theorem State.goto_sent : (s.goto k).sent = s.sent := rfl

theorem Kept.goto : Kept s (s.goto k) := ⟨fun _ _ _ => rfl, rfl⟩

end Goto

section Jumps

variable {s : State} {k j : Nat} {x y : Reg}

/-- `bi`. -/
theorem Runs.bi (hpc : s.cpu.pc = label k) (hi : Monitor.instr k = some (bi j)) (hk : k < size) :
    Runs s (s.goto j) :=
  Runs.instr hpc hi hk rfl

/-- `ret`. -/
theorem Runs.ret (hpc : s.cpu.pc = label k) (hi : Monitor.instr k = some ret) (hk : k < size)
    (hra : s.cpu.regs RA_REG = label j) (hj : j < size) : Runs s (s.goto j) := by
  refine Runs.instr hpc hi hk ?_
  change some { s with cpu := (Instr.b RA_REG).exec s.cpu } = _
  simp only [Instr.exec, hra, label_aligned j hj]
  rfl

/-- `be`, taken. -/
theorem Runs.be (hpc : s.cpu.pc = label k) (hi : Monitor.instr k = some (.be x y (label j)))
    (hk : k < size) (heq : s.cpu.regs x = s.cpu.regs y) : Runs s (s.goto j) := by
  refine Runs.instr hpc hi hk ?_
  rw [State.exec, State.branch, if_pos heq]
  rfl

/-- `be`, not taken. -/
theorem Runs.be_next (hpc : s.cpu.pc = label k) (hi : Monitor.instr k = some (.be x y (label j)))
    (hk : k < size) (hne : s.cpu.regs x ≠ s.cpu.regs y) : Runs s (s.goto (k + 1)) := by
  refine Runs.instr hpc hi hk ?_
  rw [State.exec, State.branch, if_neg hne, State.skip, State.goto, hpc, label_succ]

/-- `bne`, taken. -/
theorem Runs.bne (hpc : s.cpu.pc = label k) (hi : Monitor.instr k = some (.bne x y (label j)))
    (hk : k < size) (hne : s.cpu.regs x ≠ s.cpu.regs y) : Runs s (s.goto j) := by
  refine Runs.instr hpc hi hk ?_
  rw [State.exec, State.branch, if_pos hne]
  rfl

/-- `bne`, not taken. -/
theorem Runs.bne_next (hpc : s.cpu.pc = label k) (hi : Monitor.instr k = some (.bne x y (label j)))
    (hk : k < size) (heq : s.cpu.regs x = s.cpu.regs y) : Runs s (s.goto (k + 1)) := by
  refine Runs.instr hpc hi hk ?_
  rw [State.exec, State.branch, if_neg (not_not.2 heq), State.skip, State.goto, hpc, label_succ]

/-- `bg`, not taken. -/
theorem Runs.bg_next (hpc : s.cpu.pc = label k) (hi : Monitor.instr k = some (.bg x y (label j)))
    (hk : k < size) (hle : ¬ (s.cpu.regs y).toInt < (s.cpu.regs x).toInt) :
    Runs s (s.goto (k + 1)) := by
  refine Runs.instr hpc hi hk ?_
  rw [State.exec, State.branch, if_neg hle, State.skip, State.goto, hpc, label_succ]

/-- A write to `rx_ack`. -/
theorem Runs.ack {offset : BitVec 16} (hpc : s.cpu.pc = label k)
    (hi : Monitor.instr k = some (sw y offset x)) (hk : k < size)
    (ha : s.cpu.address y offset = rxAck) : Runs s (s.goto (k + 1)) := by
  refine Runs.instr hpc hi hk ?_
  change s.sw y offset x = _
  rw [State.sw, ha, if_pos rfl, State.skip, State.goto, hpc, label_succ]

end Jumps

section Bytes

variable {s : State} {v value : Word} {busy idle rest : List Word} {j : Nat}

/-- A poll of `rx_data`. -/
theorem rxData_spec (hzero : s.cpu.regs 0 = 0) (hpolls : s.polls = v :: rest) :
    ∃ f, s.block [mvhi 2 0x6000, lw 1 2 0x2000] = some f ∧ f.cpu.regs 1 = v ∧
      f.cpu.regs 2 = 0x60000000 ∧ Kept s f ∧ f.polls = rest ∧ f.sent = s.sent := by
  change s.cpu.regs 0#5 = 0#32 at hzero
  simp [State.block, State.exec, State.lw, mvhi, lw, Instr.exec, Cpu.put, Cpu.address, rxData,
    hzero, hpolls]
  exact ⟨fun r h1 h2 => by simp_all, rfl⟩

/-- The address of `rx_ack`. -/
theorem rxAck_address (h2 : s.cpu.regs 2 = 0x60000000) : s.cpu.address 2 0x2004 = rxAck := by
  rw [Cpu.address, h2]
  decide

/-- `jtag_get_byte` waits until `rx_data` is 0. -/
theorem getByte_clear (hbusy : ∀ v ∈ busy, v ≠ 0) (hpc : s.cpu.pc = label JTAG_GET_BYTE)
    (hzero : s.cpu.regs 0 = 0) (hpolls : s.polls = busy ++ 0 :: rest) :
    ∃ f, Runs s f ∧ f.cpu.pc = label JTAG_GET_BYTE1 ∧ f.cpu.regs 2 = 0x60000000 ∧ Kept s f ∧
      f.polls = rest ∧ f.sent = s.sent := by
  induction busy generalizing s with
  | nil =>
      obtain ⟨f, hblock, h1, h2, hkept, hrest, hsent⟩ := rxData_spec hzero hpolls
      obtain ⟨hruns, hend⟩ := Runs.block hpc (by decide) (by decide) (by decide) hblock
      have hzero' : f.cpu.regs 0 = 0 := (hkept.regs 0 (by decide) (by decide)).trans hzero
      have hbranch := Runs.bne_next hend rfl (by decide) (h1.trans hzero'.symm)
      have hack := Runs.ack (s := f.goto 103) rfl rfl (by decide) (rxAck_address h2)
      exact ⟨_, (hruns.trans hbranch).trans hack, rfl, h2, hkept.trans (.goto f _), hrest, hsent⟩
  | cons v busy ih =>
      obtain ⟨f, hblock, h1, h2, hkept, hrest, hsent⟩ := rxData_spec hzero hpolls
      obtain ⟨hruns, hend⟩ := Runs.block hpc (by decide) (by decide) (by decide) hblock
      have hzero' : f.cpu.regs 0 = 0 := (hkept.regs 0 (by decide) (by decide)).trans hzero
      have hne : f.cpu.regs 1 ≠ f.cpu.regs 0 := by
        rw [h1, hzero']
        exact hbusy v List.mem_cons_self
      have hbranch := Runs.bne hend rfl (by decide) hne
      obtain ⟨g, hmore, hpc', h2', hkept', hrest', hsent'⟩ :=
        ih (s := f.goto JTAG_GET_BYTE) (fun v hv => hbusy v (List.mem_cons_of_mem _ hv)) rfl hzero'
          hrest
      exact ⟨g, (hruns.trans hbranch).trans hmore, hpc', h2',
        (hkept.trans (.goto f _)).trans hkept', hrest', hsent'.trans hsent⟩

/-- Another poll of `rx_data`. -/
theorem rxData_next (h2 : s.cpu.regs 2 = 0x60000000) (hpolls : s.polls = v :: rest) :
    ∃ f, s.block [lw 1 2 0x2000] = some f ∧ f.cpu.regs 1 = v ∧ f.cpu.regs 2 = 0x60000000 ∧
      Kept s f ∧ f.polls = rest ∧ f.sent = s.sent := by
  change s.cpu.regs 2#5 = 0x60000000#32 at h2
  simp [State.block, State.exec, State.lw, lw, Cpu.put, Cpu.address, rxData, h2, hpolls]
  exact ⟨fun r h1 h2 => by simp_all, rfl⟩

/-- Then it waits until there is something in `rx_data`. -/
theorem getByte_wait (hidle : ∀ v ∈ idle, v = 0) (hvalue : value ≠ 0)
    (hpc : s.cpu.pc = label JTAG_GET_BYTE1) (hzero : s.cpu.regs 0 = 0)
    (h2 : s.cpu.regs 2 = 0x60000000) (hpolls : s.polls = idle ++ value :: rest) :
    ∃ f, Runs s f ∧ f.cpu.pc = label 106 ∧ f.cpu.regs 1 = value ∧ f.cpu.regs 2 = 0x60000000 ∧
      Kept s f ∧ f.polls = rest ∧ f.sent = s.sent := by
  induction idle generalizing s with
  | nil =>
      obtain ⟨f, hblock, h1, h2, hkept, hrest, hsent⟩ := rxData_next h2 hpolls
      obtain ⟨hruns, hend⟩ := Runs.block hpc (by decide) (by decide) (by decide) hblock
      have hzero' : f.cpu.regs 0 = 0 := (hkept.regs 0 (by decide) (by decide)).trans hzero
      have hne : f.cpu.regs 1 ≠ f.cpu.regs 0 := by
        rw [h1, hzero']
        exact hvalue
      exact ⟨_, hruns.trans (Runs.be_next hend rfl (by decide) hne), rfl, h1, h2,
        hkept.trans (.goto f _), hrest, hsent⟩
  | cons v idle ih =>
      obtain ⟨f, hblock, h1, h2, hkept, hrest, hsent⟩ := rxData_next h2 hpolls
      obtain ⟨hruns, hend⟩ := Runs.block hpc (by decide) (by decide) (by decide) hblock
      have hzero' : f.cpu.regs 0 = 0 := (hkept.regs 0 (by decide) (by decide)).trans hzero
      have heq : f.cpu.regs 1 = f.cpu.regs 0 := by
        rw [h1, hzero']
        exact hidle v List.mem_cons_self
      have hbranch := Runs.be hend rfl (by decide) heq
      obtain ⟨g, hmore, hpc', h1', h2', hkept', hrest', hsent'⟩ :=
        ih (s := f.goto JTAG_GET_BYTE1) (fun v hv => hidle v (List.mem_cons_of_mem _ hv)) rfl hzero'
          h2 hrest
      exact ⟨g, (hruns.trans hbranch).trans hmore, hpc', h1', h2',
        (hkept.trans (.goto f _)).trans hkept', hrest', hsent'.trans hsent⟩

/-- The low byte of a word. -/
theorem and_ff (value : Word) : value &&& 0xff = (value.extractLsb' 0 8).setWidth 32 := by
  apply BitVec.eq_of_getLsbD_eq
  intro i hi
  have hmask : (0xff : Word).getLsbD i = decide (i < 8) := by
    revert i
    decide
  rw [BitVec.getLsbD_and, hmask, BitVec.getLsbD_setWidth, BitVec.getLsbD_extractLsb', Nat.zero_add]
  simp [hi, Bool.and_comm]

/-- `jtag_get_byte` returns the byte the host sends. -/
theorem getByte_spec {b : Byte} (hpc : s.cpu.pc = label JTAG_GET_BYTE) (hzero : s.cpu.regs 0 = 0)
    (hra : s.cpu.regs RA_REG = label j) (hj : j < size)
    (hexchange : Exchange [.get b] s.polls rest) :
    ∃ f, Runs s f ∧ f.cpu.pc = label j ∧ f.cpu.regs 1 = b.setWidth 32 ∧ Kept s f ∧ f.polls = rest ∧
      f.sent = s.sent := by
  obtain ⟨value, first, polls', ⟨hvalue, busy, idle, hbusy, hidle, hfirst⟩, hends, hpolls, hrest⟩ :=
    hexchange
  have hsplit : s.polls = busy ++ 0 :: (idle ++ value :: rest) := by
    have hrest : polls' = rest := hrest
    rw [hpolls, hfirst, hrest]
    simp
  obtain ⟨s1, hruns1, hpc1, h2, hkept1, hpolls1, hsent1⟩ := getByte_clear hbusy hpc hzero hsplit
  have hzero1 : s1.cpu.regs 0 = 0 := (hkept1.regs 0 (by decide) (by decide)).trans hzero
  obtain ⟨s2, hruns2, hpc2, h1, h2, hkept2, hpolls2, hsent2⟩ :=
    getByte_wait hidle hvalue hpc1 hzero1 h2 hpolls1
  have hack := Runs.ack hpc2 rfl (by decide) (rxAck_address h2)
  obtain ⟨s4, hmask, h1', hkept4, hpolls4, hsent4⟩ : ∃ f,
      (s2.goto 107).block [.base (.andi 1 1 0xff)] = some f ∧
        f.cpu.regs 1 = b.setWidth 32 ∧ Kept s2 f ∧ f.polls = s2.polls ∧ f.sent = s2.sent := by
    refine ⟨_, rfl, ?_, ⟨fun r hr _ => Function.update_of_ne hr _ _, rfl⟩, rfl, rfl⟩
    change s2.cpu.regs 1 &&& 0xff = _
    have hends : value.extractLsb' 0 8 = b := hends
    rw [h1, and_ff, hends]
  obtain ⟨hruns4, hpc4⟩ := Runs.block rfl (by decide) (by decide) (by decide) hmask
  have hkept := (hkept1.trans hkept2).trans hkept4
  have hret := Runs.ret hpc4 rfl (by decide)
    ((hkept.regs RA_REG (by decide) (by decide)).trans hra) hj
  exact ⟨_, (((hruns1.trans hruns2).trans hack).trans hruns4).trans hret, rfl, h1',
    hkept.trans (.goto s4 j), hpolls4.trans hpolls2, (hsent4.trans hsent2).trans hsent1⟩

/-- A poll of `tx_ack` while `tx_data` is 0. -/
theorem txAck_spec (hzero : s.cpu.regs 0 = 0) (hpolls : s.polls = v :: rest) :
    ∃ f, s.block [mvhi 2 0x6000, sw 2 0x2008 0, lw 2 2 0x200c] = some f ∧
      f.cpu.regs 1 = s.cpu.regs 1 ∧ f.cpu.regs 2 = v ∧ Kept s f ∧ f.polls = rest ∧
      f.sent = s.sent := by
  change s.cpu.regs 0#5 = 0#32 at hzero
  simp [State.block, State.exec, State.lw, State.sw, mvhi, lw, sw, Instr.exec, Cpu.put, Cpu.address,
    rxData, txData, rxAck, txAck, State.skip, hzero, hpolls]
  exact ⟨fun r h1 h2 => by simp_all, rfl⟩

/-- `jtag_put_byte` waits until `tx_ack` is 0. -/
theorem putByte_clear (hbusy : ∀ v ∈ busy, v ≠ 0) (hpc : s.cpu.pc = label JTAG_PUT_BYTE)
    (hzero : s.cpu.regs 0 = 0) (hpolls : s.polls = busy ++ 0 :: rest) :
    ∃ f, Runs s f ∧ f.cpu.pc = label 113 ∧ f.cpu.regs 1 = s.cpu.regs 1 ∧ Kept s f ∧
      f.polls = rest ∧ f.sent = s.sent := by
  induction busy generalizing s with
  | nil =>
      obtain ⟨f, hblock, h1, h2, hkept, hrest, hsent⟩ := txAck_spec hzero hpolls
      obtain ⟨hruns, hend⟩ := Runs.block hpc (by decide) (by decide) (by decide) hblock
      have hzero' : f.cpu.regs 0 = 0 := (hkept.regs 0 (by decide) (by decide)).trans hzero
      have hbranch := Runs.bne_next hend rfl (by decide) (h2.trans hzero'.symm)
      exact ⟨_, hruns.trans hbranch, rfl, h1, hkept.trans (.goto f _), hrest, hsent⟩
  | cons v busy ih =>
      obtain ⟨f, hblock, h1, h2, hkept, hrest, hsent⟩ := txAck_spec hzero hpolls
      obtain ⟨hruns, hend⟩ := Runs.block hpc (by decide) (by decide) (by decide) hblock
      have hzero' : f.cpu.regs 0 = 0 := (hkept.regs 0 (by decide) (by decide)).trans hzero
      have hne : f.cpu.regs 2 ≠ f.cpu.regs 0 := by
        rw [h2, hzero']
        exact hbusy v List.mem_cons_self
      have hbranch := Runs.bne hend rfl (by decide) hne
      obtain ⟨g, hmore, hpc', h1', hkept', hrest', hsent'⟩ :=
        ih (s := f.goto JTAG_PUT_BYTE) (fun v hv => hbusy v (List.mem_cons_of_mem _ hv)) rfl hzero'
          hrest
      exact ⟨g, (hruns.trans hbranch).trans hmore, hpc', h1'.trans h1,
        (hkept.trans (.goto f _)).trans hkept', hrest', hsent'.trans hsent⟩

/-- The low byte of a byte with bit 8 set. -/
theorem flagged_low (value : Word) :
    (value &&& 0xff ||| 0x100).extractLsb' 0 8 = value.extractLsb' 0 8 := by
  apply BitVec.eq_of_getLsbD_eq
  intro i hi
  have hmask : (0xff : Word).getLsbD i = true ∧ (0x100 : Word).getLsbD i = false := by
    revert i
    decide
  simp only [BitVec.getLsbD_extractLsb', BitVec.getLsbD_or, BitVec.getLsbD_and, Nat.zero_add,
    hmask.1, hmask.2, Bool.and_true, Bool.or_false]

/-- The byte is sent. -/
theorem send_spec (hzero : s.cpu.regs 0 = 0) :
    ∃ f, s.block [mvhi 2 0x6000, .base (.andi 1 1 0xff), .base (.ori 1 1 0x100), sw 2 0x2008 1] =
        some f ∧
      Kept s f ∧ f.polls = s.polls ∧ f.sent = s.sent ++ [(s.cpu.regs 1).extractLsb' 0 8] := by
  change s.cpu.regs 0#5 = 0#32 at hzero
  simp [State.block, State.exec, State.sw, mvhi, sw, Instr.exec, Cpu.put, Cpu.address, txData,
    rxAck, State.skip, hzero]
  exact ⟨⟨fun r h1 h2 => by simp_all, rfl⟩, flagged_low _⟩

/-- Another poll of `tx_ack`. -/
theorem txAck_next (hzero : s.cpu.regs 0 = 0) (hpolls : s.polls = v :: rest) :
    ∃ f, s.block [mvhi 2 0x6000, lw 2 2 0x200c] = some f ∧ f.cpu.regs 2 = v ∧ Kept s f ∧
      f.polls = rest ∧ f.sent = s.sent := by
  change s.cpu.regs 0#5 = 0#32 at hzero
  simp [State.block, State.exec, State.lw, mvhi, lw, Instr.exec, Cpu.put, Cpu.address, rxData,
    txAck, hzero, hpolls]
  exact ⟨fun r h1 h2 => by simp_all, rfl⟩

/-- Then it waits until `tx_ack` is not 0. -/
theorem putByte_wait (hidle : ∀ v ∈ idle, v = 0) (hvalue : value ≠ 0)
    (hpc : s.cpu.pc = label JTAG_PUT_BYTE1) (hzero : s.cpu.regs 0 = 0)
    (hpolls : s.polls = idle ++ value :: rest) :
    ∃ f, Runs s f ∧ f.cpu.pc = label 120 ∧ Kept s f ∧ f.polls = rest ∧ f.sent = s.sent := by
  induction idle generalizing s with
  | nil =>
      obtain ⟨f, hblock, h2, hkept, hrest, hsent⟩ := txAck_next hzero hpolls
      obtain ⟨hruns, hend⟩ := Runs.block hpc (by decide) (by decide) (by decide) hblock
      have hzero' : f.cpu.regs 0 = 0 := (hkept.regs 0 (by decide) (by decide)).trans hzero
      have hne : f.cpu.regs 2 ≠ f.cpu.regs 0 := by
        rw [h2, hzero']
        exact hvalue
      exact ⟨_, hruns.trans (Runs.be_next hend rfl (by decide) hne), rfl, hkept.trans (.goto f _),
        hrest, hsent⟩
  | cons v idle ih =>
      obtain ⟨f, hblock, h2, hkept, hrest, hsent⟩ := txAck_next hzero hpolls
      obtain ⟨hruns, hend⟩ := Runs.block hpc (by decide) (by decide) (by decide) hblock
      have hzero' : f.cpu.regs 0 = 0 := (hkept.regs 0 (by decide) (by decide)).trans hzero
      have heq : f.cpu.regs 2 = f.cpu.regs 0 := by
        rw [h2, hzero']
        exact hidle v List.mem_cons_self
      have hbranch := Runs.be hend rfl (by decide) heq
      obtain ⟨g, hmore, hpc', hkept', hrest', hsent'⟩ :=
        ih (s := f.goto JTAG_PUT_BYTE1) (fun v hv => hidle v (List.mem_cons_of_mem _ hv)) rfl hzero'
          hrest
      exact ⟨g, (hruns.trans hbranch).trans hmore, hpc',
        (hkept.trans (.goto f _)).trans hkept', hrest', hsent'.trans hsent⟩

/-- `jtag_put_byte` sends the low byte of r1. -/
theorem putByte_spec (hpc : s.cpu.pc = label JTAG_PUT_BYTE) (hzero : s.cpu.regs 0 = 0)
    (hra : s.cpu.regs RA_REG = label j) (hj : j < size) (hexchange : Exchange [.put] s.polls rest) :
    ∃ f, Runs s f ∧ f.cpu.pc = label j ∧ Kept s f ∧ f.polls = rest ∧
      f.sent = s.sent ++ [(s.cpu.regs 1).extractLsb' 0 8] := by
  obtain ⟨value, first, polls', ⟨hvalue, busy, idle, hbusy, hidle, hfirst⟩, -, hpolls, hrest⟩ :=
    hexchange
  have hsplit : s.polls = busy ++ 0 :: (idle ++ value :: rest) := by
    have hrest : polls' = rest := hrest
    rw [hpolls, hfirst, hrest]
    simp
  obtain ⟨s1, hruns1, hpc1, h1, hkept1, hpolls1, hsent1⟩ := putByte_clear hbusy hpc hzero hsplit
  have hzero1 : s1.cpu.regs 0 = 0 := (hkept1.regs 0 (by decide) (by decide)).trans hzero
  obtain ⟨s2, hsend, hkept2, hpolls2, hsent2⟩ := send_spec hzero1
  obtain ⟨hruns2, hpc2⟩ := Runs.block hpc1 (by decide) (by decide) (by decide) hsend
  have hzero2 : s2.cpu.regs 0 = 0 := (hkept2.regs 0 (by decide) (by decide)).trans hzero1
  obtain ⟨s3, hruns3, hpc3, hkept3, hpolls3, hsent3⟩ :=
    putByte_wait hidle hvalue hpc2 hzero2 (hpolls2.trans hpolls1)
  have hkept := (hkept1.trans hkept2).trans hkept3
  have hret := Runs.ret hpc3 rfl (by decide)
    ((hkept.regs RA_REG (by decide) (by decide)).trans hra) hj
  refine ⟨_, ((hruns1.trans hruns2).trans hruns3).trans hret, rfl, hkept.trans (.goto s3 j),
    hpolls3, ?_⟩
  rw [State.goto_sent, hsent3, hsent2, hsent1, h1]

end Bytes

end Soc.Monitor
