import Soc.Monitor.Commands

/-!
# The monitor as a memory

Whole runs of the monitor, from the entry of `handle_exception` until it waits for the host. It
answers like a big-endian memory as long as every halfword that is stored is 0.
-/

namespace Soc.Monitor

open Lm32 (Cpu Reg Instr SP RA_REG loadWord wordBytes)
open Library.Region (Covers store load)

/-- A big-endian memory after commands. -/
def memoryAfter (cs : List Command) (mem : Word → Byte) : Word → Byte :=
  cs.foldl (fun mem c => c.apply mem) mem

/-- What a big-endian memory answers to commands. -/
def answers : List Command → (Word → Byte) → List Byte
  | [], _ => []
  | c :: cs, mem => c.answer mem ++ answers cs (c.apply mem)

/-- `save_all` has been called: `sp` points to the frame. -/
structure Entered (s : State) : Prop where
  pc : s.cpu.pc = label HANDLE_EXCEPTION
  zero : s.cpu.regs 0 = 0
  sp : s.cpu.regs SP = 0x1000076c

/-- Whatever the host does while it sends the commands and takes the bytes, the monitor sends `T`
and what a big-endian memory answers, and then waits for the host. -/
def Agrees (s : State) (cs : List Command) : Prop :=
  ∀ polls, Exchange (.put :: cs.flatMap Command.transfers) polls [] →
    ∃ f, Runs { s with polls := polls } f ∧ next f = none ∧
      f.sent = s.sent ++ 0x54 :: answers cs s.cpu.mem

section Answers

variable {c : Command} {cs ds : List Command} {mem mem' : Word → Byte}

theorem answers_append :
    answers (cs ++ ds) mem = answers cs mem ++ answers ds (memoryAfter cs mem) := by
  induction cs generalizing mem with
  | nil => rfl
  | cons c cs ih =>
      rw [List.cons_append, answers, answers, ih, List.append_assoc]
      rfl

/-- The answers depend on what is outside the stack. -/
theorem answers_congr (hproper : ∀ c ∈ cs, c.Proper) (hmem : ∀ a, ¬ OnStack a → mem a = mem' a) :
    answers cs mem = answers cs mem' := by
  induction cs generalizing mem mem' with
  | nil => rfl
  | cons c cs ih =>
      have happly : ∀ a, ¬ OnStack a → c.apply mem a = c.apply mem' a :=
        fun a ha => Library.Region.store_congr (hmem a ha)
      rw [answers, answers, (hproper c List.mem_cons_self).answer_eq hmem,
        ih (fun c hc => hproper c (List.mem_cons_of_mem _ hc)) happly]

/-- Only what is stored changes. -/
theorem Command.Proper.taken (h : c.Proper) : c.taken.Proper := by
  cases c with
  | storeHalfword base value =>
      exact ⟨h.aligned, h.size, fun a ha => ⟨(h.apart a ha).1, (h.apart a ha).2.1,
        fun _ => (h.apart a ha).2.2 (List.cons_ne_nil _ _)⟩⟩
  | _ => exact h

/-- Proper commands stay proper. -/
theorem proper_map_taken (h : ∀ c ∈ cs, c.Proper) : ∀ c ∈ cs.map Command.taken, c.Proper := by
  intro c hc
  obtain ⟨c', hc', rfl⟩ := List.mem_map.1 hc
  exact (h c' hc').taken

/-- A command of its own is answered as it is. -/
theorem taken_answer : c.taken.answer mem = c.answer mem := by
  cases c with
  | _ => rfl

/-- A halfword without its lower half is the same if it is 0. -/
theorem ushiftRight_eq_self {value : BitVec 16} (h : value >>> 8 = value) : value = 0 := by
  have htoNat := congrArg BitVec.toNat h
  rw [BitVec.toNat_ushiftRight, Nat.shiftRight_eq_div_pow] at htoNat
  apply BitVec.eq_of_toNat_eq
  change value.toNat = 0
  omega

/-- The monitor takes commands as they are if no halfword is lost. -/
theorem map_taken (hzero : ∀ base value, .storeHalfword base value ∈ cs → value = 0) :
    cs.map Command.taken = cs := by
  refine (List.map_congr_left fun c hc => ?_).trans (List.map_id cs)
  cases c with
  | storeHalfword base value =>
      rw [Command.taken, hzero base value hc]
      rfl
  | _ => rfl

end Answers

section Runs

variable {s : State} {cs : List Command} {rest : List Word}

/-- A word from its halves. -/
theorem hi_lo (k : Nat) : hi k ++ (0 : BitVec 16) ||| (lo k).setWidth 32 = label k := by
  apply BitVec.eq_of_getLsbD_eq
  intro i hi
  rw [BitVec.getLsbD_or, BitVec.getLsbD_append, BitVec.getLsbD_setWidth, Monitor.hi, Monitor.lo,
    BitVec.getLsbD_extractLsb', BitVec.getLsbD_extractLsb']
  by_cases hlow : i < 16
  · simp [hlow, hi]
  · have hhigh : i - 16 < 16 := by omega
    have hback : 16 + (i - 16) = i := by omega
    simp [hlow, hhigh, hback]

/-- The address of a label is put in a register. -/
theorem address_spec {k n : Nat} {x : Reg} (hpc : s.cpu.pc = label k)
    (hi : Monitor.instr k = some (mvhi x (hi n)))
    (hi' : Monitor.instr (k + 1) = some (.base (.ori x x (lo n)))) (hk : k + 1 < size)
    (hzero : s.cpu.regs 0 = 0) :
    ∃ f, Runs s f ∧ f.cpu.pc = label (k + 2) ∧ Sets x (label n) s f := by
  obtain ⟨s1, hruns1, hpc1, hsets1⟩ := Runs.sets hpc hi (Nat.lt_of_succ_lt hk) rfl
  obtain ⟨f, hruns2, hpc2, hsets2⟩ := Runs.sets hpc1 hi' hk rfl
  refine ⟨f, hruns1.trans hruns2, hpc2, ⟨?_, fun r hr => ?_, hsets2.mem.trans hsets1.mem,
    hsets2.polls.trans hsets1.polls, hsets2.sent.trans hsets1.sent⟩⟩
  · rw [hsets2.value, hsets1.value, hzero]
    exact (congrArg (· ||| _) BitVec.zero_or).trans (hi_lo n)
  · rw [hsets2.others r hr, hsets1.others r hr]

/-- `handle_exception` saves its return address on the stack. -/
theorem saveRa (h : Entered s) :
    ∃ f, Runs s f ∧ f.cpu.pc = label 171 ∧ f.cpu.regs 0 = 0 ∧ f.cpu.regs SP = top ∧
      (∀ a, ¬ OnStack a → f.cpu.mem a = s.cpu.mem a) ∧ f.polls = s.polls ∧ f.sent = s.sent := by
  obtain ⟨s1, hruns1, hpc1, hsets1⟩ := Runs.sets h.pc rfl (by decide) rfl
  have hsp1 : s1.cpu.regs SP = top := by
    rw [hsets1.value, h.sp]
    decide
  have haddress : s1.cpu.address SP 4 = 0x1000076c := by
    rw [Cpu.address, hsp1]
    decide
  have hruns2 := Runs.instr hpc1 rfl (by decide) (exec_sw (x := RA_REG) haddress (by decide))
  refine ⟨_, hruns1.trans hruns2, ?_, (hsets1.others 0 (by decide)).trans h.zero, hsp1,
    fun a ha => ?_, hsets1.polls, hsets1.sent⟩
  · change s1.cpu.pc + 4 = _
    rw [hpc1, label_succ]
    rfl
  · rw [← hsets1.mem]
    exact store_outside ha (show 8 + 4 ≤ 12 by decide)

/-- `handle_exception` sends `T` and waits for a command. -/
theorem greet (h : Entered s) (hexchange : Exchange [.put] s.polls rest) :
    ∃ f, Runs s f ∧ f.cpu.pc = label GET_SELECTION ∧ Ready f ∧
      (∀ a, ¬ OnStack a → f.cpu.mem a = s.cpu.mem a) ∧ f.polls = rest ∧
      f.sent = s.sent ++ [0x54] := by
  obtain ⟨s2, hruns2, hpc2, hzero2, hsp2, hmem2, hpolls2, hsent2⟩ := saveRa h
  obtain ⟨s3, hruns3, hpc3, hsets3⟩ := address_spec hpc2 rfl rfl (by decide) hzero2
  have hzero3 : s3.cpu.regs 0 = 0 := (hsets3.others 0 (by decide)).trans hzero2
  obtain ⟨s4, hruns4, hpc4, hsets4⟩ := address_spec hpc3 rfl rfl (by decide) hzero3
  have hzero4 : s4.cpu.regs 0 = 0 := (hsets4.others 0 (by decide)).trans hzero3
  obtain ⟨s5, hruns5, hpc5, hsets5⟩ := address_spec hpc4 rfl rfl (by decide) hzero4
  have hzero5 : s5.cpu.regs 0 = 0 := (hsets5.others 0 (by decide)).trans hzero4
  obtain ⟨s6, hruns6, hpc6, hsets6⟩ := Runs.sets hpc5 rfl (by decide) rfl
  have hzero6 : s6.cpu.regs 0 = 0 := (hsets6.others 0 (by decide)).trans hzero5
  have hpolls6 : s6.polls = s.polls := by
    rw [hsets6.polls, hsets5.polls, hsets4.polls, hsets3.polls, hpolls2]
  obtain ⟨f, hruns7, hreach, hmem, hpolls, hsent⟩ :=
    callPutByte hpc6 rfl (by decide) hzero6 (hpolls6 ▸ hexchange)
  have hready : Ready s6 := by
    refine ⟨hzero6, ?_, ?_⟩
    · rw [hsets6.others SP (by decide), hsets5.others SP (by decide), hsets4.others SP (by decide),
        hsets3.others SP (by decide), hsp2]
    · rw [hsets6.others 25 (by decide), hsets5.value]
  have hstart := hruns2.trans ((hruns3.trans hruns4).trans (hruns5.trans hruns6))
  refine ⟨f, hstart.trans hruns7, hreach.pc, hready.reaches hreach, fun a ha => ?_, hpolls, ?_⟩
  · rw [hmem, hsets6.mem, hsets5.mem, hsets4.mem, hsets3.mem, hmem2 a ha]
  · have hT : s6.cpu.regs 1 = 0x54 := by
      rw [hsets6.value, hzero5]
      decide
    rw [hsent, hT, hsets6.sent, hsets5.sent, hsets4.sent, hsets3.sent, hsent2]
    rfl

/-- Commands one after the other. -/
theorem performs (h : Ready s) (hpc : s.cpu.pc = label GET_SELECTION)
    (hproper : ∀ c ∈ cs, c.Proper)
    (hexchange : Exchange (cs.flatMap Command.transfers) s.polls rest) :
    ∃ f, Runs s f ∧ f.cpu.pc = label GET_SELECTION ∧ Ready f ∧ f.polls = rest ∧
      f.sent = s.sent ++ answers (cs.map Command.taken) s.cpu.mem := by
  induction cs generalizing s with
  | nil => exact ⟨s, .refl, hpc, h, hexchange, (List.append_nil _).symm⟩
  | cons c cs ih =>
      rw [List.flatMap_cons] at hexchange
      obtain ⟨mid, hfirst, hmore⟩ := exchange_append.1 hexchange
      have hc := hproper c List.mem_cons_self
      have hcs : ∀ c ∈ cs, c.Proper := fun c hc => hproper c (List.mem_cons_of_mem _ hc)
      obtain ⟨s1, hruns1, hperformed⟩ := perform_spec h hpc hc hfirst
      obtain ⟨f, hruns2, hend, hready, hpolls, hsent⟩ :=
        ih hperformed.ready hperformed.pc hcs (hperformed.polls ▸ hmore)
      refine ⟨f, hruns1.trans hruns2, hend, hready, hpolls, ?_⟩
      rw [hsent, hperformed.sent, answers_congr (proper_map_taken hcs) hperformed.mem,
        List.map_cons, answers, List.append_assoc]

/-- Between the commands the monitor waits for the host. -/
theorem waits (h : Ready s) (hpc : s.cpu.pc = label GET_SELECTION) (hpolls : s.polls = []) :
    ∃ f, Runs s f ∧ next f = none ∧ f.sent = s.sent := by
  have hcall := Runs.call hpc rfl (by decide)
  obtain ⟨s2, hruns2, hpc2, hsets2⟩ :=
    Runs.sets (s := s.call GET_SELECTION JTAG_GET_BYTE) (k := JTAG_GET_BYTE) rfl rfl (by decide) rfl
  have haddress : s2.cpu.address 2 0x2000 = rxData := by
    rw [Cpu.address, hsets2.value, call_regs (by decide), h.zero]
    decide
  have hwait : s2.polls = [] := hsets2.polls.trans hpolls
  refine ⟨s2, hcall.trans hruns2, ?_, hsets2.sent⟩
  have hpoll : instr (JTAG_GET_BYTE + 1) = some (lw 1 2 0x2000) := rfl
  rw [next, hpc2, fetch_label (by decide), hpoll, Option.bind_some]
  change s2.lw 1 2 0x2000 = none
  simp only [State.lw, haddress, true_or, if_true, hwait]

/-- The monitor performs commands as it takes them, and then waits for the host. -/
theorem run_spec (h : Entered s) (hproper : ∀ c ∈ cs, c.Proper)
    (hexchange : Exchange (.put :: cs.flatMap Command.transfers) s.polls []) :
    ∃ f, Runs s f ∧ next f = none ∧
      f.sent = s.sent ++ 0x54 :: answers (cs.map Command.taken) s.cpu.mem := by
  obtain ⟨mid, hgreet, hcommands⟩ := exchange_cons hexchange
  obtain ⟨s1, hruns1, hpc1, h1, hmem1, hpolls1, hsent1⟩ := greet h hgreet
  obtain ⟨s2, hruns2, hpc2, h2, hpolls2, hsent2⟩ := performs h1 hpc1 hproper (hpolls1 ▸ hcommands)
  obtain ⟨f, hruns3, hend, hsent3⟩ := waits h2 hpc2 hpolls2
  refine ⟨f, (hruns1.trans hruns2).trans hruns3, hend, ?_⟩
  rw [hsent3, hsent2, hsent1, answers_congr (proper_map_taken hproper) hmem1, List.append_assoc]
  rfl

/-- A host that is always ready. -/
theorem exchange_exists (ts : List Transfer) : ∃ polls, Exchange ts polls [] := by
  induction ts with
  | nil => exact ⟨[], rfl⟩
  | cons t ts ih =>
      obtain ⟨polls, hpolls⟩ := ih
      obtain ⟨value, hvalue, hends⟩ : ∃ value : Word, value ≠ 0 ∧ t.Ends value := by
        cases t with
        | get b =>
            refine ⟨b.setWidth 32 &&& 0xff ||| 0x100, fun hzero => ?_,
              (flagged_low _).trans (low_bits (by decide) b)⟩
            have hbit := congrArg (BitVec.getLsbD · 8) hzero
            simp at hbit
        | put => exact ⟨1, by decide, trivial⟩
      exact ⟨[0, value] ++ polls, value, [0, value], polls, ⟨hvalue, [], [], by simp, by simp, rfl⟩,
        hends, rfl, hpolls⟩

/-- The monitor agrees with a memory if the commands are answered as it takes them. -/
theorem agrees_iff_answers (h : Entered s) (hproper : ∀ c ∈ cs, c.Proper) :
    Agrees s cs ↔ answers (cs.map Command.taken) s.cpu.mem = answers cs s.cpu.mem := by
  constructor
  · intro hagrees
    obtain ⟨polls, hexchange⟩ := exchange_exists (.put :: cs.flatMap Command.transfers)
    obtain ⟨f, hruns, hend, hsent⟩ := hagrees polls hexchange
    obtain ⟨f', hruns', hend', hsent'⟩ :=
      run_spec (s := { s with polls := polls }) ⟨h.pc, h.zero, h.sp⟩ hproper hexchange
    have heq := Library.Determinism.end_unique hruns hend hruns' hend'
    rw [heq, hsent'] at hsent
    exact List.tail_eq_of_cons_eq (List.append_cancel_left hsent)
  · intro heq polls hexchange
    rw [← heq]
    exact run_spec (s := { s with polls := polls }) ⟨h.pc, h.zero, h.sp⟩ hproper hexchange

/-- A halfword just stored is loaded. -/
theorem halfwordAt_store (mem : Word → Byte) (a : Word) (v : BitVec 16) :
    halfwordAt (store mem a (halfwordBytes v)) a = v := by
  have hload : load (store mem a (halfwordBytes v)) a 2 = halfwordBytes v :=
    Library.Region.load_store_same (show 2 ≤ Nat.pow 2 32 by decide)
  obtain ⟨hhigh, hrest⟩ := List.cons.inj hload
  obtain ⟨hlow, -⟩ := List.cons.inj hrest
  rw [halfwordAt, hhigh, hlow, BitVec.extractLsb'_append_extractLsb'_eq_extractLsb' (by rfl)]
  exact BitVec.extractLsb'_eq_self

end Runs

section Agreement

variable {s : State} {cs : List Command}

/-- What is stored by `store_halfword` at a place can be loaded from it. -/
theorem Proper.loadHalfword {base : Word} {value : BitVec 16}
    (h : (Command.storeHalfword base value).Proper) : (Command.loadHalfword base).Proper :=
  ⟨h.aligned, h.size, fun a ha => ⟨(h.apart a ha).1, (h.apart a ha).2.1, fun hne => absurd rfl hne⟩⟩

/-- A halfword is loaded as it was stored only if it is 0. -/
theorem zero_of_agrees {base : Word} {value : BitVec 16} (hs : Entered s)
    (hproper : ∀ c ∈ cs, c.Proper) (hstore : (Command.storeHalfword base value).Proper)
    (h : Agrees s (cs ++ [.storeHalfword base value, .loadHalfword base])) : value = 0 := by
  have hall : ∀ c ∈ cs ++ [.storeHalfword base value, .loadHalfword base], c.Proper := by
    intro c hc
    obtain hc | hc := List.mem_append.1 hc
    · exact hproper c hc
    · obtain rfl | rfl : c = .storeHalfword base value ∨ c = .loadHalfword base := by simpa using hc
      · exact hstore
      · exact Proper.loadHalfword hstore
  have hanswers := (agrees_iff_answers hs hall).1 h
  rw [List.map_append, answers_append, answers_append] at hanswers
  have hstored : ∀ {mem : Word → Byte} {v : BitVec 16},
      answers [.storeHalfword base v, .loadHalfword base] mem = (halfwordBytes v).reverse := by
    intro mem v
    change (halfwordBytes (halfwordAt (store mem base (halfwordBytes v)) base)).reverse ++ [] = _
    rw [halfwordAt_store, List.append_nil]
  change _ ++ answers [.storeHalfword base (value >>> 8), .loadHalfword base] _ = _ at hanswers
  rw [hstored, hstored] at hanswers
  obtain ⟨-, hloaded⟩ := List.append_inj' hanswers rfl
  rw [List.reverse_inj] at hloaded
  have hkept := halfwordAt_store s.cpu.mem base (value >>> 8)
  rw [hloaded, halfwordAt_store] at hkept
  exact ushiftRight_eq_self hkept.symm

/-- The monitor answers every command after any of the commands before it like a big-endian memory,
exactly if every halfword that is stored is 0. -/
theorem memory_agrees_iff (hs : Entered s) (hproper : ∀ c ∈ cs, c.Proper) :
    (∀ cs' c, cs' <+: cs → c.Proper → Agrees s (cs' ++ [c])) ↔
      ∀ base value, .storeHalfword base value ∈ cs → value = 0 := by
  constructor
  · intro hagrees base value hmem
    obtain ⟨before, after, rfl⟩ := List.append_of_mem hmem
    have hstore := hproper _ hmem
    have hbefore : before ++ [.storeHalfword base value] <+:
        before ++ .storeHalfword base value :: after :=
      ⟨after, (List.append_cons before _ after).symm⟩
    have h := hagrees _ (.loadHalfword base) hbefore (Proper.loadHalfword hstore)
    rw [List.append_assoc] at h
    exact zero_of_agrees hs (fun c hc => hproper c (List.mem_append_left _ hc)) hstore h
  · intro hzero cs' c hbefore hc
    have hcs' : ∀ c' ∈ cs' ++ [c], c'.Proper := by
      intro c' hc'
      obtain hc' | hc' := List.mem_append.1 hc'
      · exact hproper c' (hbefore.subset hc')
      · rw [List.mem_singleton.1 hc']
        exact hc
    rw [agrees_iff_answers hs hcs', List.map_append,
      map_taken fun base value hmem => hzero base value (hbefore.subset hmem), answers_append,
      answers_append]
    refine congrArg (answers cs' s.cpu.mem ++ ·) ?_
    exact congrArg (· ++ []) taken_answer

/-- The registers and an empty memory on entry. -/
def entered : State where
  cpu :=
    { pc := label HANDLE_EXCEPTION
      regs := Function.update (fun _ => 0) SP 0x1000076c
      csrs := ⟨0, 0, false, false, false, 0, 0⟩
      mem := fun _ => 0 }
  polls := []
  sent := []

theorem entered_entered : Entered entered := ⟨rfl, rfl, rfl⟩

/-- Commands to a halfword of the main memory. -/
theorem proper_storeHalfword (value : BitVec 16) :
    (Command.storeHalfword 0x40000000 value).Proper := by
  refine ⟨show (0x40000000 : Word).toNat % 2 = 0 by decide, show 2 < 4294967296 by decide,
    fun a ha => ⟨fun h => ?_, fun h => ?_, fun _ h => ?_⟩⟩
  all_goals change (a - 0x40000000).toNat < 2 at ha
  · change (a - 0x10000764).toNat < 12 at h
    bv_omega
  · change (a - 0x60002000).toNat < 16 at h
    bv_omega
  · change (a - 0x10000000).toNat < 1172 at h
    bv_omega

/-- A halfword of 0, and what is loaded then. -/
theorem memory_agrees_zero :
    Agrees entered ([.storeHalfword 0x40000000 0] ++ [.loadHalfword 0x40000000]) := by
  have hproper : ∀ c ∈ [Command.storeHalfword 0x40000000 0], c.Proper := by
    intro c hc
    rw [List.mem_singleton.1 hc]
    exact proper_storeHalfword 0
  exact (memory_agrees_iff entered_entered hproper).2 (by simp) _ _ (List.prefix_refl _)
    (Proper.loadHalfword (proper_storeHalfword 0))

/-- The halfword 0x1234 is loaded as 0x0012. -/
theorem halfword_lost :
    Entered entered ∧ (Command.storeHalfword 0x40000000 0x1234).Proper ∧
      (Command.loadHalfword 0x40000000).Proper ∧
      ¬ Agrees entered [.storeHalfword 0x40000000 0x1234, .loadHalfword 0x40000000] := by
  refine ⟨entered_entered, proper_storeHalfword _,
    Proper.loadHalfword (proper_storeHalfword 0x1234), fun h => ?_⟩
  have hnone : ∀ c ∈ ([] : List Command), c.Proper := by simp
  exact absurd (zero_of_agrees entered_entered hnone (proper_storeHalfword 0x1234) h) (by decide)

end Agreement

end Soc.Monitor
