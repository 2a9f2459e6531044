import Soc.Gdbstub.Crt0

/-!
# The context of the application

What a debug stop does to the registers of the application. `save_all` stores them into the
frame that `handle_exception` is given, and the restore paths load them from it again, so the
application goes on with what is in the frame then. A CSR takes the bits it has: EBA and DEBA
lose their low byte, and IE has three bits. No interrupt comes in between, unless GDB has set
IE.IE in the frame: then one can overwrite `ea` between the `wcsr` and the return.
-/

namespace Soc.Gdbstub

namespace Crt0

open Lm32 (Cpu Reg Csr Csrs Instr Steps Runs SP RA_REG EA_REG BA_REG after slot loadWord storeWord
  block block_cons block_nil block_append saves loads slot_storeWord)

/-- The register that holds the PC on entry of a handler: `ba` for breakpoints and watchpoints. -/
def returnReg (eid : Nat) : Reg := if eid = 1 ∨ eid = 3 then BA_REG else EA_REG

/-- The other one of `ea` and `ba`. -/
def otherReg (eid : Nat) : Reg := if eid = 1 ∨ eid = 3 then EA_REG else BA_REG

/-- The restore path of a handler. -/
def restorePath (eid : Nat) : Nat :=
  if eid = 1 ∨ eid = 3 then B_RESTORE_AND_RETURN else E_RESTORE_AND_RETURN

/-- The frame holds the context `c` in which handler `eid` was entered. -/
structure FrameHolds (eid : Nat) (c : Cpu) (mem : Word → Byte) : Prop where
  regs : ∀ r : Reg, r ≠ 0 → slot mem debugFrame r.toNat = c.regs r
  pc : slot mem debugFrame 32 = c.regs (returnReg eid)
  eid : slot mem debugFrame 33 = .ofNat 32 eid
  eba : slot mem debugFrame 34 = c.csrs.read .EBA
  deba : slot mem debugFrame 35 = c.csrs.read .DEBA
  ie : slot mem debugFrame 36 = c.csrs.read .IE
  im : slot mem debugFrame 37 = c.csrs.read .IM
  ip : slot mem debugFrame 38 = c.csrs.read .IP

/-- The CPU has the context of the frame. -/
structure Restored (eid : Nat) (mem : Word → Byte) (f : Cpu) : Prop where
  regs : ∀ r : Reg, r ≠ 0 → r ≤ RA_REG → f.regs r = slot mem debugFrame r.toNat
  pc : f.regs (returnReg eid) = slot mem debugFrame 32
  other : f.regs (otherReg eid) = slot mem debugFrame (otherReg eid).toNat
  eba : f.csrs.read .EBA = slot mem debugFrame 34 &&& 0xffffff00
  deba : f.csrs.read .DEBA = slot mem debugFrame 35 &&& 0xffffff00
  ie : f.csrs.read .IE = slot mem debugFrame 36 &&& 7
  im : f.csrs.read .IM = slot mem debugFrame 37

/-- The CPU has the context it had before. -/
structure Unchanged (c f : Cpu) : Prop where
  regs : ∀ r : Reg, r ≠ 0 → f.regs r = c.regs r
  eba : f.csrs.read .EBA = c.csrs.read .EBA
  deba : f.csrs.read .DEBA = c.csrs.read .DEBA
  ie : f.csrs.read .IE = c.csrs.read .IE
  im : f.csrs.read .IM = c.csrs.read .IM

/-- The words of the frame that are restored are the same. -/
def Unedited (mem mem' : Word → Byte) : Prop :=
  ∀ i, 1 ≤ i → i ≤ 37 → i ≠ 33 → slot mem' debugFrame i = slot mem debugFrame i

/-- The return to the application at the end of a restore path. -/
def AtReturn (eid : Nat) (f : Cpu) : Prop :=
  f.pc = label (restorePath eid + 13)

section Save

variable (handle : Cpu → Cpu) {c : Cpu} {eid : Nat} {v : Bool}

/-- The handler of an exception in the text. -/
theorem handler_text : ∀ eid < 8, 1 ≤ eid →
    (crt0.drop (8 * eid)).take 8 = handler (returnReg eid) (restorePath eid) := by
  decide

/-- An instruction of a handler. -/
theorem handler_instr (hlow : 1 ≤ eid) (hhigh : eid ≤ 7) {k : Nat} (hk : k < 8) :
    crt0[8 * eid + k]? = (handler (returnReg eid) (restorePath eid))[k]? := by
  rw [← handler_text eid (by omega) hlow, List.getElem?_take, if_pos hk, List.getElem?_drop]

/-- The straight instructions at the start of every handler. -/
def handlerHead : List Instr :=
  [.xor 0 0 0,
    .orhi 0 0 (debugStack.extractLsb' 16 16),
    .ori 0 0 (debugStack.extractLsb' 0 16),
    .sw 0 0 RA_REG]

/-- They point r0 to the debug stack and save `ra` there. -/
theorem handlerHead_spec (c : Cpu) :
    (block handlerHead c).regs = Function.update c.regs 0 debugStack ∧
      (block handlerHead c).csrs = c.csrs ∧
      (block handlerHead c).mem = storeWord c.mem (after debugFrame 39) (c.regs RA_REG) := by
  have hstack : (0 : Word) ||| debugStack.extractLsb' 16 16 ++ (0 : BitVec 16) |||
      (debugStack.extractLsb' 0 16).setWidth 32 = debugStack := by decide
  have haddress : debugStack + (0 : BitVec 16).signExtend 32 = after debugFrame 39 := by decide
  have hne : RA_REG ≠ 0 := by decide
  simp only [handlerHead, block_cons, block_nil, Instr.exec, Cpu.put, Cpu.address,
    Function.update_self, Function.update_idem, BitVec.xor_self, Function.update_of_ne hne]
  refine ⟨congrArg (Function.update c.regs 0) hstack, trivial, ?_⟩
  rw [← haddress]
  exact congrArg (fun a => storeWord c.mem (a + _) (c.regs RA_REG)) hstack

/-- A handler calls `save_all`. -/
theorem enter_spec (hie : c.csrs.ie = v) (hlow : 1 ≤ eid) (hhigh : eid ≤ 7)
    (hpc : c.pc = handlerAddress eid) :
    ∃ f, Runs v (next handle) c f ∧ f.pc = label SAVE_ALL ∧ f.regs 0 = debugStack ∧
      f.regs RA_REG = label (8 * eid + 5) ∧ (∀ r, r ≠ 0 → r ≠ RA_REG → f.regs r = c.regs r) ∧
      f.csrs = c.csrs ∧ slot f.mem debugFrame 39 = c.regs RA_REG := by
  have htext : (crt0.drop (8 * eid)).take 4 = handlerHead := by
    have htake := congrArg (List.take 4) (handler_text eid (by omega) hlow)
    rwa [List.take_take] at htake
  obtain ⟨hruns, hnext⟩ := runs_quiet handle handlerHead hie hpc
    (show 8 * eid + 4 ≤ 482 by omega) (by decide) htext
  obtain ⟨hregs, hcsrs, hmem⟩ := handlerHead_spec c
  have hie' : (block handlerHead c).csrs.ie = v := by rw [hcsrs, hie]
  have hcall : next handle (block handlerHead c) =
      some ((Instr.calli (label SAVE_ALL)).exec (block handlerHead c)) :=
    next_instr handle hnext (show 8 * eid + 4 < 482 by omega)
      ((handler_instr hlow hhigh (by decide)).trans rfl) ⟨by decide, by decide⟩
  have hcallRegs := calli_regs hnext (label SAVE_ALL)
  refine ⟨_, hruns.tail ⟨hie', hcall⟩, rfl, ?_, ?_, fun r hr0 hra => ?_, hcsrs, ?_⟩
  · rw [hcallRegs, Function.update_of_ne (by decide), hregs, Function.update_self]
  · rw [hcallRegs, Function.update_self]
    rfl
  · rw [hcallRegs, Function.update_of_ne hra, hregs, Function.update_of_ne hr0]
  · show slot (block handlerHead c).mem debugFrame 39 = _
    rw [hmem, slot_storeWord (by decide) (by decide), if_pos rfl]

/-- The registers `save_all` stores one after another, with their places in the frame. -/
def savedRegs : List (Nat × Reg) :=
  (List.range' 1 28).map (fun k => (k, .ofNat 5 k)) ++ [(30, EA_REG), (31, BA_REG)]

/-- The instructions of `save_all` after these. -/
def saveRest : List Instr := (saveAll.drop 31).take 20

/-- What the rest of `save_all` stores. `ra` comes from the debug stack. -/
def restWords (mem : Word → Byte) (a : Word) (s : Csrs) (ra : Word) : Word → Byte :=
  let mem := storeWord mem (after a 34) (s.read .EBA)
  let mem := storeWord mem (after a 35) (s.read .DEBA)
  let mem := storeWord mem (after a 36) (s.read .IE)
  let mem := storeWord mem (after a 37) (s.read .IM)
  let mem := storeWord mem (after a 38) (s.read .IP)
  let mem := storeWord mem (after a 33) ((ra &&& 0xff) >>> 5)
  let mem := storeWord mem (after a 29) a
  let mem := storeWord mem (after a 29) (slot mem a 39)
  storeWord mem (after a 0) 0

/-- The rest of `save_all` points `sp` and the argument to the frame. -/
theorem saveRest_spec {a : Word} (h : c.regs 0 = a) :
    (block saveRest c).mem = restWords c.mem a c.csrs (c.regs RA_REG) ∧
      (block saveRest c).csrs = c.csrs ∧
      (block saveRest c).regs SP = a ∧ (block saveRest c).regs 1 = a ∧
      (block saveRest c).regs RA_REG = c.regs RA_REG ∧
      (block saveRest c).regs EA_REG = c.regs EA_REG ∧
      (block saveRest c).regs BA_REG = c.regs BA_REG := by
  change c.regs 0#5 = a at h
  simp [saveRest, saveAll, Instr.exec, Cpu.put, Cpu.address, Function.update, SP, RA_REG, EA_REG,
    BA_REG, restWords, after, slot, h]

/-- What `save_all` leaves in the frame at `a`. -/
theorem restWords_slot {mem : Word → Byte} {a : Word} {s : Csrs} {ra : Word} {j : Nat}
    (hj : j < 64) :
    slot (restWords mem a s ra) a j =
      if j = 0 then 0 else if j = 29 then slot mem a 39 else if j = 33 then (ra &&& 0xff) >>> 5
      else if j = 38 then s.read .IP else if j = 37 then s.read .IM else if j = 36 then s.read .IE
      else if j = 35 then s.read .DEBA else if j = 34 then s.read .EBA else slot mem a j := by
  simp (disch := first | exact hj | decide) only [restWords, slot_storeWord]
  by_cases h29 : j = 29
  · simp [h29]
  · simp only [h29, if_false]

/-- What `save_all` leaves, called from the place before `label j`. -/
structure SaveAll (j : Nat) (c f : Cpu) : Prop where
  pc : f.pc = label j
  sp : f.regs SP = debugFrame
  arg : f.regs 1 = debugFrame
  ea : f.regs EA_REG = c.regs EA_REG
  ba : f.regs BA_REG = c.regs BA_REG
  csrs : f.csrs = c.csrs
  regs : ∀ r : Reg, r ≠ 0 → r ≠ RA_REG → slot f.mem debugFrame r.toNat = c.regs r
  ra : slot f.mem debugFrame 29 = slot c.mem debugFrame 39
  eid : slot f.mem debugFrame 33 = (label j &&& 0xff) >>> 5
  saved : ∀ csr : Csr, ∀ k, (k, csr) ∈ [(34, .EBA), (35, .DEBA), (36, .IE), (37, .IM), (38, .IP)] →
    slot f.mem debugFrame k = c.csrs.read csr

/-- `save_all` stores the registers and CSRs and returns to its caller. -/
theorem saveAll_spec {j : Nat} (hie : c.csrs.ie = v) (hpc : c.pc = label SAVE_ALL)
    (hstack : c.regs 0 = debugStack) (hra : c.regs RA_REG = label j) (hj : j < CLEAR_BSS) :
    ∃ f, Runs v (next handle) c f ∧ SaveAll j c f := by
  obtain ⟨hruns, hend⟩ := runs_quiet handle
    ((.addi 0 0 (-156) :: saves 0 savedRegs) ++ saveRest) hie hpc (by decide) (by decide)
    (by decide)
  rw [List.cons_append, block_cons, block_append] at hruns hend
  -- the three parts of the straight piece
  generalize hc1 : (Instr.addi 0 0 (-156)).exec c = c1 at hruns hend
  have hbase : c1.regs 0 = debugFrame := by
    rw [← hc1]
    show Function.update c.regs 0 (c.regs 0 + _) 0 = debugFrame
    rw [Function.update_self, hstack]
    decide
  have hkept : ∀ r, r ≠ 0 → c1.regs r = c.regs r := by
    intro r hr
    rw [← hc1]
    exact Function.update_of_ne hr _ _
  have hcsrs1 : c1.csrs = c.csrs := by rw [← hc1]; rfl
  have hmem1 : c1.mem = c.mem := by rw [← hc1]; rfl
  obtain ⟨hregs2, hcsrs2, hwords, hothers⟩ := Lm32.saves_spec (c := c1) (y := 0) (l := savedRegs)
    (by decide) (by decide)
  generalize block (saves 0 savedRegs) c1 = c2 at hruns hend hregs2 hcsrs2 hwords hothers
  rw [hbase] at hwords hothers
  obtain ⟨hmem3, hcsrs3, hsp, harg, hra3, hea, hba⟩ := saveRest_spec (c := c2) (a := debugFrame)
    (by rw [hregs2, hbase])
  generalize block saveRest c2 = c3 at hruns hend hmem3 hcsrs3 hsp harg hra3 hea hba
  rw [hregs2] at hra3 hea hba hmem3
  rw [hkept _ (by decide)] at hra3 hea hba hmem3
  rw [hcsrs2, hcsrs1] at hcsrs3 hmem3
  have hret : next handle c3 = some ((Instr.b RA_REG).exec c3) :=
    next_instr handle hend (by decide) rfl ⟨by decide, by decide⟩
  have hmem : ((Instr.b RA_REG).exec c3).mem = restWords c2.mem debugFrame c.csrs (c.regs RA_REG) :=
    hmem3
  refine ⟨_, hruns.tail ⟨by rw [hcsrs3, hie], hret⟩, ?_, hsp, harg, hea, hba, ?_,
    fun r hr hne => ?_, ?_, ?_, fun csr k hk => ?_⟩
  · show c3.regs RA_REG &&& ~~~3 = label j
    rw [hra3, hra, label_aligned j hj]
  · rw [← hcsrs3]
    rfl
  · have hplace : ∀ r : Reg, r ≠ 0 → r ≠ RA_REG →
        (r.toNat, r) ∈ savedRegs ∧ r.toNat ≠ 0 ∧ r.toNat ≠ 29 := by decide
    obtain ⟨hin, hne0, hne29⟩ := hplace r hr hne
    have hlt : r.toNat < 32 := r.isLt
    rw [hmem, restWords_slot (by omega), if_neg hne0, if_neg hne29, if_neg (by omega),
      if_neg (by omega), if_neg (by omega), if_neg (by omega), if_neg (by omega),
      if_neg (by omega), hwords _ hin, hkept r hr]
  · rw [hmem, restWords_slot (by decide)]
    show slot c2.mem debugFrame 39 = _
    rw [hothers 39 (by decide) (by decide), hmem1]
  · rw [hmem, restWords_slot (by decide), hra]
    rfl
  · simp only [List.mem_cons, Prod.mk.injEq, List.not_mem_nil, or_false] at hk
    rw [hmem]
    obtain ⟨rfl, rfl⟩ | ⟨rfl, rfl⟩ | ⟨rfl, rfl⟩ | ⟨rfl, rfl⟩ | ⟨rfl, rfl⟩ := hk <;>
      exact restWords_slot (by decide)

/-- `ea` and `ba`, whichever of them holds the PC. -/
theorem returnReg_cases (eid : Nat) :
    (returnReg eid = BA_REG ∧ otherReg eid = EA_REG ∧ restorePath eid = B_RESTORE_AND_RETURN) ∨
      (returnReg eid = EA_REG ∧ otherReg eid = BA_REG ∧
        restorePath eid = E_RESTORE_AND_RETURN) := by
  rw [returnReg, otherReg, restorePath]
  split_ifs
  · exact .inl ⟨rfl, rfl, rfl⟩
  · exact .inr ⟨rfl, rfl, rfl⟩

/-- The number of a handler, as `save_all` works it out from its return address. -/
theorem eid_of_label : ∀ eid < 8, (label (8 * eid + 5) &&& 0xff) >>> 5 = .ofNat 32 eid := by
  decide

/-- What a handler calls `handle_exception` with. -/
structure Called (eid : Nat) (c called : Cpu) : Prop where
  pc : called.pc = handleException
  ra : called.regs RA_REG = label (8 * eid + 7)
  sp : called.regs SP = debugFrame
  arg : called.regs 1 = debugFrame
  csrs : called.csrs = c.csrs
  frame : FrameHolds eid c called.mem

/-- Every handler calls `handle_exception` with its context in the frame. -/
theorem called_spec (hie : c.csrs.ie = v) (hlow : 1 ≤ eid) (hhigh : eid ≤ 7)
    (hpc : c.pc = handlerAddress eid) :
    ∃ called, Runs v (next handle) c called ∧ Called eid c called := by
  obtain ⟨c1, hruns1, hpc1, hstack, hra1, hregs1, hcsrs1, hspill⟩ :=
    enter_spec handle hie hlow hhigh hpc
  obtain ⟨c2, hruns2, hsave⟩ := saveAll_spec handle (hcsrs1 ▸ hie) hpc1 hstack hra1
    (show 8 * eid + 5 < 172 by omega)
  -- the PC is stored behind the registers
  have hstore : next handle c2 = some ((Instr.sw SP 128 (returnReg eid)).exec c2) :=
    next_instr handle hsave.pc (by omega) ((handler_instr hlow hhigh (by decide)).trans rfl)
      ⟨by simp, by simp⟩
  generalize hc3 : (Instr.sw SP 128 (returnReg eid)).exec c2 = c3 at hstore
  have hpc3 : c3.pc = label (8 * eid + 6) := by
    rw [← hc3, ← label_succ, ← hsave.pc]
    rfl
  have hregs3 : c3.regs = c2.regs := by rw [← hc3]; rfl
  have hcsrs3 : c3.csrs = c.csrs := by rw [← hc3, ← hcsrs1, ← hsave.csrs]; rfl
  have hreturn : c2.regs (returnReg eid) = c.regs (returnReg eid) := by
    obtain ⟨hreg, -⟩ | ⟨hreg, -⟩ := returnReg_cases eid
    · rw [hreg, hsave.ba, hregs1 _ (by decide) (by decide)]
    · rw [hreg, hsave.ea, hregs1 _ (by decide) (by decide)]
  have hmem3 : c3.mem = storeWord c2.mem (after debugFrame 32) (c.regs (returnReg eid)) := by
    rw [← hc3, ← hreturn, ← hsave.sp]
    exact @Lm32.sw_mem c2 (returnReg eid) SP 32 (by decide)
  have hcall : next handle c3 = some ((Instr.calli handleException).exec c3) :=
    next_instr handle hpc3 (by omega) ((handler_instr hlow hhigh (by decide)).trans rfl)
      ⟨by simp, by simp⟩
  have hregs4 := calli_regs hpc3 handleException
  have hother : ∀ j < 64, j ≠ 32 →
      slot ((Instr.calli handleException).exec c3).mem debugFrame j = slot c2.mem debugFrame j := by
    intro j hj hne
    show slot c3.mem debugFrame j = _
    rw [hmem3, slot_storeWord (by decide) hj, if_neg hne]
  have hcsr : ∀ csr k, (k, csr) ∈ [(34, Csr.EBA), (35, .DEBA), (36, .IE), (37, .IM), (38, .IP)] →
      slot c2.mem debugFrame k = c.csrs.read csr := by
    intro csr k hk
    rw [hsave.saved csr k hk, hcsrs1]
  have hie2 : c2.csrs.ie = v := by rw [hsave.csrs, hcsrs1, hie]
  have hie3 : c3.csrs.ie = v := by rw [hcsrs3, hie]
  refine ⟨_, ((hruns1.trans hruns2).tail ⟨hie2, hstore⟩).tail ⟨hie3, hcall⟩, rfl, ?_, ?_, ?_,
    hcsrs3, fun r hr => ?_, ?_, ?_, ?_, ?_, ?_, ?_, ?_⟩
  · rw [hregs4, Function.update_self]
  · rw [hregs4, Function.update_of_ne (by decide), hregs3, hsave.sp]
  · rw [hregs4, Function.update_of_ne (by decide), hregs3, hsave.arg]
  · have hlt : r.toNat < 32 := r.isLt
    rw [hother _ (by omega) (by omega)]
    by_cases hra : r = RA_REG
    · rw [hra]
      exact hsave.ra.trans hspill
    · rw [hsave.regs r hr hra, hregs1 r hr hra]
  · show slot c3.mem debugFrame 32 = _
    rw [hmem3, slot_storeWord (by decide) (by decide), if_pos rfl]
  · rw [hother _ (by decide) (by decide), hsave.eid, eid_of_label eid (by omega)]
  · rw [hother _ (by decide) (by decide), hcsr .EBA 34 (by decide)]
  · rw [hother _ (by decide) (by decide), hcsr .DEBA 35 (by decide)]
  · rw [hother _ (by decide) (by decide), hcsr .IE 36 (by decide)]
  · rw [hother _ (by decide) (by decide), hcsr .IM 37 (by decide)]
  · rw [hother _ (by decide) (by decide), hcsr .IP 38 (by decide)]

end Save

section Restore

variable (handle : Cpu → Cpu) {c d : Cpu} {eid : Nat} {v : Bool}

/-- The straight instructions of a restore path. `x` is loaded with the PC and `y` with the other
return register, which is at `offset` in the frame. -/
def restoreTail (x y : Reg) (offset : BitVec 16) : List Instr :=
  [.lw RA_REG SP 116,
    .lw y SP offset,
    .lw x SP 136, .wcsr .EBA x,
    .lw x SP 140, .wcsr .DEBA x,
    .lw x SP 144, .wcsr .IE x,
    .lw x SP 148, .wcsr .IM x,
    .lw x SP 128,
    .lw SP SP 112]

/-- The CSRs after their words of the frame were written to them. -/
def restoreCsrs (mem : Word → Byte) (a : Word) (s : Csrs) : Csrs :=
  let s := s.write .EBA (slot mem a 34)
  let s := s.write .DEBA (slot mem a 35)
  let s := s.write .IE (slot mem a 36)
  s.write .IM (slot mem a 37)

/-- What the straight instructions of a restore path leave. -/
structure Tail (x y : Reg) (d f : Cpu) : Prop where
  mem : f.mem = d.mem
  csrs : f.csrs = restoreCsrs d.mem (d.regs SP) d.csrs
  pc : f.regs x = slot d.mem (d.regs SP) 32
  other : f.regs y = slot d.mem (d.regs SP) y.toNat
  ra : f.regs RA_REG = slot d.mem (d.regs SP) 29
  sp : f.regs SP = slot d.mem (d.regs SP) 28
  others : ∀ r, r < SP → f.regs r = d.regs r

theorem restoreTail_spec (d : Cpu) {x y : Reg} {offset : BitVec 16}
    (hoffset : offset = .ofNat 16 (4 * y.toNat)) (hx : RA_REG < x) (hy : RA_REG < y) (hxy : x ≠ y) :
    Tail x y d (block (restoreTail x y offset) d) := by
  have hsp : SP < RA_REG := by decide
  have hspra : SP ≠ RA_REG := by decide
  have hspx : SP ≠ x := by bv_omega
  have hspy : SP ≠ y := by bv_omega
  have hrax : RA_REG ≠ x := by bv_omega
  have hray : RA_REG ≠ y := by bv_omega
  have haddress : d.regs SP + offset.signExtend 32 = after (d.regs SP) y.toNat := by
    rw [hoffset, Lm32.signExtend_offset _ (Nat.lt_of_lt_of_le y.isLt (by decide)), after]
  have hregs : (block (restoreTail x y offset) d).regs =
      Function.update (Function.update (Function.update (Function.update d.regs
        RA_REG (slot d.mem (d.regs SP) 29)) y (slot d.mem (d.regs SP) y.toNat))
        x (slot d.mem (d.regs SP) 32)) SP (slot d.mem (d.regs SP) 28) := by
    simp only [restoreTail, block_cons, block_nil, Instr.exec, Cpu.put, Cpu.address,
      Function.update_of_ne hspx, Function.update_of_ne hspy, Function.update_of_ne hspra,
      Function.update_idem, haddress]
    rfl
  constructor
  · simp only [restoreTail, block_cons, block_nil, Instr.exec, Cpu.put]
  · simp only [restoreTail, block_cons, block_nil, Instr.exec, Cpu.put, Cpu.address,
      Function.update_self, Function.update_of_ne hspx, Function.update_of_ne hspy,
      Function.update_of_ne hspra]
    rfl
  · rw [hregs, Function.update_of_ne hspx.symm, Function.update_self]
  · rw [hregs, Function.update_of_ne hspy.symm, Function.update_of_ne hxy.symm,
      Function.update_self]
  · rw [hregs, Function.update_of_ne hspra.symm, Function.update_of_ne hrax,
      Function.update_of_ne hray, Function.update_self]
  · rw [hregs, Function.update_self]
  · intro r hr
    have hrx : r ≠ x := by bv_omega
    have hry : r ≠ y := by bv_omega
    have hrsp : r ≠ SP := by bv_omega
    have hrra : r ≠ RA_REG := by bv_omega
    rw [hregs, Function.update_of_ne hrsp, Function.update_of_ne hrx, Function.update_of_ne hry,
      Function.update_of_ne hrra]

/-- The registers `restore_gp` loads, with their places in the frame. -/
def restoredRegs : List (Nat × Reg) :=
  (List.range' 1 27).map fun k => (k, .ofNat 5 k)

/-- The straight instructions of the restore path of a handler. -/
def tailOf (eid : Nat) : List Instr :=
  restoreTail (returnReg eid) (otherReg eid) (.ofNat 16 (4 * (otherReg eid).toNat))

/-- A restore path in the text. -/
theorem restore_text (eid : Nat) :
    restorePath eid + 13 < CLEAR_BSS ∧
      crt0[restorePath eid]? = some (.calli (label RESTORE_GP)) ∧
      (crt0.drop (restorePath eid + 1)).take 12 = tailOf eid ∧
      crt0[restorePath eid + 13]? = some (.b (returnReg eid)) := by
  rw [tailOf]
  obtain ⟨hx, hy, hpath⟩ | ⟨hx, hy, hpath⟩ := returnReg_cases eid
  · rw [hx, hy, hpath]
    decide
  · rw [hx, hy, hpath]
    decide

/-- The instructions before the write to IE, and those behind it, leave IE alone. -/
theorem tailOf_quiet (eid : Nat) :
    (∀ i ∈ (tailOf eid).take 7, i.Quiet) ∧ ∀ i ∈ (tailOf eid).drop 8, i.Quiet := by
  rw [tailOf]
  obtain ⟨hx, hy, -⟩ | ⟨hx, hy, -⟩ := returnReg_cases eid
  · rw [hx, hy]
    decide
  · rw [hx, hy]
    decide

/-- The straight instructions run through. Behind the write to IE, IE.IE is as it is at the end. -/
theorem tailOf_runs (hie : d.csrs.ie = v) (hpc : d.pc = label (restorePath eid + 1)) :
    ∃ e, Runs v (next handle) d e ∧
      Runs (block (tailOf eid) d).csrs.ie (next handle) e (block (tailOf eid) d) ∧
      (block (tailOf eid) d).pc = label (restorePath eid + 13) := by
  obtain ⟨hplace, -, htext, -⟩ := restore_text eid
  rw [CLEAR_BSS] at hplace
  obtain ⟨hbefore, hbehind⟩ := tailOf_quiet eid
  have hsplit : tailOf eid = (tailOf eid).take 7 ++ .wcsr .IE (returnReg eid) ::
      (tailOf eid).drop 8 := rfl
  have hget : ∀ k < 12, crt0[restorePath eid + 1 + k]? = (tailOf eid)[k]? := by
    intro k hk
    rw [← htext, List.getElem?_take, if_pos hk, List.getElem?_drop]
  have hfirst : (crt0.drop (restorePath eid + 1)).take 7 = (tailOf eid).take 7 := by
    rw [← htext, List.take_take]
    rfl
  have hsecond : (crt0.drop (restorePath eid + 9)).take 4 = (tailOf eid).drop 8 := by
    rw [← htext, List.drop_take, List.drop_drop]
  obtain ⟨hruns, hnext⟩ := runs_quiet handle ((tailOf eid).take 7) hie hpc
    (show restorePath eid + 1 + 7 ≤ 482 by omega) hbefore hfirst
  generalize he : block ((tailOf eid).take 7) d = e at hruns hnext
  have hpce : e.pc = label (restorePath eid + 8) := hnext
  have hwrite : next handle e = some ((Instr.wcsr .IE (returnReg eid)).exec e) :=
    next_instr handle hpce (by omega) ((hget 7 (by decide)).trans rfl) ⟨by simp, by simp⟩
  have hend : block (tailOf eid) d =
      block ((tailOf eid).drop 8) ((Instr.wcsr .IE (returnReg eid)).exec e) := by
    rw [hsplit, block_append, block_cons, ← he]
    rfl
  have hpc' : ((Instr.wcsr .IE (returnReg eid)).exec e).pc = label (restorePath eid + 9) := by
    rw [← label_succ, ← hpce]
    rfl
  have hlast := Lm32.block_ie (c := (Instr.wcsr .IE (returnReg eid)).exec e) hbehind
  obtain ⟨hruns', hnext'⟩ := runs_quiet handle ((tailOf eid).drop 8) hlast.symm hpc'
    (show restorePath eid + 9 + 4 ≤ 482 by omega) hbehind hsecond
  have hie' : e.csrs.ie = v := by rw [← he, Lm32.block_ie hbefore, hie]
  refine ⟨_, hruns.tail ⟨hie', hwrite⟩, ?_, ?_⟩
  · rw [hend]
    exact hruns'
  · rw [hend]
    exact hnext'

/-- What the straight instructions leave. -/
theorem tailOf_spec (eid : Nat) (d : Cpu) :
    Tail (returnReg eid) (otherReg eid) d (block (tailOf eid) d) := by
  rw [tailOf]
  obtain ⟨hx, hy, -⟩ | ⟨hx, hy, -⟩ := returnReg_cases eid
  · rw [hx, hy]
    exact restoreTail_spec d rfl (by decide) (by decide) (by decide)
  · rw [hx, hy]
    exact restoreTail_spec d rfl (by decide) (by decide) (by decide)

/-- `restore_gp` loads the registers and returns to its caller. -/
theorem restoreGp_spec {j : Nat} (hie : d.csrs.ie = v) (hpc : d.pc = label RESTORE_GP)
    (hra : d.regs RA_REG = label j) (hj : j < CLEAR_BSS) :
    ∃ f, Runs v (next handle) d f ∧ f.pc = label j ∧ f.csrs = d.csrs ∧ f.mem = d.mem ∧
      f.regs SP = d.regs SP ∧
      ∀ r : Reg, r ≠ 0 → r < SP → f.regs r = slot d.mem (d.regs SP) r.toNat := by
  obtain ⟨hruns, hend⟩ := runs_quiet handle (loads SP restoredRegs) hie hpc (by decide) (by decide)
    (by decide)
  obtain ⟨hmem, hcsrs, hwords, hothers⟩ := Lm32.loads_spec (c := d) (y := SP) (l := restoredRegs)
    (by decide) (by decide) (by decide)
  generalize block (loads SP restoredRegs) d = d1 at hruns hend hmem hcsrs hwords hothers
  have hret : next handle d1 = some ((Instr.b RA_REG).exec d1) :=
    next_instr handle hend (by decide) rfl ⟨by decide, by decide⟩
  refine ⟨_, hruns.tail ⟨by rw [hcsrs, hie], hret⟩, ?_, ?_, hmem, hothers SP (by decide),
    fun r hr hsp => ?_⟩
  · show d1.regs RA_REG &&& ~~~3 = label j
    rw [hothers RA_REG (by decide), hra, label_aligned j hj]
  · rw [← hcsrs]
    rfl
  · have hplace : ∀ r : Reg, r ≠ 0 → r < SP → (r.toNat, r) ∈ restoredRegs := by decide
    exact hwords _ (hplace r hr hsp)

/-- What the CSRs hold after their words of the frame were written to them. -/
theorem restoreCsrs_read (mem : Word → Byte) (a : Word) (s : Csrs) :
    (restoreCsrs mem a s).read .EBA = slot mem a 34 &&& 0xffffff00 ∧
      (restoreCsrs mem a s).read .DEBA = slot mem a 35 &&& 0xffffff00 ∧
      (restoreCsrs mem a s).read .IE = slot mem a 36 &&& 7 ∧
      (restoreCsrs mem a s).read .IM = slot mem a 37 :=
  ⟨Lm32.high_bits _, Lm32.high_bits _, Lm32.low_bits _, rfl⟩

/-- After `handle_exception` the context of the frame is restored. IE.IE becomes what the frame says
on the way. -/
theorem returned_spec (hie : d.csrs.ie = v) (hlow : 1 ≤ eid) (hhigh : eid ≤ 7)
    (hpc : d.pc = label (8 * eid + 7)) (hsp : d.regs SP = debugFrame) :
    ∃ e f, Runs v (next handle) d e ∧ Runs f.csrs.ie (next handle) e f ∧ AtReturn eid f ∧
      f.mem = d.mem ∧ Restored eid d.mem f ∧ f.csrs.ie = bit (slot d.mem debugFrame 36) 0 := by
  obtain ⟨hplace, hcallText, -, -⟩ := restore_text eid
  rw [CLEAR_BSS] at hplace
  have hjump : next handle d = some ((Instr.bi (label (restorePath eid))).exec d) :=
    next_instr handle hpc (by omega) ((handler_instr hlow hhigh (by decide)).trans rfl)
      ⟨by simp, by simp⟩
  generalize hd1 : (Instr.bi (label (restorePath eid))).exec d = d1 at hjump
  have hpc1 : d1.pc = label (restorePath eid) := by rw [← hd1]; rfl
  have hregs1 : d1.regs = d.regs := by rw [← hd1]; rfl
  have hmem1 : d1.mem = d.mem := by rw [← hd1]; rfl
  have hie1 : d1.csrs.ie = v := by rw [← hie, ← hd1]; rfl
  have hcall : next handle d1 = some ((Instr.calli (label RESTORE_GP)).exec d1) :=
    next_instr handle hpc1 (by omega) hcallText ⟨by simp, by simp⟩
  have hregs2 := calli_regs hpc1 (label RESTORE_GP)
  generalize hd2 : (Instr.calli (label RESTORE_GP)).exec d1 = d2 at hcall hregs2
  have hpc2 : d2.pc = label RESTORE_GP := by rw [← hd2]; rfl
  have hmem2 : d2.mem = d.mem := by rw [← hmem1, ← hd2]; rfl
  have hie2 : d2.csrs.ie = v := by rw [← hie1, ← hd2]; rfl
  have hsp2 : d2.regs SP = debugFrame := by
    rw [hregs2, Function.update_of_ne (by decide), hregs1, hsp]
  obtain ⟨d3, hruns3, hpc3, hcsrs3, hmem3, hsp3, hgp⟩ := restoreGp_spec handle hie2 hpc2
    (j := restorePath eid + 1) (by rw [hregs2, Function.update_self])
    (show restorePath eid + 1 < 172 by omega)
  rw [hsp2] at hsp3 hgp
  rw [hmem2] at hmem3 hgp
  have hie3 : d3.csrs.ie = v := by rw [hcsrs3, hie2]
  obtain ⟨e, hruns4, hruns5, hend⟩ := tailOf_runs handle hie3 hpc3
  have htail := tailOf_spec eid d3
  generalize block (tailOf eid) d3 = f at hruns5 hend htail
  obtain ⟨hmem, hcsrs, hpcReg, hother, hra, hspf, hothers⟩ := htail
  rw [hsp3, hmem3] at hcsrs hpcReg hother hra hspf
  obtain ⟨heba, hdeba, hread, him⟩ := restoreCsrs_read d.mem debugFrame d3.csrs
  have hbit : f.csrs.ie = bit (slot d.mem debugFrame 36) 0 := by rw [hcsrs]; rfl
  rw [← hcsrs] at heba hdeba hread him
  refine ⟨e, f, .head ⟨hie, hjump⟩ (.head ⟨hie1, hcall⟩ (hruns3.trans hruns4)), hruns5, hend,
    hmem.trans hmem3, ⟨fun r hr hle => ?_, hpcReg, hother, heba, hdeba, hread, him⟩, hbit⟩
  have hcases : ∀ r : Reg, r ≤ RA_REG → r < SP ∨ r = SP ∨ r = RA_REG := by decide
  obtain hgpr | rfl | rfl := hcases r hle
  · rw [hothers r hgpr, hgp r hr hgpr]
  · exact hspf
  · exact hra

/-- The end of a restore path is where a run ends. -/
theorem AtReturn.ends {f : Cpu} (h : AtReturn eid f) : next handle f = none := by
  obtain ⟨hplace, -, -, hreturn⟩ := restore_text eid
  rw [CLEAR_BSS] at hplace
  refine next_return handle h (by omega) ?_
  obtain ⟨hx, -⟩ | ⟨hx, -⟩ := returnReg_cases eid
  · rw [hx] at hreturn
    exact .inr hreturn
  · rw [hx] at hreturn
    exact .inl hreturn

end Restore

/-- The CSRs keep what they were read as. -/
theorem read_masked (s : Csrs) :
    s.read .EBA &&& 0xffffff00 = s.read .EBA ∧ s.read .DEBA &&& 0xffffff00 = s.read .DEBA ∧
      s.read .IE &&& 7 = s.read .IE := by
  have hbase : ∀ v : BitVec 24, (v ++ (0 : BitVec 8)) &&& 0xffffff00 = v ++ (0 : BitVec 8) := by
    intro v
    rw [← Lm32.high_bits]
    congr 1
    apply BitVec.eq_of_getLsbD_eq
    intro i hi
    have hback : 8 + i - 8 = i := by omega
    have hhigh : ¬ 8 + i < 8 := by omega
    rw [BitVec.getLsbD_extractLsb', BitVec.getLsbD_append]
    simp [hi, hback, hhigh]
  refine ⟨hbase _, hbase _, ?_⟩
  cases hie : s.ie <;> cases heie : s.eie <;> cases hbie : s.bie <;>
    simp only [Csrs.read, hie, heie, hbie] <;> decide

/-- If nothing was edited, the context is the one in which the handler was entered. -/
theorem unchanged_of_unedited {eid : Nat} {c f : Cpu} {mem mem' : Word → Byte}
    (hframe : FrameHolds eid c mem) (hrestored : Restored eid mem' f) (h : Unedited mem mem') :
    Unchanged c f := by
  have hplace : ∀ r : Reg, r ≠ 0 → 1 ≤ r.toNat ∧ r.toNat ≤ 37 ∧ r.toNat ≠ 33 := by decide
  have hword : ∀ r : Reg, r ≠ 0 → slot mem' debugFrame r.toNat = c.regs r := by
    intro r hr
    obtain ⟨hlow, hhigh, hne⟩ := hplace r hr
    rw [h _ hlow hhigh hne, hframe.regs r hr]
  obtain ⟨heba, hdeba, hie⟩ := read_masked c.csrs
  constructor
  · intro r hr
    have hpc : f.regs (returnReg eid) = c.regs (returnReg eid) := by
      rw [hrestored.pc, h 32 (by decide) (by decide) (by decide), hframe.pc]
    have hcases : ∀ r : Reg, r ≤ RA_REG ∨ r = EA_REG ∨ r = BA_REG := by decide
    obtain hle | hlast := hcases r
    · rw [hrestored.regs r hr hle, hword r hr]
    · have hother := hrestored.other
      obtain ⟨hx, hy, -⟩ | ⟨hx, hy, -⟩ := returnReg_cases eid
      · rw [hy, hword _ (by decide)] at hother
        rw [hx] at hpc
        obtain rfl | rfl := hlast
        · exact hother
        · exact hpc
      · rw [hy, hword _ (by decide)] at hother
        rw [hx] at hpc
        obtain rfl | rfl := hlast
        · exact hpc
        · exact hother
  · rw [hrestored.eba, h 34 (by decide) (by decide) (by decide), hframe.eba, heba]
  · rw [hrestored.deba, h 35 (by decide) (by decide) (by decide), hframe.deba, hdeba]
  · rw [hrestored.ie, h 36 (by decide) (by decide) (by decide), hframe.ie, hie]
  · rw [hrestored.im, h 37 (by decide) (by decide) (by decide), hframe.im]

/-- A word of the frame is the register that GDB sees under its number. -/
theorem slot_eq_register {s : Stub} (h : s.registers = debugFrame) (k : Nat) :
    slot s.mem debugFrame k = readWord s.mem (s.regAddr (.ofNat 32 k)) := by
  have haddress : s.regAddr (.ofNat 32 k) = after debugFrame k := by
    rw [Stub.regAddr, h, after]
    congr 1
    apply BitVec.eq_of_toNat_eq
    simp [BitVec.toNat_mul]
    omega
  have hnext : ∀ a : Word, a + 1 + 1 = a + 2 ∧ a + 2 + 1 = a + 3 := by
    intro a
    constructor <;> rw [BitVec.add_assoc] <;> rfl
  rw [haddress, slot, loadWord, readWord, (hnext _).1, (hnext _).2]

/-- A handler calls `handle_exception` with its context in the frame, and the run then ends at the
return of its restore path with the context that is in the frame, which is the old one if nothing
was edited. As the exception has cleared IE.IE, no interrupt comes in between unless IE.IE was set
in the frame. -/
theorem context_restored {handle : Cpu → Cpu} (hconv : ObeysCallingConvention handle) {eid : Nat}
    (hlow : 1 ≤ eid) (hhigh : eid ≤ 7) {c : Cpu} (hentry : c.pc = handlerAddress eid) :
    ∃ called f, Steps (next handle) c called ∧ Called eid c called ∧
      Steps (next handle) (handle called) f ∧ AtReturn eid f ∧
      (∀ f', Steps (next handle) c f' → next handle f' = none → f' = f) ∧
      (c.csrs.ie = false → bit (slot (handle called).mem debugFrame 36) 0 = false →
        ∀ service f', Relation.ReflTransGen (Interruptible handle service) c f' →
          Steps (next handle) c f') ∧
      f.mem = (handle called).mem ∧ Restored eid (handle called).mem f ∧
      (Unedited called.mem (handle called).mem → Unchanged c f) := by
  obtain ⟨called, hruns, hcalled⟩ := called_spec handle (v := c.csrs.ie) rfl hlow hhigh hentry
  have hcalledIe : called.csrs.ie = c.csrs.ie := by rw [hcalled.csrs]
  have hhandledIe : (handle called).csrs.ie = c.csrs.ie := (hconv.ie called).trans hcalledIe
  obtain ⟨e, f, hbefore, hbehind, hend, hmem, hrestored, hbit⟩ := returned_spec handle hhandledIe
    hlow hhigh ((hconv.returns called).trans hcalled.ra)
    ((hconv.saved called SP (by decide) (by decide)).trans hcalled.sp)
  have hhandle : next handle called = some (handle called) := if_pos hcalled.pc
  have hreturn : Steps (next handle) (handle called) f := hbefore.steps.trans hbehind.steps
  refine ⟨called, f, hruns.steps, hcalled, hreturn, hend, fun f' hsteps' hend' => ?_,
    fun hoff hclear service f' hsteps' => ?_, hmem, hrestored,
    unchanged_of_unedited hcalled.frame hrestored⟩
  · exact Lm32.steps_unique hsteps' hend' ((hruns.steps.tail hhandle).trans hreturn)
      (hend.ends handle)
  · -- IE.IE stays clear up to the return
    rw [hbit, hclear] at hbehind
    rw [hoff] at hruns hbefore hcalledIe
    have hrun : Runs false (next handle) c f :=
      (hruns.tail ⟨hcalledIe, hhandle⟩).trans (hbefore.trans hbehind)
    refine Library.Determinism.only_run (fun x y hquiet hstep => ?_) hrun (hbit.trans hclear)
      (hend.ends handle) hsteps'
    obtain hnext | ⟨ip, remap, henabled, -⟩ := hstep
    · exact hnext
    · rw [hquiet] at henabled
      cases henabled

/-- A CPU in front of a handler. IM lets interrupt 0 through. -/
def entered (eid : Nat) : Cpu where
  pc := handlerAddress eid
  regs r := 0x40001000 + r.setWidth 32
  csrs := ⟨0x400000, 0x100000, false, false, true, 1, 0⟩
  mem _ := 0

/-- A `handle_exception` that stores one word into the frame. -/
def edit (k : Nat) (value : Word) (c : Cpu) : Cpu :=
  { c with
    pc := c.regs RA_REG
    mem := storeWord c.mem (after debugFrame k) value }

theorem edit_obeys (k : Nat) (value : Word) : ObeysCallingConvention (edit k value) :=
  ⟨fun _ => rfl, fun _ _ _ _ => rfl, fun _ => rfl⟩

/-- The words of the frame after the edit. -/
theorem edit_slot {k j : Nat} (hk : k < 64) (hj : j < 64) (value : Word) (c : Cpu) :
    slot (edit k value c).mem debugFrame j = if j = k then value else slot c.mem debugFrame j :=
  slot_storeWord hk hj

/-- A breakpoint at which GDB moves the PC: the other registers come back, and interrupts wait. -/
theorem context_restored_breakpoint :
    ∃ called f, Steps (next (edit 32 0x40000100)) (entered 1) called ∧ Called 1 (entered 1) called ∧
      Steps (next (edit 32 0x40000100)) (edit 32 0x40000100 called) f ∧ AtReturn 1 f ∧
      f.regs BA_REG = 0x40000100 ∧
      (∀ r : Reg, r ≠ 0 → r ≤ RA_REG → f.regs r = 0x40001000 + r.setWidth 32) ∧
      ∀ service f',
        Relation.ReflTransGen (Interruptible (edit 32 0x40000100) service) (entered 1) f' →
          Steps (next (edit 32 0x40000100)) (entered 1) f' := by
  obtain ⟨called, f, hsteps, hcalled, hreturn, hend, -, hquiet, -, hrestored, -⟩ :=
    context_restored (edit_obeys 32 0x40000100) (show 1 ≤ 1 by decide) (by decide)
      (show (entered 1).pc = handlerAddress 1 from rfl)
  refine ⟨called, f, hsteps, hcalled, hreturn, hend, hrestored.pc.trans ?_, fun r hr hle => ?_,
    hquiet rfl ?_⟩
  · rw [edit_slot (by decide) (by decide), if_pos rfl]
  · have hlt : r.toNat < 32 := r.isLt
    rw [hrestored.regs r hr hle, edit_slot (by decide) (by omega), if_neg (by omega),
      hcalled.frame.regs r hr]
    rfl
  · rw [edit_slot (by decide) (by decide), if_neg (by decide), hcalled.frame.ie]
    decide

/-- Whatever may interrupt, the context meets `P` at the return. -/
def AtEveryReturn (P : Nat → (Word → Byte) → Cpu → Prop) : Prop :=
  ∀ handle service, ObeysCallingConvention handle → ∀ eid, 1 ≤ eid → eid ≤ 7 → ∀ c : Cpu,
    c.pc = handlerAddress eid → c.csrs.ie = false → ∀ called f, Steps (next handle) c called →
      Called eid c called →
        Relation.ReflTransGen (Interruptible handle service) (handle called) f → AtReturn eid f →
          P eid (handle called).mem f

/-- EBA does not take the low byte of its word of the frame, and an interrupt that comes in front of
the `bret`, after GDB has set IE.IE in the frame, overwrites `ea`. -/
theorem context_changed :
    ¬ AtEveryReturn (fun _ mem f => f.csrs.read .EBA = slot mem debugFrame 34) ∧
      ¬ AtEveryReturn fun eid mem f =>
        f.regs (otherReg eid) = slot mem debugFrame (otherReg eid).toNat := by
  have hplain : ∀ {handle service : Cpu → Cpu} {c c' : Cpu}, Steps (next handle) c c' →
      Relation.ReflTransGen (Interruptible handle service) c c' :=
    fun h => Relation.ReflTransGen.mono (fun _ _ hstep => .inl hstep) _ _ h
  constructor
  · intro h
    obtain ⟨called, hruns, hcalled⟩ := called_spec (edit 34 0x12345678) (c := entered 1) rfl
      (show 1 ≤ 1 by decide) (by decide) rfl
    obtain ⟨e, f, hbefore, hbehind, hend, -, hrestored, -⟩ := returned_spec (edit 34 0x12345678)
      (d := edit 34 0x12345678 called) rfl (show 1 ≤ 1 by decide) (by decide) hcalled.ra hcalled.sp
    have hexact := h _ id (edit_obeys 34 0x12345678) 1 (by decide) (by decide) _ rfl rfl called f
      hruns.steps hcalled (hplain (hbefore.steps.trans hbehind.steps)) hend
    simp only [hrestored.eba, edit_slot (show 34 < 64 by decide) (show 34 < 64 by decide),
      if_true] at hexact
    exact absurd hexact (by decide)
  · intro h
    obtain ⟨called, hruns, hcalled⟩ := called_spec (edit 36 1) (c := entered 1) rfl
      (show 1 ≤ 1 by decide) (by decide) rfl
    obtain ⟨e, f, hbefore, hbehind, hend, -, hrestored, hbit⟩ := returned_spec (edit 36 1)
      (d := edit 36 1 called) rfl (show 1 ≤ 1 by decide) (by decide) hcalled.ra hcalled.sp
    have hon : f.csrs.ie = true := by
      rw [hbit, edit_slot (by decide) (by decide), if_pos rfl]
      decide
    have him : f.csrs.im = 1 := by
      refine hrestored.im.trans ?_
      rw [edit_slot (by decide) (by decide), if_neg (by decide), hcalled.frame.im]
      rfl
    have hpc : f.pc = label 171 := hend
    -- the interrupt handler of the application is a bare `eret`
    have hinterrupt : Interruptible (edit 36 1) ((Instr.b EA_REG).exec) f _ :=
      .inr ⟨1, false, hon, by rw [him]; decide, rfl⟩
    have hexact := h _ _ (edit_obeys 36 1) 1 (by decide) (by decide) _ rfl rfl called _
      hruns.steps hcalled ((hplain (hbefore.steps.trans hbehind.steps)).tail hinterrupt)
      (show f.pc &&& ~~~3 = label 171 by rw [hpc, label_aligned 171 (by decide)])
    have hea : f.pc = 0x4000101e := by
      refine Eq.trans hexact ?_
      rw [edit_slot (by decide) (by decide), if_neg (by decide), hcalled.frame.regs _ (by decide)]
      rfl
    rw [hpc] at hea
    exact absurd hea (by decide)

end Crt0

end Soc.Gdbstub
