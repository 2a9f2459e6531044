import Mathlib.Tactic.IntervalCases
import Soc.Csr
import Soc.Library.Determinism
import Soc.Library.Region

/-!
# Programs of the LM32

The instructions of `crt0.S` as transitions of the programmer's model: 32 registers, of which
r0 is an ordinary one, big-endian memory, and the CSRs at the widths of `lm32_cpu.v` and
`lm32_interrupt.v`. Instructions run in program order. Between two of them an interrupt can be
taken while IE.IE is set, so runs keep record of IE.IE. A straight piece of code is run as a
whole, and words at multiples of 4 behind a common base are a frame.
-/

namespace Soc.Lm32

/-- The index of a register. -/
abbrev Reg := BitVec 5

/-- `sp`. -/
def SP : Reg := 28

/-- `LM32_RA_REG`. -/
def RA_REG : Reg := 29

/-- `LM32_EA_REG`. -/
def EA_REG : Reg := 30

/-- `LM32_BA_REG`. -/
def BA_REG : Reg := 31

/-- The CSRs a program saves. -/
inductive Csr where
  | IE
  | IM
  | IP
  | EBA
  | DEBA
  deriving DecidableEq

/-- The registers behind them. EBA and DEBA are aligned to 256 bytes, and IE has three bits. -/
structure Csrs where
  eba : BitVec 24
  deba : BitVec 24
  ie : Bool
  eie : Bool
  bie : Bool
  im : Word
  ip : Word

/-- `rcsr`: the value read. -/
def Csrs.read (s : Csrs) : Csr → Word
  | .IE => (0 : BitVec 29) ++ BitVec.ofBool s.bie ++ BitVec.ofBool s.eie ++ BitVec.ofBool s.ie
  | .IM => s.im
  | .IP => s.ip
  | .EBA => s.eba ++ (0 : BitVec 8)
  | .DEBA => s.deba ++ (0 : BitVec 8)

/-- `wcsr`: the registers after a write. A write to IP acknowledges interrupts. -/
def Csrs.write (s : Csrs) (csr : Csr) (value : Word) : Csrs :=
  match csr with
  | .IE => { s with ie := bit value 0, eie := bit value 1, bie := bit value 2 }
  | .IM => { s with im := value }
  | .IP => { s with ip := s.ip &&& ~~~value }
  | .EBA => { s with eba := value.extractLsb' 8 24 }
  | .DEBA => { s with deba := value.extractLsb' 8 24 }

/-- A word with the low byte cleared, in the two spellings. -/
theorem high_bits (v : Word) : v.extractLsb' 8 24 ++ (0 : BitVec 8) = v &&& 0xffffff00 := by
  apply BitVec.eq_of_getLsbD_eq
  intro i hi
  have hmask : (0xffffff00 : Word).getLsbD i = decide (8 ≤ i) := by
    revert i
    decide
  rw [BitVec.getLsbD_and, hmask, BitVec.getLsbD_append]
  by_cases hlow : i < 8
  · simp [hlow]
  · have hback : 8 + (i - 8) = i := by omega
    have hfits : i - 8 < 24 := by omega
    simp [hlow, hback, hfits]
    omega

/-- The three low bits of a word. -/
theorem low_bits (v : Word) :
    (0 : BitVec 29) ++ BitVec.ofBool (bit v 2) ++ BitVec.ofBool (bit v 1) ++
        BitVec.ofBool (bit v 0) =
      v &&& 7 := by
  apply BitVec.eq_of_getLsbD_eq
  intro i hi
  have hmask : (7 : Word).getLsbD i = decide (i < 3) := by
    revert i
    decide
  rw [BitVec.getLsbD_and, hmask, BitVec.getLsbD_append, BitVec.getLsbD_append,
    BitVec.getLsbD_append]
  by_cases hlow : i < 3
  · interval_cases i <;> simp [bit]
  · have h0 : i ≠ 0 := by omega
    have h1 : i - 1 ≠ 0 := by omega
    have h2 : i - 1 - 1 ≠ 0 := by omega
    simp [hlow, h0, h1, h2]

/-- Instructions. `mvhi` is `orhi` on r0, `mvi` is `addi` on r0, `mv` is `or` with r0, and `ret`,
`eret` and `bret` are `b` to `ra`, `ea` and `ba`. Targets are absolute. -/
inductive Instr where
  | xor (x y z : Reg)
  | or (x y z : Reg)
  | ori (x y : Reg) (imm : BitVec 16)
  | orhi (x y : Reg) (imm : BitVec 16)
  | andi (x y : Reg) (imm : BitVec 16)
  | addi (x y : Reg) (imm : BitVec 16)
  | srui (x y : Reg) (n : BitVec 5)
  | lw (x y : Reg) (offset : BitVec 16)
  | sw (y : Reg) (offset : BitVec 16) (x : Reg)
  | rcsr (x : Reg) (csr : Csr)
  | wcsr (csr : Csr) (x : Reg)
  | calli (target : Word)
  | bi (target : Word)
  | b (x : Reg)
  deriving DecidableEq

/-- The state a program sees. -/
structure Cpu where
  pc : Word
  regs : Reg → Word
  csrs : Csrs
  mem : Word → Byte

/-- The word at an address. -/
def loadWord (mem : Word → Byte) (a : Word) : Word :=
  mem a ++ mem (a + 1) ++ mem (a + 1 + 1) ++ mem (a + 1 + 1 + 1)

/-- The bytes of a word. -/
def wordBytes (value : Word) : List Byte :=
  [value.extractLsb' 24 8, value.extractLsb' 16 8, value.extractLsb' 8 8, value.extractLsb' 0 8]

/-- Memory with the word at an address replaced. -/
def storeWord (mem : Word → Byte) (a value : Word) : Word → Byte :=
  Library.Region.store mem a (wordBytes value)

namespace Cpu

/-- A result is written, and the next instruction follows. -/
def put (c : Cpu) (x : Reg) (value : Word) : Cpu :=
  { c with
    pc := c.pc + 4
    regs := Function.update c.regs x value }

/-- The register that is written. -/
theorem put_self (c : Cpu) (x : Reg) (value : Word) : (c.put x value).regs x = value := by
  simp only [put, Function.update_self]

/-- The other registers. -/
theorem put_of_ne (c : Cpu) {r x : Reg} (h : r ≠ x) (value : Word) :
    (c.put x value).regs r = c.regs r := by
  simp only [put, Function.update_of_ne h]

/-- The address of a load or store. -/
def address (c : Cpu) (y : Reg) (offset : BitVec 16) : Word :=
  c.regs y + offset.signExtend 32

end Cpu

/-- The state after an instruction. The two low bits of a branch target are dropped. -/
def Instr.exec (i : Instr) (c : Cpu) : Cpu :=
  match i with
  | .xor x y z => c.put x (c.regs y ^^^ c.regs z)
  | .or x y z => c.put x (c.regs y ||| c.regs z)
  | .ori x y imm => c.put x (c.regs y ||| imm.setWidth 32)
  | .orhi x y imm => c.put x (c.regs y ||| imm ++ (0 : BitVec 16))
  | .andi x y imm => c.put x (c.regs y &&& imm.setWidth 32)
  | .addi x y imm => c.put x (c.regs y + imm.signExtend 32)
  | .srui x y n => c.put x (c.regs y >>> n)
  | .lw x y offset => c.put x (loadWord c.mem (c.address y offset))
  | .sw y offset x =>
      { c with
        pc := c.pc + 4
        mem := storeWord c.mem (c.address y offset) (c.regs x) }
  | .rcsr x csr => c.put x (c.csrs.read csr)
  | .wcsr csr x =>
      { c with
        pc := c.pc + 4
        csrs := c.csrs.write csr (c.regs x) }
  | .calli target =>
      { c with
        pc := target
        regs := Function.update c.regs RA_REG (c.pc + 4) }
  | .bi target => { c with pc := target }
  | .b x =>
      { c with
        pc := c.regs x &&& ~~~3
        csrs := { c.csrs with
          ie := if x = EA_REG then c.csrs.eie else if x = BA_REG then c.csrs.bie else c.csrs.ie } }

/-- The instruction is followed by the next one. -/
def Instr.Straight : Instr → Prop
  | .calli _ | .bi _ | .b _ => False
  | _ => True

instance : DecidablePred Instr.Straight := fun i =>
  match i with
  | .calli _ | .bi _ | .b _ => .isFalse id
  | .xor .. | .or .. | .ori .. | .orhi .. | .andi .. | .addi .. | .srui .. | .lw .. | .sw ..
  | .rcsr .. | .wcsr .. => .isTrue trivial

/-- The instruction is followed by the next one and does not write IE. -/
def Instr.Quiet : Instr → Prop
  | .wcsr .IE _ => False
  | i => i.Straight

instance : DecidablePred Instr.Quiet := fun i =>
  match i with
  | .wcsr .IE _ => .isFalse id
  | .wcsr .IM _ | .wcsr .IP _ | .wcsr .EBA _ | .wcsr .DEBA _ => .isTrue trivial
  | .calli _ | .bi _ | .b _ => .isFalse id
  | .xor .. | .or .. | .ori .. | .orhi .. | .andi .. | .addi .. | .srui .. | .lw .. | .sw ..
  | .rcsr .. => .isTrue trivial

/-- An interrupt before the next instruction: `ea` gets the address of the instruction, and IE.IE is
saved in IE.EIE and cleared. The handler is behind EBA, or behind DEBA if DC remaps exceptions. -/
def Cpu.interrupt (c : Cpu) (remap : Bool) : Cpu :=
  { c with
    pc := (if remap then c.csrs.deba else c.csrs.eba) ++ (0xc0 : BitVec 8)
    regs := Function.update c.regs EA_REG c.pc
    csrs := { c.csrs with
      eie := c.csrs.ie
      ie := false } }

/-- The state after instructions that follow each other. -/
def block (l : List Instr) (c : Cpu) : Cpu :=
  l.foldl (fun c i => i.exec c) c

/-- Runs of a machine that goes from a state to the next one. -/
def Steps (next : Cpu → Option Cpu) : Cpu → Cpu → Prop :=
  Relation.ReflTransGen fun c c' => next c = some c'

/-- Runs in which IE.IE has the value `v` before every step. -/
def Runs (v : Bool) (next : Cpu → Option Cpu) : Cpu → Cpu → Prop :=
  Relation.ReflTransGen fun c c' => c.csrs.ie = v ∧ next c = some c'

section Runs

variable {next : Cpu → Option Cpu} {c c' : Cpu} {i : Instr} {l : List Instr} {v : Bool}

/-- They are runs. -/
theorem Runs.steps (h : Runs v next c c') : Steps next c c' :=
  Relation.ReflTransGen.mono (fun _ _ hstep => hstep.2) _ _ h

/-- A quiet instruction is straight. -/
theorem Instr.Quiet.straight (h : i.Quiet) : i.Straight := by
  cases i with
  | wcsr csr x => exact trivial
  | _ => exact h

/-- A quiet instruction leaves IE.IE alone. -/
theorem Instr.Quiet.ie (h : i.Quiet) (c : Cpu) : (i.exec c).csrs.ie = c.csrs.ie := by
  cases i with
  | calli target => cases h
  | bi target => cases h
  | b x => cases h
  | wcsr csr x =>
      cases csr with
      | IE => cases h
      | _ => rfl
  | _ => rfl

/-- A straight instruction is followed by the next one. -/
theorem Instr.Straight.pc (h : i.Straight) (c : Cpu) : (i.exec c).pc = c.pc + 4 := by
  cases i with
  | calli target => cases h
  | bi target => cases h
  | b x => cases h
  | _ => rfl

@[simp] theorem block_nil : block [] c = c := rfl

@[simp] theorem block_cons : block (i :: l) c = block l (i.exec c) := rfl

theorem block_append {l' : List Instr} : block (l ++ l') c = block l' (block l c) :=
  List.foldl_append

/-- The address of the instruction `k` places behind another one. -/
def after (a : Word) (k : Nat) : Word := a + .ofNat 32 (4 * k)

@[simp] theorem after_zero (a : Word) : after a 0 = a := BitVec.add_zero a

theorem after_succ (a : Word) (k : Nat) : after (a + 4) k = after a (k + 1) := by
  rw [after, after, BitVec.add_assoc]
  congr 1
  apply BitVec.eq_of_toNat_eq
  simp [BitVec.toNat_add]
  omega

/-- The number of an instruction from its address. -/
theorem after_sub (a : Word) {k : Nat} (hk : k < 512) : (after a k - a).toNat / 4 = k := by
  have hsub : after a k - a = .ofNat 32 (4 * k) := by
    rw [after]
    grind
  rw [hsub, BitVec.toNat_ofNat]
  omega

/-- Counting on from an instruction. -/
theorem after_add (a : Word) (k j : Nat) : after (after a k) j = after a (k + j) := by
  rw [after, after, after, BitVec.add_assoc]
  congr 1
  apply BitVec.eq_of_toNat_eq
  simp [BitVec.toNat_add]
  omega

/-- A run can end in one state only. -/
theorem steps_unique {f f' : Cpu} (h : Steps next c f) (hend : next f = none) (h' : Steps next c f')
    (hend' : next f' = none) : f = f' :=
  Library.Determinism.end_unique h hend h' hend'

/-- A straight piece of code is followed by what stands behind it. -/
theorem block_pc (hl : ∀ i ∈ l, i.Straight) : (block l c).pc = after c.pc l.length := by
  induction l generalizing c with
  | nil => exact (after_zero _).symm
  | cons i l ih =>
      rw [block_cons, ih fun j hj => hl j (List.mem_cons_of_mem i hj),
        (hl i List.mem_cons_self).pc, after_succ, List.length_cons]

/-- A quiet piece of code leaves IE.IE alone. -/
theorem block_ie (hl : ∀ i ∈ l, i.Quiet) : (block l c).csrs.ie = c.csrs.ie := by
  induction l generalizing c with
  | nil => rfl
  | cons i l ih =>
      rw [block_cons, ih fun j hj => hl j (List.mem_cons_of_mem i hj),
        (hl i List.mem_cons_self).ie]

/-- A quiet piece of code runs through. -/
theorem runs_block (hl : ∀ i ∈ l, i.Quiet) (hie : c.csrs.ie = v)
    (hcode : ∀ k (hk : k < l.length) c', c'.pc = after c.pc k → next c' = some (l[k].exec c')) :
    Runs v next c (block l c) := by
  induction l generalizing c with
  | nil => exact .refl
  | cons i l ih =>
      have hquiet := hl i List.mem_cons_self
      have hfirst : next c = some (i.exec c) :=
        hcode 0 (Nat.succ_pos _) c (after_zero _).symm
      refine .head ⟨hie, hfirst⟩ (ih (fun j hj => hl j (List.mem_cons_of_mem i hj))
        ((hquiet.ie c).trans hie) fun k hk c' hc' => ?_)
      rw [hquiet.straight.pc, after_succ] at hc'
      exact hcode (k + 1) (Nat.succ_lt_succ hk) c' hc'

end Runs

section Frames

open Library.Region (store store_outside Covers load load_store_same load_store_other)

variable {mem : Word → Byte} {a b value : Word}

/-- A word is made of the four bytes at its address. -/
theorem loadWord_of_load {b3 b2 b1 b0 : Byte} (h : load mem a 4 = [b3, b2, b1, b0]) :
    loadWord mem a = b3 ++ b2 ++ b1 ++ b0 := by
  simp only [load, List.cons.injEq, and_true] at h
  obtain ⟨h3, h2, h1, h0⟩ := h
  rw [loadWord, h3, h2, h1, h0]

/-- The word just stored. -/
@[simp] theorem loadWord_storeWord_same : loadWord (storeWord mem a value) a = value := by
  have hload : load (storeWord mem a value) a (wordBytes value).length = wordBytes value :=
    load_store_same (show 4 ≤ Nat.pow 2 32 by decide)
  rw [loadWord_of_load hload, word_of_bytes]

/-- The words at two addresses have no byte in common. -/
def Apart (a b : Word) : Prop := 4 ≤ (b - a).toNat ∧ 4 ≤ (a - b).toNat

/-- Another word stays. -/
theorem loadWord_storeWord_other (h : Apart a b) :
    loadWord (storeWord mem a value) b = loadWord mem b := by
  have hload : load (storeWord mem a value) b 4 = load mem b 4 := by
    refine load_store_other (fun c hb ha => ?_) (by decide)
    rw [Covers] at ha hb
    change (c - a).toNat < 4 at ha
    obtain ⟨h1, h2⟩ := h
    bv_omega
  simp only [load, List.cons.injEq, and_true] at hload
  obtain ⟨h3, h2, h1, h0⟩ := hload
  rw [loadWord, loadWord, h3, h2, h1, h0]

/-- The word at place `i` of a frame at `a`. -/
def slot (mem : Word → Byte) (a : Word) (i : Nat) : Word :=
  loadWord mem (after a i)

/-- The words of a frame are apart. -/
theorem after_apart {i j : Nat} (hi : i < 64) (hj : j < 64) (hne : i ≠ j) :
    Apart (after a i) (after a j) := by
  have hsub : ∀ {i j : Nat},
      after a j - after a i = BitVec.ofNat 32 (4 * j) - .ofNat 32 (4 * i) := by
    intro i j
    rw [after, after]
    grind
  rw [Apart, hsub, hsub]
  simp only [BitVec.toNat_sub, BitVec.toNat_ofNat]
  omega

/-- A word of a frame was stored. -/
theorem slot_storeWord {i j : Nat} (hi : i < 64) (hj : j < 64) :
    slot (storeWord mem (after a i) value) a j = if j = i then value else slot mem a j := by
  rw [slot, slot]
  split_ifs with heq
  · rw [heq, loadWord_storeWord_same]
  · exact loadWord_storeWord_other (after_apart hi hj (Ne.symm heq))

/-- The offset of a word of a frame. -/
theorem signExtend_offset :
    ∀ k < 64, (BitVec.ofNat 16 (4 * k)).signExtend 32 = .ofNat 32 (4 * k) := by
  decide

/-- The address of a word of the frame at a register. -/
theorem address_offset {c : Cpu} {y : Reg} {k : Nat} (hk : k < 64) :
    c.address y (.ofNat 16 (4 * k)) = after (c.regs y) k := by
  rw [Cpu.address, signExtend_offset k hk, after]

/-- A register is stored into a word of the frame at another. -/
theorem sw_mem {c : Cpu} {x y : Reg} {k : Nat} (hk : k < 64) :
    ((Instr.sw y (.ofNat 16 (4 * k)) x).exec c).mem =
      storeWord c.mem (after (c.regs y) k) (c.regs x) := by
  rw [← address_offset hk]
  rfl

/-- Store registers into words of a frame. -/
def saves (y : Reg) (l : List (Nat × Reg)) : List Instr :=
  l.map fun e => .sw y (.ofNat 16 (4 * e.1)) e.2

/-- Load registers from words of a frame. -/
def loads (y : Reg) (l : List (Nat × Reg)) : List Instr :=
  l.map fun e => .lw e.2 y (.ofNat 16 (4 * e.1))

/-- What `saves` leaves, if no word is stored twice. -/
structure Saved (c f : Cpu) (y : Reg) (l : List (Nat × Reg)) : Prop where
  regs : f.regs = c.regs
  csrs : f.csrs = c.csrs
  words : ∀ e ∈ l, slot f.mem (c.regs y) e.1 = c.regs e.2
  others : ∀ j < 64, j ∉ l.map Prod.fst → slot f.mem (c.regs y) j = slot c.mem (c.regs y) j

theorem saves_spec {c : Cpu} {y : Reg} {l : List (Nat × Reg)} (hl : ∀ e ∈ l, e.1 < 64)
    (hdistinct : (l.map Prod.fst).Nodup) : Saved c (block (saves y l) c) y l := by
  induction l generalizing c with
  | nil => exact ⟨rfl, rfl, by simp, fun j _ _ => rfl⟩
  | cons e l ih =>
      have he := hl e List.mem_cons_self
      rw [List.map_cons, List.nodup_cons] at hdistinct
      have hrest := ih (c := (Instr.sw y (.ofNat 16 (4 * e.1)) e.2).exec c)
        (fun e' he' => hl e' (List.mem_cons_of_mem e he')) hdistinct.2
      have hmem : ((Instr.sw y (.ofNat 16 (4 * e.1)) e.2).exec c).mem =
          storeWord c.mem (after (c.regs y) e.1) (c.regs e.2) := sw_mem he
      refine ⟨hrest.regs, hrest.csrs, fun e' he' => ?_, fun j hj hne => ?_⟩
      · obtain rfl | he' := List.mem_cons.1 he'
        · have hfirst := hrest.others e'.1 he hdistinct.1
          rw [hmem] at hfirst
          exact hfirst.trans ((slot_storeWord he he).trans (if_pos rfl))
        · exact hrest.words e' he'
      · rw [List.map_cons, List.mem_cons, not_or] at hne
        have hother := hrest.others j hj hne.2
        rw [hmem] at hother
        exact hother.trans ((slot_storeWord he hj).trans (if_neg hne.1))

/-- What `loads` leaves, if the base register is not loaded and no register is loaded twice. -/
structure Loaded (c f : Cpu) (y : Reg) (l : List (Nat × Reg)) : Prop where
  mem : f.mem = c.mem
  csrs : f.csrs = c.csrs
  words : ∀ e ∈ l, f.regs e.2 = slot c.mem (c.regs y) e.1
  others : ∀ r, r ∉ l.map Prod.snd → f.regs r = c.regs r

theorem loads_spec {c : Cpu} {y : Reg} {l : List (Nat × Reg)} (hl : ∀ e ∈ l, e.1 < 64)
    (hbase : y ∉ l.map Prod.snd) (hdistinct : (l.map Prod.snd).Nodup) :
    Loaded c (block (loads y l) c) y l := by
  induction l generalizing c with
  | nil => exact ⟨rfl, rfl, by simp, fun r _ => rfl⟩
  | cons e l ih =>
      have he := hl e List.mem_cons_self
      rw [List.map_cons, List.mem_cons, not_or] at hbase
      rw [List.map_cons, List.nodup_cons] at hdistinct
      have hregs : ((Instr.lw e.2 y (.ofNat 16 (4 * e.1))).exec c).regs =
          Function.update c.regs e.2 (slot c.mem (c.regs y) e.1) := by
        rw [slot, ← address_offset he]
        rfl
      have hrest := ih (c := (Instr.lw e.2 y (.ofNat 16 (4 * e.1))).exec c)
        (fun e' he' => hl e' (List.mem_cons_of_mem e he')) hbase.2 hdistinct.2
      have hkept : ((Instr.lw e.2 y (.ofNat 16 (4 * e.1))).exec c).regs y = c.regs y := by
        rw [hregs, Function.update_of_ne hbase.1]
      refine ⟨hrest.mem, hrest.csrs, fun e' he' => ?_, fun r hr => ?_⟩
      · obtain rfl | he' := List.mem_cons.1 he'
        · refine (hrest.others e'.2 hdistinct.1).trans ?_
          rw [hregs, Function.update_self]
        · refine (hrest.words e' he').trans ?_
          rw [hkept]
          rfl
      · rw [List.map_cons, List.mem_cons, not_or] at hr
        refine (hrest.others r hr.2).trans ?_
        rw [hregs, Function.update_of_ne hr.1]

end Frames

end Soc.Lm32
