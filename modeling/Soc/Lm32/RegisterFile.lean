import Soc.Library.Machine
import Soc.Lm32.InstructionSet

/-!
# The register file of the LM32

The two block memories of `lm32_cpu.v`, of which each holds all registers and serves one operand,
with what stands between them and the D stage. A block memory registers the address it reads, in
the cycle before the instruction is in the D stage; `regfile_raw` and `w_result_d` pass on a value
that is written in that very cycle, and while the D stage is stalled `reg_data_buf` keeps what was
read and follows the writes.

All this is to make an operand the current contents of its register, in every cycle the instruction
is in the D stage. `RegPort.Current` is the invariant behind that.
-/

namespace Soc.Lm32

open Library (Machine)

/-- The write port of the register file: `reg_write_enable_q_w`, `write_idx_w` and `w_result`. -/
structure RegWrite where
  enable : Bool
  idx : Reg
  result : Word

/-- The registers after a write. -/
def RegWrite.apply (w : RegWrite) (regs : Reg → Word) : Reg → Word :=
  if w.enable then Function.update regs w.idx w.result else regs

/-- One of the two operands: an `lm32_dp_ram` and what belongs to it. -/
structure RegPort where
  ram : Reg → Word
  raddrR : Reg
  regfileRaw : Bool
  regDataBuf : Word

namespace RegPort

variable (p : RegPort) (useBuf : Bool) (wResultD : Word)

/-- `reg_data_live`. -/
def regDataLive : Word := if p.regfileRaw then wResultD else p.ram p.raddrR

/-- `reg_data`. -/
def regData : Word := if useBuf then p.regDataBuf else p.regDataLive wResultD

/-- A clock cycle. `idxF` is the index in `instruction_f` and `readIdxD` the one in
`instruction_d`. -/
def next (w : RegWrite) (stallD : Bool) (idxF readIdxD : Reg) : RegPort where
  ram := w.apply p.ram
  raddrR := idxF
  regfileRaw := w.enable && w.idx == idxF
  regDataBuf :=
    if w.enable && w.idx == readIdxD then w.result
    else if stallD && !useBuf then p.regDataLive wResultD
    else p.regDataBuf

/-- What is read of register `idx` is its contents. -/
structure Current (idx : Reg) : Prop where
  live : useBuf = false → p.raddrR = idx ∧ (p.regfileRaw = true → wResultD = p.ram idx)
  buffered : useBuf = true → p.regDataBuf = p.ram idx

variable {p useBuf wResultD}

/-- The value that is read. -/
theorem Current.regData {idx : Reg} (h : p.Current useBuf wResultD idx) :
    p.regData useBuf wResultD = p.ram idx := by
  rw [RegPort.regData]
  cases huse : useBuf with
  | true => exact h.buffered huse
  | false =>
      obtain ⟨haddr, hraw⟩ := h.live huse
      rw [if_neg Bool.false_ne_true, regDataLive]
      split <;> rename_i hcase
      · exact hraw hcase
      · rw [haddr]

/-- A register that is written. -/
theorem apply_self {w : RegWrite} (hw : w.enable = true) (regs : Reg → Word) :
    w.apply regs w.idx = w.result := by
  rw [RegWrite.apply, if_pos hw, Function.update_self]

/-- The other registers stay. -/
theorem apply_other {w : RegWrite} {idx : Reg} (h : ¬ (w.enable = true ∧ w.idx = idx))
    (regs : Reg → Word) : w.apply regs idx = regs idx := by
  rw [RegWrite.apply]
  split <;> rename_i hw
  · exact Function.update_of_ne (fun heq => h ⟨hw, heq.symm⟩) _ _
  · rfl

/-- An instruction that moves to the D stage finds its operand there. -/
theorem current_of_moves (p : RegPort) (useBuf : Bool) (wResultD : Word) (w : RegWrite)
    (idxF readIdxD : Reg) : (p.next useBuf wResultD w false idxF readIdxD).Current false w.result
      idxF where
  live _ := by
    refine ⟨rfl, fun hraw => ?_⟩
    rw [next, Bool.and_eq_true, beq_iff_eq] at hraw
    rw [← hraw.2]
    exact (apply_self hraw.1 p.ram).symm
  buffered h := absurd h Bool.false_ne_true

/-- An instruction that waits in the D stage keeps its operand up to date. -/
theorem Current.waits {readIdxD : Reg} (h : p.Current useBuf wResultD readIdxD) (w : RegWrite)
    (idxF : Reg) (wResultD' : Word) :
    (p.next useBuf wResultD w true idxF readIdxD).Current true wResultD' readIdxD where
  live h := absurd h (by decide)
  buffered _ := by
    have hdata := h.regData
    by_cases hw : w.enable = true ∧ w.idx = readIdxD
    · obtain ⟨hen, rfl⟩ := hw
      simp only [next, hen, beq_self_eq_true, Bool.and_self, if_true]
      exact (apply_self hen p.ram).symm
    · have hno : (w.enable && w.idx == readIdxD) = false := by
        rw [Bool.and_eq_false_iff, beq_eq_false_iff_ne]
        by_cases hen : w.enable = true
        · exact .inr fun heq => hw ⟨hen, heq⟩
        · exact .inl (Bool.eq_false_iff.2 hen)
      change (if _ then w.result else _) = w.apply p.ram readIdxD
      rw [hno, apply_other hw, ← hdata, RegPort.regData]
      cases useBuf with
      | true => rfl
      | false => rfl

end RegPort

/-- The register file with its operands. -/
structure RegisterFile where
  port0 : RegPort
  port1 : RegPort
  useBuf : Bool
  wResultD : Word

namespace RegisterFile

variable (f : RegisterFile)

/-- `reg_data_0`. -/
def regData0 : Word := f.port0.regData f.useBuf f.wResultD

/-- `reg_data_1`. -/
def regData1 : Word := f.port1.regData f.useBuf f.wResultD

/-- A clock cycle. A stall of the D stage sets `use_buf`, and its end clears it. -/
def next (w : RegWrite) (stallD : Bool) (instructionF instructionD : Word) : RegisterFile where
  port0 :=
    f.port0.next f.useBuf f.wResultD w stallD (instructionF.extractLsb' 21 5)
      (instructionD.extractLsb' 21 5)
  port1 :=
    f.port1.next f.useBuf f.wResultD w stallD (instructionF.extractLsb' 16 5)
      (instructionD.extractLsb' 16 5)
  useBuf := stallD
  wResultD := w.result

/-- Both memories hold `regs`, and both operands of `instructionD` are current. -/
structure Holds (regs : Reg → Word) (instructionD : Word) : Prop where
  ram0 : f.port0.ram = regs
  ram1 : f.port1.ram = regs
  port0 : f.port0.Current f.useBuf f.wResultD (instructionD.extractLsb' 21 5)
  port1 : f.port1.Current f.useBuf f.wResultD (instructionD.extractLsb' 16 5)

variable {f} {regs : Reg → Word} {instructionD : Word}

/-- The first operand. -/
theorem Holds.regData0 (h : f.Holds regs instructionD) :
    f.regData0 = regs (instructionD.extractLsb' 21 5) := by
  rw [RegisterFile.regData0, h.port0.regData, h.ram0]

/-- The second operand. -/
theorem Holds.regData1 (h : f.Holds regs instructionD) :
    f.regData1 = regs (instructionD.extractLsb' 16 5) := by
  rw [RegisterFile.regData1, h.port1.regData, h.ram1]

/-- The operands of an instruction that moves to the D stage. -/
theorem holds_of_moves (h0 : f.port0.ram = regs) (h1 : f.port1.ram = regs) (w : RegWrite)
    (instructionF : Word) :
    (f.next w false instructionF instructionD).Holds (w.apply regs) instructionF where
  ram0 := congrArg w.apply h0
  ram1 := congrArg w.apply h1
  port0 := RegPort.current_of_moves ..
  port1 := RegPort.current_of_moves ..

/-- The operands of an instruction that waits in the D stage. -/
theorem Holds.waits (h : f.Holds regs instructionD) (w : RegWrite) (instructionF : Word) :
    (f.next w true instructionF instructionD).Holds (w.apply regs) instructionD where
  ram0 := congrArg w.apply h.ram0
  ram1 := congrArg w.apply h.ram1
  port0 := h.port0.waits w _ _
  port1 := h.port1.waits w _ _

end RegisterFile

/-- What the pipeline does to the register file in a cycle. -/
structure RegCycle where
  write : RegWrite
  stallD : Bool
  instructionF : Word

/-- The register file with the instruction in the D stage. `regs` are the registers as a program
sees them: each write takes effect at once. `loaded` is set when the D stage has been filled. -/
structure Registers where
  file : RegisterFile
  instructionD : Word
  regs : Reg → Word
  loaded : Bool

/-- The register file in its pipeline, which may write, stall and fetch as it likes. -/
def registerFile : Machine Registers RegCycle where
  Initial s := s.file.port0.ram = s.regs ∧ s.file.port1.ram = s.regs ∧ s.loaded = false
  Allowed _ _ := True
  next s c :=
    { file := s.file.next c.write c.stallD c.instructionF s.instructionD
      instructionD := if c.stallD then s.instructionD else c.instructionF
      regs := c.write.apply s.regs
      loaded := s.loaded || !c.stallD }

/-- The invariant of the register file. -/
structure Registers.Valid (s : Registers) : Prop where
  ram0 : s.file.port0.ram = s.regs
  ram1 : s.file.port1.ram = s.regs
  holds : s.loaded = true → s.file.Holds s.regs s.instructionD

/-- A cycle keeps the invariant. -/
theorem Registers.Valid.next {s : Registers} (h : s.Valid) (c : RegCycle) :
    (registerFile.next s c).Valid where
  ram0 := congrArg c.write.apply h.ram0
  ram1 := congrArg c.write.apply h.ram1
  holds hloaded := by
    obtain ⟨write, stallD, instructionF⟩ := c
    cases stallD with
    | false => exact RegisterFile.holds_of_moves h.ram0 h.ram1 write instructionF
    | true =>
        rw [show (registerFile.next s ⟨write, true, instructionF⟩).loaded = s.loaded from
          Bool.or_false _] at hloaded
        exact (h.holds hloaded).waits write instructionF

/-- In every cycle of every run the two operands are the current contents of the registers the
instruction in the D stage names, however long it waits there and whatever is written meanwhile. -/
theorem operands_current {s : Registers} (h : registerFile.Reachable s)
    (hloaded : s.loaded = true) :
    s.file.regData0 = s.regs (reg0 s.instructionD) ∧
      s.file.regData1 = s.regs (reg1 s.instructionD) := by
  have hvalid : s.Valid := Machine.invariant
    (fun s hs => ⟨hs.1, hs.2.1, fun hl => absurd hl (by simp [hs.2.2])⟩)
    (fun s c hs _ => hs.next c) h
  exact ⟨(hvalid.holds hloaded).regData0, (hvalid.holds hloaded).regData1⟩

/-- A register is written while an instruction that reads it waits. -/
theorem operands_current_written :
    (registerFile.run
      ⟨⟨⟨fun _ => 0, 0, false, 0⟩, ⟨fun _ => 0, 0, false, 0⟩, false, 0⟩, 0, fun _ => 0, false⟩
      [⟨⟨false, 0, 0⟩, false, 0x00600000⟩, ⟨⟨true, 3, 7⟩, true, 0⟩]).file.regData0 = 7 :=
  (operands_current
    (@Machine.Reachable.run _ _ registerFile _ (.initial ⟨rfl, rfl, rfl⟩) [_, _]
      ⟨trivial, trivial, trivial⟩) rfl).1.trans (by decide)

end Soc.Lm32
