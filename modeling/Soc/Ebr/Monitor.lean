import Soc.Ebr.Accesses

/-!
# The memory of the debugger

`monitor`, the on-chip memory that the debugger runs from. `gdbstub/linker.ld` makes its first
0x1800 bytes a ROM and the rest a RAM. The module has an input `write_lock`, tied to 1 by
`lm32_test_top`, but nothing in it reads this input: `rom_kept_iff` says which accesses leave the
ROM alone.
-/

namespace Soc.Ebr.Monitor

open Conbus (Request)
open Library (Machine Undefined lane)

/-- The inputs of `monitor` in a cycle, and what its RAM leaves undefined. -/
structure Cycle where
  writeLock : Bool
  wb : Request
  undefined : Undefined

/-- The cycle as `ram_blk` sees it: `EBR_CTI_I` is not connected and reads as 0, and `write_lock`
goes nowhere. -/
def Cycle.ramBlk (c : Cycle) : Ebr.Cycle := ⟨{ c.wb with cti := 0 }, c.undefined⟩

/-- A request is held until it is acknowledged. The next one may follow at once. -/
def Allowed (s : Slave 11) (c : Cycle) : Prop :=
  presents s.last = true → s.acked = false → Conbus.Bus.Held s.last c.wb

instance (s : Slave 11) (c : Cycle) : Decidable (Allowed s c) :=
  inferInstanceAs (Decidable (_ → _ → Conbus.Bus.Held _ _))

/-- `monitor` with its 2048 words after reset, with any contents. -/
def monitor : Machine (Slave 11) Cycle where
  Initial s := s.ctrl.AfterReset ∧ presents s.last = false
  Allowed := Allowed
  next s c := s.next c.ramBlk

/-- `write_lock` is asserted. -/
def WriteLocked (_ : Slave 11) (c : Cycle) : Prop := c.writeLock = true

/-- `monitor` as `lm32_test_top` drives it. -/
def locked : Machine (Slave 11) Cycle := monitor.restrict WriteLocked

instance (s : Slave 11) (c : Cycle) : Decidable (locked.Allowed s c) :=
  inferInstanceAs (Decidable (Allowed s c ∧ c.writeLock = true))

/-- The word that an access goes to. -/
def Cycle.word (c : Cycle) : BitVec 11 := Slave.word 11 c.wb.adr

/-- A word of the ROM part. -/
def InRom (i : BitVec 11) : Prop := 4 * i.toNat < 0x1800

instance (i : BitVec 11) : Decidable (InRom i) := inferInstanceAs (Decidable (_ < _))

/-- The ROM part holds what it holds in `s`. -/
def RomKept (s t : Slave 11) : Prop :=
  ∀ i, InRom i → t.ctrl.ram.cells i = s.ctrl.ram.cells i

/-- A write to the RAM part that starts in a run and is acknowledged in it stores the bytes that it
selects, and keeps the others of the word. -/
def RamWritten (s : Slave 11) (inputs : List Cycle) : Prop :=
  ∀ first c c' rest, inputs = first ++ c :: c' :: rest →
    (locked.run s first).starts c.ramBlk = true → c.wb.we = true → ¬ InRom c.word → ∀ k < 4,
    (locked.run s (first ++ [c, c'])).byte (c.word, k) =
      if c.wb.sel.getLsbD k then lane c.wb.dat k else (locked.run s first).byte (c.word, k)

/-- If a write to a word of the ROM is acknowledged, the bytes that it selects are those of the
word. -/
def SparesRom (s : Slave 11) (c : Cycle) : Prop :=
  s.ctrl.ebrAckO = true → presents c.wb = true → c.wb.we = true → InRom c.word →
    ∀ k < 4, c.wb.sel.getLsbD k = true → lane c.wb.dat k = s.byte (c.word, k)

instance (s : Slave 11) (c : Cycle) : Decidable (SparesRom s c) :=
  inferInstanceAs (Decidable (_ → _ → _ → _ → ∀ k < 4, _ → _))

variable {s t : Slave 11} {c : Cycle} {inputs : List Cycle}

/-- The accesses are classic ones. -/
theorem Allowed.holds (h : Allowed s c) : s.Holds c.ramBlk where
  classic _ := rfl
  held := h

/-- The invariant of the RAM controller. -/
theorem serving_next (h : s.Serving) (hallowed : locked.Allowed s c) :
    (locked.next s c).Serving :=
  h.next (Allowed.holds hallowed.1)

/-- A cycle keeps the ROM exactly if it stores nothing new there. -/
theorem romKept_next (h : t.Serving) (hrom : RomKept s t) (hallowed : locked.Allowed t c) :
    RomKept s (locked.next t c) ↔ SparesRom t c := by
  have hbyte : ∀ i k, k < 4 → (locked.next t c).byte (i, k) =
      (t.written c.ramBlk (i, k)).getD (t.byte (i, k)) := fun i k hk =>
    h.byte_next (Allowed.holds hallowed.1) hk
  constructor
  · intro hkept hack hpresents hwe hin k hk hsel
    have hwritten : t.written c.ramBlk (c.word, k) = some (lane c.wb.dat k) :=
      if_pos ⟨hack, hpresents, hwe, rfl, hsel⟩
    have hsame := hbyte c.word k hk
    rw [hwritten, Option.getD_some] at hsame
    rw [← hsame, Slave.byte, Slave.byte, hkept c.word hin, hrom c.word hin]
  · intro hspares i hin
    rw [← hrom i hin]
    refine Library.eq_of_lanes fun k hk => (hbyte i k hk).trans ?_
    unfold Slave.written
    dsimp only
    split
    · rename_i hwrite
      obtain ⟨hack, hpresents, hwe, rfl, hsel⟩ := hwrite
      exact hspares hack hpresents hwe hin k hk hsel
    · rfl

/-- The RAM part is written. -/
theorem ram_written (h : monitor.Initial s) (hrun : locked.AllowedRun s inputs) :
    RamWritten s inputs := by
  rintro first c c' rest rfl hstarts hwe - k hk
  obtain ⟨hfirst, hc, hc', -⟩ := Machine.allowedRun_append.1 hrun
  have hserving : (locked.run s first).Serving :=
    Machine.run_invariant (fun _ _ => serving_next) (Slave.serving_of_initial h) hfirst
  have haccess := hserving.byte_access (i := c.word) (Allowed.holds hc.1) hstarts
    (Allowed.holds hc'.1) hk
  rw [Machine.run_append]
  refine haccess.trans ?_
  simp only [Cycle.ramBlk, Cycle.word, hwe, true_and]

/-- In a run with `write_lock` asserted, the ROM stays as it is and the RAM is written, exactly if
the writes to the ROM store nothing new. -/
theorem rom_kept_iff (h : monitor.Initial s) (hrun : locked.AllowedRun s inputs) :
    (locked.Always (RomKept s) s inputs ∧ RamWritten s inputs) ↔
      (locked.restrict SparesRom).AllowedRun s inputs := by
  have hiff :
      locked.Always (RomKept s) s inputs ↔ (locked.restrict SparesRom).AllowedRun s inputs :=
    Machine.always_iff_restrict (fun _ _ => serving_next)
      (fun _ _ hserving hrom hallowed => romKept_next hserving hrom hallowed)
      (Slave.serving_of_initial h) (fun _ _ => rfl) hrun
  rw [hiff]
  exact and_iff_left (ram_written h hrun)

/-- The memory after reset, with zeros in it. -/
def zeroed : Slave 11 where
  ctrl := ⟨false, 0, 0, .idle, 0, 0, false, ⟨fun _ => 0, 0, 0⟩⟩
  last := ⟨0, 0, 0, 0, false, false, false⟩
  acked := false

/-- This is a memory after reset. -/
theorem zeroed_initial : monitor.Initial zeroed :=
  ⟨⟨rfl, rfl, rfl, rfl, rfl, rfl, rfl⟩, rfl⟩

/-- A store of a word, with `write_lock` asserted: two cycles. -/
def store (adr dat : Word) : List Cycle :=
  List.replicate 2 ⟨true, ⟨adr, 0, 0b1111, dat, true, true, true⟩, ⟨0, 0, 0⟩⟩

/-- A store to the RAM part is allowed, and leaves the ROM alone. -/
theorem rom_kept_ram : monitor.Initial zeroed ∧ locked.AllowedRun zeroed (store 0x10001800 1) ∧
    (locked.restrict SparesRom).AllowedRun zeroed (store 0x10001800 1) ∧
    locked.Always (RomKept zeroed) zeroed (store 0x10001800 1) ∧
    (locked.run zeroed (store 0x10001800 1)).ctrl.ram.cells 0x600 = 1 := by
  have hrun : locked.AllowedRun zeroed (store 0x10001800 1) := by decide
  have hspares : (locked.restrict SparesRom).AllowedRun zeroed (store 0x10001800 1) := by decide
  exact ⟨zeroed_initial, hrun, hspares, ((rom_kept_iff zeroed_initial hrun).2 hspares).1, by decide⟩

/-- A locked store to address 0x10000000 changes the first word of the ROM. -/
theorem rom_altered : monitor.Initial zeroed ∧ locked.AllowedRun zeroed (store 0x10000000 1) ∧
    ¬ locked.Always (RomKept zeroed) zeroed (store 0x10000000 1) := by
  refine ⟨zeroed_initial, by decide, fun h => ?_⟩
  have hfirst : locked.Always (RomKept zeroed) zeroed (store 0x10000000 1 ++ []) := by simpa using h
  have hword := hfirst.drop.here 0 (by decide)
  exact absurd hword (by decide)

end Soc.Ebr.Monitor
