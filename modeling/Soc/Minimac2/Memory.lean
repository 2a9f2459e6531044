import Mathlib.Tactic.SplitIfs
import Soc.Conbus.Bus
import Soc.Library.DualPortRam
import Soc.Library.Execution

/-!
# The packet buffers of the Ethernet MAC

`minimac2_memory` with its three `minimac2_altera_memory`. The CPU sees a buffer as big-endian words
on the Wishbone bus, the PHY as bytes, in the lanes of a little-endian word: the data, the byte
selects and the read data of the bus are all reversed. At every instant each of sys_clk, phy_rx_clk
and phy_tx_clk may have an edge. The main theorem is `same_bytes`: both sides see the bytes that
were written last.
-/

namespace Soc.Minimac2

open Conbus (Request Minimac2Memory)
open Library (Machine Port Ram Undefined bigEndian lane lastWritten swap)

/-- The three buffers, as `wb_adr_i[12:11]` selects them. -/
inductive BufferId where
  | rxb0
  | rxb1
  | txb
  deriving DecidableEq

/-- The value of `wb_buf` for a buffer. -/
def BufferId.code : BufferId → BitVec 2
  | .rxb0 => 0b00
  | .rxb1 => 0b01
  | .txb => 0b10

/-- `phy_sel`. -/
def phySel (phyAdrByte : BitVec 2) : BitVec 4 :=
  BitVec.ofBool (phyAdrByte == 0b11) ++ BitVec.ofBool (phyAdrByte == 0b10) ++
    BitVec.ofBool (phyAdrByte == 0b01) ++ BitVec.ofBool (phyAdrByte == 0b00)

/-- What the PHY side of a buffer is given at an edge of its clock. -/
structure PhyPort where
  phyAdrI : BitVec 11
  phyDatI : Byte
  phyWeI : Bool

/-- Port B of the RAM. -/
def PhyPort.port (p : PhyPort) : Port 9 where
  address := p.phyAdrI.extractLsb' 2 9
  rden := true
  wren := p.phyWeI
  byteena := phySel (p.phyAdrI.extractLsb' 0 2)
  data := p.phyDatI ++ p.phyDatI ++ p.phyDatI ++ p.phyDatI

/-- The RAM and the register of `minimac2_altera_memory`. -/
structure AlteraMemory where
  memBlk : Ram 9
  phySelR : BitVec 4

namespace AlteraMemory

/-- A buffer after an edge of sys_clk, of the clock of the PHY or of both. -/
def next (m : AlteraMemory) (wb : Option (Port 9)) (phy : Option PhyPort) (u : Undefined) :
    AlteraMemory where
  memBlk := m.memBlk.clock wb (phy.map PhyPort.port) u
  phySelR :=
    match phy with
    | none => m.phySelR
    | some p => phySel (p.phyAdrI.extractLsb' 0 2)

/-- `phy_dat_o`. -/
def phyDatO (m : AlteraMemory) : Byte :=
  if m.phySelR.getLsbD 3 then lane m.memBlk.qB 3
  else if m.phySelR.getLsbD 2 then lane m.memBlk.qB 2
  else if m.phySelR.getLsbD 1 then lane m.memBlk.qB 1
  else lane m.memBlk.qB 0

end AlteraMemory

/-- What the Wishbone bus drives at an edge of sys_clk. -/
structure MemorySysEdge where
  sysRst : Bool
  wb : Request

/-- What the receiver drives at an edge of phy_rx_clk. -/
structure MemoryRxEdge where
  rxb0 : PhyPort
  rxb1 : PhyPort

/-- The clocks that have an edge, with `txb_adr` at phy_tx_clk. -/
structure MemoryEdge where
  sys : Option MemorySysEdge
  rx : Option MemoryRxEdge
  tx : Option (BitVec 11)
  undefined : BufferId → Undefined

namespace MemorySysEdge

variable (x : MemorySysEdge) (b : BufferId)

/-- The bus addresses a buffer. -/
def Accesses : Prop :=
  x.wb.cyc = true ∧ x.wb.stb = true ∧ x.wb.adr.extractLsb' 11 2 = b.code

instance : Decidable (x.Accesses b) := inferInstanceAs (Decidable (_ ∧ _ ∧ _))

/-- Port A of the RAM of a buffer. -/
def port : Port 9 where
  address := x.wb.adr.extractLsb' 2 9
  rden := true
  wren := x.wb.cyc && x.wb.stb && x.wb.we && x.wb.adr.extractLsb' 11 2 == b.code
  byteena := x.wb.sel.reverse
  data := swap x.wb.dat

end MemorySysEdge

namespace MemoryEdge

variable (e : MemoryEdge)

/-- The PHY side of a buffer: the transmit buffer is only read. -/
def phy : BufferId → Option PhyPort
  | .rxb0 => e.rx.map (·.rxb0)
  | .rxb1 => e.rx.map (·.rxb1)
  | .txb => e.tx.map fun adr => ⟨adr, 0, false⟩

/-- The bus and the PHY access the same word of a buffer at once, and one of them writes it. -/
def Collides (b : BufferId) : Prop :=
  ∃ x ∈ e.sys, ∃ p ∈ e.phy b, x.Accesses b ∧
    x.wb.adr.extractLsb' 2 9 = p.phyAdrI.extractLsb' 2 9 ∧
    (p.phyWeI = true ∨ (x.wb.we = true ∧ b = .txb))

/-- The byte that the PHY writes to a buffer. -/
def phyWritten : BufferId × BitVec 11 → Option Byte
  | (b, i) =>
      match e.phy b with
      | none => none
      | some p => if p.phyWeI = true ∧ p.phyAdrI = i then some p.phyDatI else none

/-- The byte that the bus writes to a buffer, at the big-endian offset. -/
def wbWritten : BufferId × BitVec 11 → Option Byte
  | (b, i) =>
      match e.sys with
      | none => none
      | some x =>
          if x.Accesses b ∧ x.wb.we = true ∧ x.wb.adr.extractLsb' 2 9 = i.extractLsb' 2 9 ∧
              x.wb.sel.getLsbD (3 - (i.extractLsb' 0 2).toNat) = true then
            some (bigEndian x.wb.dat (i.extractLsb' 0 2).toNat)
          else none

/-- The byte that either side writes to a buffer. -/
def written (a : BufferId × BitVec 11) : Option Byte := (e.phyWritten a).or (e.wbWritten a)

end MemoryEdge

/-- The registers of `minimac2_memory` and its buffers. -/
structure PacketMemory where
  front : Minimac2Memory
  buffers : BufferId → AlteraMemory

namespace PacketMemory

variable (s : PacketMemory) (e : MemoryEdge)

/-- `wb_dat_o`. -/
def wbDatO : Word :=
  s.front.wbDatO ⟨(s.buffers .rxb0).memBlk.qA, (s.buffers .rxb1).memBlk.qA,
    (s.buffers .txb).memBlk.qA⟩

/-- `txb_dat`. -/
def txbDat : Byte := (s.buffers .txb).phyDatO

/-- The registers after an edge of sys_clk. -/
def nextFront (x : MemorySysEdge) : Minimac2Memory :=
  if x.sysRst then { s.front.next x.wb with wbAckO := false } else s.front.next x.wb

/-- The buffers after an instant. -/
def next : PacketMemory where
  front :=
    match e.sys with
    | none => s.front
    | some x => s.nextFront x
  buffers b := (s.buffers b).next (e.sys.map fun x => x.port b) (e.phy b) (e.undefined b)

/-- The byte of a buffer that the PHY knows by this address. -/
def byte : BufferId × BitVec 11 → Byte
  | (b, i) => lane ((s.buffers b).memBlk.cells (i.extractLsb' 2 9)) (i.extractLsb' 0 2).toNat

end PacketMemory

/-- The packet buffers, which hold zeros at power-up. -/
def packetMemory : Machine PacketMemory MemoryEdge where
  Initial s := ∀ b i, (s.buffers b).memBlk.cells i = 0
  Allowed _ e := ∀ b, ¬ e.Collides b
  next := PacketMemory.next

/-- The lane that is selected for the PHY. -/
theorem getLsbD_phySel : ∀ (phyAdrByte : BitVec 2) (k : Nat), k < 4 →
    (phySel phyAdrByte).getLsbD k = decide (phyAdrByte.toNat = k) := by
  decide

/-- Bytes are the same if their words and their lanes are. -/
theorem adr_eq_iff {i j : BitVec 11} :
    i = j ↔ i.extractLsb' 2 9 = j.extractLsb' 2 9 ∧
      (i.extractLsb' 0 2).toNat = (j.extractLsb' 0 2).toNat := by
  have hself : ∀ i : BitVec 11, i.extractLsb' 2 9 ++ i.extractLsb' 0 2 = i := by
    intro i
    rw [BitVec.extractLsb'_append_extractLsb'_eq_extractLsb' (by rfl)]
    exact BitVec.extractLsb'_eq_self
  constructor
  · rintro rfl
    exact ⟨rfl, rfl⟩
  · rintro ⟨hword, hlane⟩
    rw [← hself i, hword, BitVec.eq_of_toNat_eq hlane, hself j]

/-- The register of the byte select chooses the byte of the PHY. -/
theorem AlteraMemory.phyDatO_of_sel {m : AlteraMemory} {a : BitVec 2} (h : m.phySelR = phySel a) :
    m.phyDatO = lane m.memBlk.qB a.toNat := by
  have ha : a.toNat < 4 := a.isLt
  unfold phyDatO
  rw [h, getLsbD_phySel _ _ (by decide), getLsbD_phySel _ _ (by decide),
    getLsbD_phySel _ _ (by decide)]
  simp only [decide_eq_true_eq]
  split_ifs with h3 h2 h1
  · rw [h3]
  · rw [h2]
  · rw [h1]
  · rw [show a.toNat = 0 by omega]

namespace MemoryEdge

variable {e : MemoryEdge} {b : BufferId} {i : BitVec 11}

/-- What the PHY writes goes through port B. -/
theorem written_phy : Ram.written ((e.phy b).map PhyPort.port) (i.extractLsb' 2 9)
    (i.extractLsb' 0 2).toNat = e.phyWritten (b, i) := by
  have hi : (i.extractLsb' 0 2).toNat < 4 := BitVec.isLt _
  unfold phyWritten
  dsimp only
  cases e.phy b with
  | none => rfl
  | some p =>
      have hdata : lane p.port.data (i.extractLsb' 0 2).toNat = p.phyDatI :=
        Library.lane_ofLanes (fun _ => p.phyDatI) hi
      simp only [Option.map_some, Ram.written, hdata]
      refine if_congr ?_ rfl rfl
      rw [adr_eq_iff]
      simp only [PhyPort.port, getLsbD_phySel _ _ hi, decide_eq_true_eq]

/-- What the bus writes goes through port A. -/
theorem written_wb : Ram.written (e.sys.map fun x => x.port b) (i.extractLsb' 2 9)
    (i.extractLsb' 0 2).toNat = e.wbWritten (b, i) := by
  have hi : (i.extractLsb' 0 2).toNat < 4 := BitVec.isLt _
  unfold wbWritten
  dsimp only
  cases e.sys with
  | none => rfl
  | some x =>
      have hdata : lane (x.port b).data (i.extractLsb' 0 2).toNat =
          bigEndian x.wb.dat (i.extractLsb' 0 2).toNat := Library.lane_swap _ hi
      have hsel : (x.port b).byteena.getLsbD (i.extractLsb' 0 2).toNat =
          x.wb.sel.getLsbD (3 - (i.extractLsb' 0 2).toNat) := by
        show x.wb.sel.reverse.getLsbD _ = _
        rw [BitVec.getLsbD_reverse, BitVec.getMsbD_eq_getLsbD, decide_eq_true hi, Bool.true_and]
      simp only [Option.map_some, Ram.written, hdata, hsel]
      refine if_congr ?_ rfl rfl
      simp only [MemorySysEdge.port, MemorySysEdge.Accesses, Bool.and_eq_true, beq_iff_eq]
      constructor
      · rintro ⟨⟨⟨⟨hcyc, hstb⟩, hwe⟩, hbuf⟩, hword, hlane⟩
        exact ⟨⟨hcyc, hstb, hbuf⟩, hwe, hword, hlane⟩
      · rintro ⟨⟨hcyc, hstb, hbuf⟩, hwe, hword, hlane⟩
        exact ⟨⟨⟨⟨hcyc, hstb⟩, hwe⟩, hbuf⟩, hword, hlane⟩

/-- The bus and the PHY do not write the same word at once. -/
theorem not_both_write (h : ¬ e.Collides b) (word : BitVec 9) :
    ¬ (Ram.Writes (e.sys.map fun x => x.port b) word ∧
      Ram.Writes ((e.phy b).map PhyPort.port) word) := by
  rintro ⟨⟨_, hport, hwb, hwbWord⟩, ⟨_, hphy, hphyWe, hphyWord⟩⟩
  obtain ⟨x, hx, rfl⟩ := Option.map_eq_some_iff.1 hport
  obtain ⟨p, hp, rfl⟩ := Option.map_eq_some_iff.1 hphy
  simp only [MemorySysEdge.port, Bool.and_eq_true, beq_iff_eq] at hwb
  obtain ⟨⟨⟨hcyc, hstb⟩, -⟩, hbuf⟩ := hwb
  exact h ⟨x, hx, p, hp, ⟨hcyc, hstb, hbuf⟩, hwbWord.trans hphyWord.symm, .inl hphyWe⟩

end MemoryEdge

namespace PacketMemory

variable {s : PacketMemory} {e : MemoryEdge} {b : BufferId}

/-- A byte after an instant is what either side writes to it, or what it was. -/
theorem byte_next (h : ∀ b, ¬ e.Collides b) (a : BufferId × BitVec 11) :
    (s.next e).byte a = (e.written a).getD (s.byte a) := by
  obtain ⟨b, i⟩ := a
  have hi : (i.extractLsb' 0 2).toNat < 4 := BitVec.isLt _
  have hcell := Ram.lane_cells_clock (r := (s.buffers b).memBlk) (u := e.undefined b) hi
    (MemoryEdge.not_both_write (h b) (i.extractLsb' 2 9))
  rw [MemoryEdge.written_phy, MemoryEdge.written_wb] at hcell
  refine hcell.trans ?_
  unfold MemoryEdge.written
  cases e.phyWritten (b, i) <;> rfl

/-- A word that the bus reads is stored in the buffer. -/
theorem qA_next (h : ¬ e.Collides b) {x : MemorySysEdge} (hsys : e.sys = some x)
    (haccesses : x.Accesses b) (hwe : x.wb.we = false) :
    ((s.next e).buffers b).memBlk.qA = (s.buffers b).memBlk.cells (x.wb.adr.extractLsb' 2 9) := by
  have hwren : (x.port b).wren = false := by
    simp only [MemorySysEdge.port, hwe, Bool.and_false, Bool.false_and]
  have hother : ¬ Ram.Writes ((e.phy b).map PhyPort.port) (x.port b).address := by
    rintro ⟨_, hphy, hphyWe, hword⟩
    obtain ⟨p, hp, rfl⟩ := Option.map_eq_some_iff.1 hphy
    exact h ⟨x, hsys, p, hp, haccesses, hword.symm, .inl hphyWe⟩
  show Ram.output _ (e.sys.map fun x => x.port b) _ _ _ = _
  rw [hsys]
  exact Ram.output_read rfl hwren hother

/-- The word that the PHY reads is stored in the transmit buffer. -/
theorem txbDat_next (h : ¬ e.Collides .txb) {adr : BitVec 11} (htx : e.tx = some adr) :
    (s.next e).txbDat = s.byte (.txb, adr) := by
  have hphy : e.phy .txb = some ⟨adr, 0, false⟩ := by
    rw [MemoryEdge.phy, htx, Option.map_some]
  have hother : ¬ Ram.Writes (e.sys.map fun x => x.port .txb) (adr.extractLsb' 2 9) := by
    rintro ⟨_, hport, hwb, hword⟩
    obtain ⟨x, hx, rfl⟩ := Option.map_eq_some_iff.1 hport
    simp only [MemorySysEdge.port, Bool.and_eq_true, beq_iff_eq] at hwb
    obtain ⟨⟨⟨hcyc, hstb⟩, hwe⟩, hbuf⟩ := hwb
    exact h ⟨x, hx, _, hphy, ⟨hcyc, hstb, hbuf⟩, hword, .inr ⟨hwe, rfl⟩⟩
  have hsel : ((s.next e).buffers .txb).phySelR = phySel (adr.extractLsb' 0 2) := by
    show (match e.phy .txb with | none => _ | some p => _) = _
    rw [hphy]
  have hq : ((s.next e).buffers .txb).memBlk.qB =
      (s.buffers .txb).memBlk.cells (adr.extractLsb' 2 9) := by
    show Ram.output _ ((e.phy .txb).map PhyPort.port) _ _ _ = _
    rw [hphy]
    exact Ram.output_read rfl rfl hother
  rw [txbDat, AlteraMemory.phyDatO_of_sel hsel, hq, byte]

/-- `wb_dat_o` is the word that was read from the buffer that was addressed, in the other order. -/
theorem wbDatO_of_buf (h : s.front.wbBufR = b.code) : s.wbDatO = swap (s.buffers b).memBlk.qA := by
  unfold wbDatO Minimac2Memory.wbDatO
  rw [h]
  cases b <;> rfl

end PacketMemory

section Runs

open PacketMemory

variable {e : packetMemory.Execution} {t u : Nat}

/-- What was written last to a byte of a buffer, by either side. -/
def contents (e : packetMemory.Execution) (t : Nat) (a : BufferId × BitVec 11) : Byte :=
  lastWritten (fun _ => 0) (fun t => (e.input t).written) t a

/-- The buffers hold what was written last. -/
theorem byte_eq_contents (e : packetMemory.Execution) (t : Nat) (a : BufferId × BitVec 11) :
    (e.state t).byte a = contents e t a := by
  refine Library.eq_lastWritten _ _ (fun t => (e.state t).byte a) ?_ (fun t => ?_) t
  · obtain ⟨b, i⟩ := a
    rw [byte, e.initial b]
    exact BitVec.extractLsb'_zero
  · rw [e.step t]
    exact byte_next (e.allowed t) a

/-- The registers of sys_clk stay until its next edge. -/
theorem sys_kept (htu : t ≤ u) (h : ∀ v, t ≤ v → v < u → (e.input v).sys = none) :
    (e.state u).front = (e.state t).front ∧ ∀ b,
      ((e.state u).buffers b).memBlk.qA = ((e.state t).buffers b).memBlk.qA := by
  refine Machine.Execution.kept_until (Q := fun v => (e.state v).front = (e.state t).front ∧ ∀ b,
    ((e.state v).buffers b).memBlk.qA = ((e.state t).buffers b).memBlk.qA) htu
    ⟨rfl, fun _ => rfl⟩ fun v hfrom hto hv => ?_
  have hnone := h v hfrom hto
  rw [← hv.1, e.step v]
  constructor
  · show (match (e.input v).sys with | none => _ | some x => _) = _
    rw [hnone]
  · intro b
    rw [← hv.2 b]
    show Ram.output _ ((e.input v).sys.map fun x => x.port b) _ _ _ = _
    rw [hnone]
    rfl

/-- The output for the PHY stays until the next edge of phy_tx_clk. -/
theorem tx_kept (htu : t ≤ u) (h : ∀ v, t ≤ v → v < u → (e.input v).tx = none) :
    (e.state u).txbDat = (e.state t).txbDat := by
  refine Machine.Execution.kept_until (Q := fun v => (e.state v).txbDat = (e.state t).txbDat) htu
    rfl fun v hfrom hto hv => ?_
  have hphy : (e.input v).phy .txb = none := by
    rw [MemoryEdge.phy, h v hfrom hto, Option.map_none]
  have hsel : ((e.state (v + 1)).buffers .txb).phySelR = ((e.state v).buffers .txb).phySelR := by
    rw [e.step v]
    show (match (e.input v).phy .txb with | none => _ | some p => _) = _
    rw [hphy]
  have hq : ((e.state (v + 1)).buffers .txb).memBlk.qB = ((e.state v).buffers .txb).memBlk.qB := by
    rw [e.step v]
    show Ram.output _ (((e.input v).phy .txb).map PhyPort.port) _ _ _ = _
    rw [hphy]
    rfl
  rw [← hv]
  simp only [txbDat, AlteraMemory.phyDatO, hsel, hq]

/-- Both sides see the same bytes in the buffers. -/
structure SameBytes (e : packetMemory.Execution) : Prop where
  /-- The buffers hold what was written last, by either side. -/
  stored : ∀ t a, (e.state t).byte a = contents e t a
  /-- A write on the bus changes the selected bytes of the buffer that is addressed, and no others
  than those that the PHY writes itself. -/
  wrote : ∀ t x, (e.input t).sys = some x → x.wb.cyc = true → x.wb.stb = true → x.wb.we = true →
    ∀ b i, (e.input t).phyWritten (b, i) = none →
      (e.state (t + 1)).byte (b, i) =
        if x.wb.adr.extractLsb' 11 2 = b.code ∧ x.wb.adr.extractLsb' 2 9 = i.extractLsb' 2 9 ∧
            x.wb.sel.getLsbD (3 - (i.extractLsb' 0 2).toNat) = true then
          bigEndian x.wb.dat (i.extractLsb' 0 2).toNat
        else (e.state t).byte (b, i)
  /-- A request is acknowledged at the next edge of sys_clk. -/
  acked : ∀ t x u, (e.input t).sys = some x → x.sysRst = false → x.wb.cyc = true →
    x.wb.stb = true → (e.state t).front.wbAckO = false → t < u →
    (∀ v, t < v → v < u → (e.input v).sys = none) → (e.state u).front.wbAckO = true
  /-- A word that is read has the bytes that were written last, at their big-endian offsets. -/
  read : ∀ t x u b, (e.input t).sys = some x → x.Accesses b → x.wb.we = false → t < u →
    (∀ v, t < v → v < u → (e.input v).sys = none) →
    ∀ i : BitVec 11, i.extractLsb' 2 9 = x.wb.adr.extractLsb' 2 9 →
      bigEndian (e.state u).wbDatO (i.extractLsb' 0 2).toNat = contents e t (b, i)
  /-- The transmitter sees the byte at `txb_adr` one edge of phy_tx_clk later. -/
  transmitted : ∀ t adr u, (e.input t).tx = some adr → t < u →
    (∀ v, t < v → v < u → (e.input v).tx = none) →
    (e.state u).txbDat = contents e t (.txb, adr)

/-- In every run, both sides see the same bytes. -/
theorem same_bytes (e : packetMemory.Execution) : SameBytes e where
  stored := byte_eq_contents e
  wrote t x hsys hcyc hstb hwe b i hphy := by
    have hbyte : (e.state (t + 1)).byte (b, i) =
        ((e.input t).written (b, i)).getD ((e.state t).byte (b, i)) := by
      rw [e.step t]
      exact byte_next (e.allowed t) (b, i)
    rw [hbyte, MemoryEdge.written, hphy, Option.none_or, MemoryEdge.wbWritten]
    simp only [hsys, MemorySysEdge.Accesses, hcyc, hstb, hwe, true_and]
    split_ifs <;> rfl
  acked t x u hsys hrst hcyc hstb hack htu hquiet := by
    have hnext : (e.state (t + 1)).front = (e.state t).front.next x.wb := by
      rw [e.step t]
      show (match (e.input t).sys with | none => _ | some x => _) = _
      rw [hsys]
      exact if_neg (by rw [hrst]; nofun)
    rw [(sys_kept htu hquiet).1, hnext]
    show (x.wb.cyc && x.wb.stb && !(e.state t).front.wbAckO) = true
    rw [hcyc, hstb, hack]
    rfl
  read t x u b hsys haccesses hwe htu hquiet i hi := by
    have hbuf : (e.state (t + 1)).front.wbBufR = b.code := by
      rw [e.step t, ← haccesses.2.2]
      show (match (e.input t).sys with | none => _ | some x => _ : Minimac2Memory).wbBufR = _
      rw [hsys]
      show (if x.sysRst then _ else _ : Minimac2Memory).wbBufR = _
      split_ifs <;> rfl
    have hq : ((e.state (t + 1)).buffers b).memBlk.qA =
        ((e.state t).buffers b).memBlk.cells (i.extractLsb' 2 9) := by
      rw [e.step t, hi]
      exact qA_next (e.allowed t b) hsys haccesses hwe
    obtain ⟨hfront, hkept⟩ := sys_kept htu hquiet
    have hlane : (i.extractLsb' 0 2).toNat < 4 := BitVec.isLt _
    have hdat : (e.state u).wbDatO = swap ((e.state u).buffers b).memBlk.qA :=
      wbDatO_of_buf (hfront ▸ hbuf)
    rw [← byte_eq_contents, hdat, hkept b, hq, bigEndian, Library.lane_swap _ (by omega), byte]
    congr 1
    omega
  transmitted t adr u htx htu hquiet := by
    rw [tx_kept htu hquiet, ← byte_eq_contents, e.step t]
    exact txbDat_next (e.allowed t .txb) htx

end Runs

end Soc.Minimac2
