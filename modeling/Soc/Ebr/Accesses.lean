import Soc.Ebr.Ctrl

/-!
# The on-chip RAM is a memory of bytes

A classic access takes two cycles. In the first one, in IDLE, the controller reads the word; in the
second one, in END, it acknowledges, shows the word, and writes it back with the selected bytes
replaced if the access is a write. It reads in IDLE and writes in END, never both at once, so the
traffic of other slaves between the accesses does not matter. The main theorem is `byte_addressed`.
-/

namespace Soc.Ebr

open Library (Machine Ram Undefined lane lastWritten merge)

variable {w : Nat}

/-- The address of a word, as the RAM counts. -/
theorem word_eq (adr : Word) : Slave.word w adr = adr.extractLsb' 2 w := by
  apply BitVec.eq_of_getLsbD_eq
  intro i hi
  have hinside : 2 + i < w + 2 := by omega
  simp only [Slave.word, BitVec.getLsbD_extractLsb', hi, hinside, decide_true, Bool.true_and,
    Nat.zero_add]

namespace Slave

variable {s : Slave w} {c : Cycle} {i : BitVec w} {k : Nat}

/-- A byte of the RAM. -/
def byte (s : Slave w) : BitVec w × Nat → Byte
  | (i, k) => lane (s.ctrl.ram.cells i) k

/-- The byte that is written in a cycle: a write access is acknowledged, and the byte selected. -/
def written (s : Slave w) (c : Cycle) : BitVec w × Nat → Option Byte
  | (i, k) =>
      if s.ctrl.ebrAckO = true ∧ presents c.wb = true ∧ c.wb.we = true ∧ word w c.wb.adr = i ∧
          c.wb.sel.getLsbD k = true then
        some (lane c.wb.dat k)
      else none

/-- The invariant: the controller is in IDLE without a request that waits, or in END with the word
that is asked for. -/
inductive Serving (s : Slave w) : Prop where
  | idle (hstate : s.ctrl.state = .idle) (hack : s.ctrl.ebrAckO = false)
      (hwaits : s.waits = false)
  | ending (hstate : s.ctrl.state = .ending) (hack : s.ctrl.ebrAckO = true)
      (hpresents : presents s.last = true) (hacked : s.acked = false)
      (hdata : s.ctrl.data = s.ctrl.ram.cells (word w s.last.adr))

/-- The accesses are classic ones and held until they are acknowledged. What comes behind the ack is
free: the next access may be there at once. -/
structure Holds (s : Slave w) (c : Cycle) : Prop where
  classic : presents c.wb = true → Ebr.classic c.wb.cti = true
  held : presents s.last = true → s.acked = false → Conbus.Bus.Held s.last c.wb

/-- What the bus of this system allows. -/
theorem Allowed.holds (h : s.Allowed c) : s.Holds c where
  classic := h.1
  held hpresents hacked := by
    have hheld := h.2 hpresents
    rw [hacked, if_neg Bool.false_ne_true] at hheld
    exact hheld

/-- In IDLE nothing is written. -/
theorem writeEnable_idle (hstate : s.ctrl.state = .idle) (hholds : s.Holds c) :
    s.ctrl.writeEnable c.wb = false := by
  have hclassic := hholds.classic
  unfold presents at hclassic
  unfold Ctrl.writeEnable
  rw [hstate]
  cases hcyc : c.wb.cyc with
  | false => simp
  | true =>
      cases hstb : c.wb.stb with
      | false => simp
      | true =>
          rw [hcyc, hstb] at hclassic
          simp [hclassic rfl]

/-- In END a write is written. -/
theorem writeEnable_ending (hstate : s.ctrl.state = .ending) :
    s.ctrl.writeEnable c.wb = c.wb.we := by
  unfold Ctrl.writeEnable
  rw [hstate]
  simp

/-- In END nothing is read for a write. -/
theorem readEnable_ending (hstate : s.ctrl.state = .ending) :
    s.ctrl.readEnable c.wb = !c.wb.we := by
  unfold Ctrl.readEnable
  rw [hstate]
  cases c.wb.we <;> simp

/-- In IDLE the word of a classic access is read. -/
theorem readEnable_idle (hstate : s.ctrl.state = .idle) (hclassic : classic c.wb.cti = true) :
    s.ctrl.readEnable c.wb = true := by
  unfold Ctrl.readEnable
  rw [hstate, hclassic]
  cases c.wb.we <;> simp

/-- The RAM never reads and writes in the same cycle. -/
theorem Serving.apart (h : s.Serving) (hholds : s.Holds c) :
    ¬ (s.ctrl.readEnable c.wb = true ∧ s.ctrl.writeEnable c.wb = true) := by
  rintro ⟨hread, hwrite⟩
  cases h with
  | idle hstate =>
      rw [writeEnable_idle hstate hholds] at hwrite
      cases hwrite
  | ending hstate =>
      rw [readEnable_ending hstate] at hread
      rw [writeEnable_ending hstate] at hwrite
      rw [hwrite] at hread
      cases hread

/-- Without a write, the contents stay. -/
theorem cells_of_not_write (hwrite : s.ctrl.writeEnable c.wb = false) :
    (s.next c).ctrl.ram.cells = s.ctrl.ram.cells := by
  funext i
  exact Ram.cells_of_not_writes (Ram.not_writes hwrite) (Ram.not_writes rfl)

/-- A byte after a cycle is what the port that writes has written, or what it was. -/
theorem byte_next_port (hk : k < 4) : (s.next c).byte (i, k) =
    (Ram.written (some (s.ctrl.writePort c.wb)) i k).getD (s.byte (i, k)) := by
  have hnone : Ram.written (some (s.ctrl.readPort c.wb)) i k = none := rfl
  have hbyte := Ram.lane_cells_clock (r := s.ctrl.ram) (a := some (s.ctrl.writePort c.wb))
    (b := some (s.ctrl.readPort c.wb)) (u := c.undefined) (i := i) hk
    fun h => Ram.not_writes rfl h.2
  rw [hnone, Option.getD_none] at hbyte
  exact hbyte

/-- The request that waits is still presented. -/
theorem Holds.presents (hholds : s.Holds c) (hpresents : presents s.last = true)
    (hacked : s.acked = false) : presents c.wb = true ∧ Conbus.Bus.Held s.last c.wb := by
  have hheld := hholds.held hpresents hacked
  refine ⟨?_, hheld⟩
  rw [Ebr.presents, hheld.1, hheld.2.1]
  exact hpresents

/-- A cycle changes the bytes that are selected in a write access that is acknowledged. -/
theorem Serving.byte_next (h : s.Serving) (hholds : s.Holds c) (hk : k < 4) :
    (s.next c).byte (i, k) = (s.written c (i, k)).getD (s.byte (i, k)) := by
  rw [byte_next_port hk]
  cases h with
  | idle hstate hack =>
      have hport : Ram.written (some (s.ctrl.writePort c.wb)) i k = none :=
        if_neg fun h => Bool.false_ne_true ((writeEnable_idle hstate hholds).symm.trans h.1)
      have hwritten : s.written c (i, k) = none :=
        if_neg fun h => Bool.false_ne_true (hack.symm.trans h.1)
      rw [hport, hwritten]
  | ending hstate hack hpresents hacked hdata =>
      obtain ⟨hpresents', hheld⟩ := hholds.presents hpresents hacked
      have hwren : (s.ctrl.writePort c.wb).wren = c.wb.we := writeEnable_ending hstate
      have haddress : (s.ctrl.writePort c.wb).address = word w c.wb.adr := by
        rw [word_eq]
        exact if_neg (by rw [hstate]; decide)
      have hbyteena : (s.ctrl.writePort c.wb).byteena.getLsbD k = true :=
        (show ∀ k, k < 4 → (0b1111 : BitVec 4).getLsbD k = true by decide) k hk
      have hwriteData : (s.ctrl.writePort c.wb).data = merge c.wb.sel c.wb.dat s.ctrl.data :=
        if_neg (by rw [Ctrl.delayedWrite, hstate]; decide)
      unfold Ram.written written
      dsimp only
      rw [hwren, haddress, hbyteena, hwriteData, Library.lane_merge _ _ _ hk, hdata, ← hheld.2.2.1]
      by_cases hwrite : c.wb.we = true ∧ word w c.wb.adr = i
      · obtain ⟨hwe, rfl⟩ := hwrite
        rw [if_pos ⟨hwe, rfl, rfl⟩]
        by_cases hsel : c.wb.sel.getLsbD k = true
        · rw [if_pos hsel, if_pos ⟨hack, hpresents', hwe, rfl, hsel⟩]
        · rw [if_neg hsel, if_neg fun h => hsel h.2.2.2.2]
          rfl
      · rw [if_neg fun h => hwrite ⟨h.1, h.2.1⟩, if_neg fun h => hwrite ⟨h.2.2.1, h.2.2.2.1⟩]

/-- The word that is read in IDLE. -/
theorem data_next (hstate : s.ctrl.state = .idle) (hholds : s.Holds c)
    (hpresents : presents c.wb = true) :
    (s.next c).ctrl.data = (s.next c).ctrl.ram.cells (word w c.wb.adr) := by
  have haddress : (s.ctrl.readPort c.wb).address = word w c.wb.adr := by
    rw [word_eq]
    exact if_pos (.inl hstate)
  have hwrite := writeEnable_idle hstate hholds
  rw [cells_of_not_write hwrite, ← haddress]
  have hread := readEnable_idle hstate (hholds.classic hpresents)
  exact Ram.output_read hread rfl (Ram.not_writes hwrite)

/-- A request in IDLE leads to END. -/
theorem Serving.next_of_presents (hstate : s.ctrl.state = .idle) (hack : s.ctrl.ebrAckO = false)
    (hholds : s.Holds c) (hpresents : presents c.wb = true) : (s.next c).Serving := by
  have hclassic := hholds.classic hpresents
  have hboth := Bool.and_eq_true_iff.1 hpresents
  refine .ending ?_ ?_ hpresents hack (data_next hstate hholds hpresents)
  · show s.ctrl.stateNxt c.wb = _
    simp [Ctrl.stateNxt, hstate, hack, hboth.1, hboth.2, hclassic]
  · show s.ctrl.ebrAckONxt c.wb = _
    simp [Ctrl.ebrAckONxt, hstate, hack, hboth.1, hboth.2]

/-- Every cycle keeps the invariant. -/
theorem Serving.next (h : s.Serving) (hholds : s.Holds c) : (s.next c).Serving := by
  cases h with
  | idle hstate hack hwaits =>
      cases hpresents : presents c.wb with
      | true => exact next_of_presents hstate hack hholds hpresents
      | false =>
          have hnot : (c.wb.stb && c.wb.cyc) = false := (Bool.and_comm _ _).trans hpresents
          refine .idle ?_ ?_ ?_
          · show s.ctrl.stateNxt c.wb = _
            simp [Ctrl.stateNxt, hstate, hnot]
          · show s.ctrl.ebrAckONxt c.wb = _
            rw [presents] at hpresents
            simp [Ctrl.ebrAckONxt, hstate, hpresents]
          · show (presents c.wb && _) = false
            rw [hpresents, Bool.false_and]
  | ending hstate hack =>
      refine .idle ?_ ?_ ?_
      · show s.ctrl.stateNxt c.wb = _
        simp [Ctrl.stateNxt, hstate]
      · show s.ctrl.ebrAckONxt c.wb = _
        simp [Ctrl.ebrAckONxt, hstate]
      · show (presents c.wb && !s.ctrl.ebrAckO) = false
        rw [hack, Bool.not_true, Bool.and_false]

/-- An access starts in IDLE and is acknowledged in the next cycle. -/
theorem Serving.starts_ending (h : s.Serving) (hstarts : s.starts c = true) :
    s.ctrl.state = .idle ∧ s.ctrl.ebrAckO = false ∧ (s.next c).ctrl.ebrAckO = true := by
  obtain ⟨hpresents, hwaits⟩ := Bool.and_eq_true_iff.1 hstarts
  cases h with
  | idle hstate hack =>
      refine ⟨hstate, hack, ?_⟩
      show s.ctrl.ebrAckONxt c.wb = true
      have hboth := Bool.and_eq_true_iff.1 hpresents
      simp [Ctrl.ebrAckONxt, hstate, hack, hboth.1, hboth.2]
  | ending _ _ hlast hacked =>
      rw [waits, hlast, hacked] at hwaits
      cases hwaits

/-- An access is held in its second cycle. -/
theorem Serving.starts_held (h : s.Serving) (hstarts : s.starts c = true) {c' : Cycle}
    (hholds : (s.next c).Holds c') :
    presents c'.wb = true ∧ Conbus.Bus.Held c.wb c'.wb :=
  hholds.presents (Bool.and_eq_true_iff.1 hstarts).1 (h.starts_ending hstarts).2.1

/-- An access takes two cycles. As a write it changes the bytes that are selected, and nothing else
changes. -/
theorem Serving.byte_access (h : s.Serving) (hholds : s.Holds c) (hstarts : s.starts c = true)
    {c' : Cycle} (hholds' : (s.next c).Holds c') (hk : k < 4) :
    ((s.next c).next c').byte (i, k) =
      if c.wb.we = true ∧ word w c.wb.adr = i ∧ c.wb.sel.getLsbD k = true then lane c.wb.dat k
      else s.byte (i, k) := by
  obtain ⟨-, hack, hack'⟩ := h.starts_ending hstarts
  obtain ⟨hpresents, -, -, hadr, hwe, hsel, hdat⟩ := h.starts_held hstarts hholds'
  have hfirst : s.written c (i, k) = none :=
    if_neg fun h => Bool.false_ne_true (hack.symm.trans h.1)
  rw [(h.next hholds).byte_next hholds' hk, h.byte_next hholds hk, hfirst, Option.getD_none, ← hadr,
    ← hwe, ← hsel, ← hdat]
  unfold written
  dsimp only
  simp only [hack', hpresents, true_and]
  split <;> rfl

/-- The invariant holds after reset. -/
theorem serving_of_initial (h : s.ctrl.AfterReset ∧ presents s.last = false) : s.Serving := by
  obtain ⟨⟨hack, -, -, hstate, -⟩, hlast⟩ := h
  refine .idle hstate hack ?_
  rw [waits, hlast, Bool.false_and]

end Slave

open Slave (word)

variable {e : (slave w).Execution} {t k : Nat} {i : BitVec w}

/-- What was written last to a byte of the RAM. -/
def contents (e : (slave w).Execution) (t : Nat) (a : BitVec w × Nat) : Byte :=
  lastWritten (e.state 0).byte (fun t => (e.state t).written (e.input t)) t a

/-- All states of a run satisfy the invariant. -/
theorem serving_state (e : (slave w).Execution) (t : Nat) : (e.state t).Serving :=
  e.invariant (fun _ => Slave.serving_of_initial) (fun _ _ h hallowed => h.next hallowed.holds) t

/-- A byte after a cycle of a run. -/
theorem byte_succ (e : (slave w).Execution) (t : Nat) (hk : k < 4) : (e.state (t + 1)).byte (i, k) =
    ((e.state t).written (e.input t) (i, k)).getD ((e.state t).byte (i, k)) := by
  rw [e.step t]
  exact (serving_state e t).byte_next (e.allowed t).holds hk

/-- The RAM holds what was written last. -/
theorem byte_eq_contents (e : (slave w).Execution) (t : Nat) (hk : k < 4) :
    (e.state t).byte (i, k) = contents e t (i, k) :=
  Library.eq_lastWritten _ _ (fun t => (e.state t).byte (i, k)) rfl (fun t => byte_succ e t hk) t

/-- An access starts in IDLE and leads to END. -/
theorem starts_ending (e : (slave w).Execution) (t : Nat)
    (hstarts : (e.state t).starts (e.input t) = true) :
    (e.state t).ctrl.state = .idle ∧ (e.state t).ctrl.ebrAckO = false ∧
      (e.state (t + 1)).ctrl.ebrAckO = true := by
  rw [e.step t]
  exact (serving_state e t).starts_ending hstarts

/-- An access is held in its second cycle. -/
theorem starts_held (e : (slave w).Execution) (t : Nat)
    (hstarts : (e.state t).starts (e.input t) = true) :
    presents (e.input (t + 1)).wb = true ∧
      Conbus.Bus.Held (e.input t).wb (e.input (t + 1)).wb := by
  have hallowed := e.allowed (t + 1)
  rw [e.step t] at hallowed
  exact (serving_state e t).starts_held hstarts hallowed.holds

/-- Behind its second cycle, an access is dropped. -/
theorem starts_dropped (e : (slave w).Execution) (t : Nat)
    (hstarts : (e.state t).starts (e.input t) = true) : presents (e.input (t + 2)).wb = false := by
  obtain ⟨-, -, hack⟩ := starts_ending e t hstarts
  have hdropped := (e.allowed (t + 2)).2
  rw [e.step (t + 1)] at hdropped
  have hcyc := hdropped (starts_held e t hstarts).1
  rw [show ((slave w).next (e.state (t + 1)) (e.input (t + 1))).acked = true from hack,
    if_pos rfl] at hcyc
  rw [presents, hcyc, Bool.false_and]

/-- Only an access is acknowledged. -/
theorem starts_of_ack (e : (slave w).Execution) (t : Nat)
    (hack : (e.state (t + 1)).ctrl.ebrAckO = true) : (e.state t).starts (e.input t) = true := by
  rw [e.step t] at hack
  have hnxt : (e.state t).ctrl.ebrAckONxt (e.input t).wb = true := hack
  cases serving_state e t with
  | idle hstate hack' hwaits =>
      have hpresents : presents (e.input t).wb = true := by
        simpa [Ctrl.ebrAckONxt, hstate, hack', presents] using hnxt
      rw [Slave.starts, hpresents, hwaits]
      rfl
  | ending hstate => simp [Ctrl.ebrAckONxt, hstate] at hnxt

/-- In its second cycle, an access sees the word it goes to. -/
theorem starts_data (e : (slave w).Execution) (t : Nat)
    (hstarts : (e.state t).starts (e.input t) = true) :
    (e.state (t + 1)).ctrl.data =
      (e.state (t + 1)).ctrl.ram.cells (word w (e.input t).wb.adr) := by
  obtain ⟨-, -, hack⟩ := starts_ending e t hstarts
  have hlast : (e.state (t + 1)).last = (e.input t).wb := by
    rw [e.step t]
    rfl
  cases serving_state e (t + 1) with
  | idle _ hnot => exact absurd (hnot.symm.trans hack) Bool.false_ne_true
  | ending _ _ _ _ hdata => rw [hdata, hlast]

/-- The RAM is a memory of bytes for the accesses of a run. -/
structure ByteAddressed (e : (slave w).Execution) : Prop where
  /-- An access is acknowledged once: it is held for two cycles, and sees ack in the second one. -/
  once : ∀ t, (e.state t).starts (e.input t) = true →
    (e.state t).ctrl.ebrAckO = false ∧ (e.state (t + 1)).ctrl.ebrAckO = true ∧
      presents (e.input (t + 1)).wb = true ∧ presents (e.input (t + 2)).wb = false
  /-- Nothing else is acknowledged. -/
  only : (e.state 0).ctrl.ebrAckO = false ∧
    ∀ t, (e.state (t + 1)).ctrl.ebrAckO = true → (e.state t).starts (e.input t) = true
  /-- A read returns the bytes that were written last. -/
  read : ∀ t k, (e.state t).starts (e.input t) = true → k < 4 →
    lane (e.state (t + 1)).ctrl.data k = contents e (t + 1) (word w (e.input t).wb.adr, k)
  /-- A write changes the selected bytes, and nothing else changes a byte. -/
  write : ∀ t i k, (e.state t).starts (e.input t) = true → k < 4 →
    (e.state (t + 2)).byte (i, k) =
      if (e.input t).wb.we = true ∧ word w (e.input t).wb.adr = i ∧
          (e.input t).wb.sel.getLsbD k = true then
        lane (e.input t).wb.dat k
      else (e.state t).byte (i, k)
  /-- Between the accesses no byte changes. -/
  quiet : ∀ t i k, (e.state t).ctrl.ebrAckO = false → k < 4 →
    (e.state (t + 1)).byte (i, k) = (e.state t).byte (i, k)
  /-- No cycle reads and writes at once. -/
  apart : ∀ t, ¬ ((e.state t).ctrl.readEnable (e.input t).wb = true ∧
    (e.state t).ctrl.writeEnable (e.input t).wb = true)

/-- In every run, the RAM is a memory of bytes. -/
theorem byte_addressed (e : (slave w).Execution) : ByteAddressed e where
  once t hstarts := by
    obtain ⟨-, hack, hack'⟩ := starts_ending e t hstarts
    exact ⟨hack, hack', (starts_held e t hstarts).1, starts_dropped e t hstarts⟩
  only := ⟨e.initial.1.1, starts_of_ack e⟩
  read t k hstarts hk := by
    rw [starts_data e t hstarts]
    exact byte_eq_contents e (t + 1) hk
  write t i k hstarts hk := by
    have hallowed := e.allowed (t + 1)
    rw [e.step (t + 1)]
    rw [e.step t] at hallowed ⊢
    exact (serving_state e t).byte_access (e.allowed t).holds hstarts hallowed.holds hk
  quiet t i k hack hk := by
    rw [byte_succ e t hk, Slave.written, if_neg fun h => Bool.false_ne_true (hack.symm.trans h.1)]
    rfl
  apart t := (serving_state e t).apart (e.allowed t).holds

end Soc.Ebr
