import Soc.Minimac2.Mdio

/-!
# Access to the registers of the PHY

`mdio_write` and `mdio_read` of `libnet/mdio.c` drive the management lines bit by bit, through the
register of the MAC. Between two accesses to the register the system clock runs for any number of
cycles, in which anything else may happen on the bus; a `delay` takes longer than the synchroniser
of the MAC. The main theorem is `speaks_clause_22`.
-/

namespace Soc.Libnet.Mdio

open Minimac2 (Ctlif CtlifIn MdcEdge Lines Phy minimacAddr CSR_MINIMAC_MDIO)

/-- `MINIMAC_MDIO_DO`. -/
def MINIMAC_MDIO_DO : Word := 0x1

/-- `MINIMAC_MDIO_DI`. -/
def MINIMAC_MDIO_DI : Word := 0x2

/-- `MINIMAC_MDIO_OE`. -/
def MINIMAC_MDIO_OE : Word := 0x4

/-- `MINIMAC_MDIO_CLK`. -/
def MINIMAC_MDIO_CLK : Word := 0x8

/-- A cycle in which the register is not written. -/
structure Quiet where
  bus : CsrBus
  inputs : CtlifIn
  quiet : bus.writes minimacAddr 1 = false

/-- What happens around a step of the program: the cycles before it, two more if it is a delay, and
what the MAC sees in the cycle of an access. -/
structure Gap where
  idle : List Quiet
  first : Quiet
  second : Quiet
  inputs : CtlifIn

/-- The PHY, and the gaps between the steps of the program. -/
structure Board where
  phy : Phy
  gap : Nat → Gap

/-- The lines, and the number of steps so far. -/
structure State where
  lines : Lines
  steps : Nat

/-- Code that accesses the register. -/
abbrev Code := StateM State

section Program

variable (b : Board)

/-- The cycles before a step. -/
def wait (s : State) : Lines :=
  (b.gap s.steps).idle.foldl (fun l q => l.cycle b.phy q.bus q.inputs) s.lines

/-- `CSR_MINIMAC_MDIO = value`. -/
def store (value : Word) : Code Unit := fun s =>
  ((), ⟨(wait b s).cycle b.phy (.store CSR_MINIMAC_MDIO value) (b.gap s.steps).inputs,
    s.steps + 1⟩)

/-- `CSR_MINIMAC_MDIO`. -/
def load : Code Word := fun s =>
  let lines := (wait b s).cycle b.phy (.load CSR_MINIMAC_MDIO) (b.gap s.steps).inputs
  (lines.ctlif.csrDo, ⟨lines, s.steps + 1⟩)

/-- `delay`. -/
def delay : Code Unit := fun s =>
  let g := b.gap s.steps
  let lines := (wait b s).cycle b.phy g.first.bus g.first.inputs
  ((), ⟨lines.cycle b.phy g.second.bus g.second.inputs, s.steps + 1⟩)

/-- The loop of `raw_write`, with `bitcount` bits left to go. -/
def rawWriteFrom : Nat → Word → Code Unit
  | 0, _ => pure ()
  | bitcount + 1, word => do
      if test word 0x80000000 then
        store b (MINIMAC_MDIO_DO ||| MINIMAC_MDIO_OE)
        delay b
        store b (MINIMAC_MDIO_CLK ||| MINIMAC_MDIO_DO ||| MINIMAC_MDIO_OE)
        delay b
        store b (MINIMAC_MDIO_DO ||| MINIMAC_MDIO_OE)
      else
        store b MINIMAC_MDIO_OE
        delay b
        store b (MINIMAC_MDIO_CLK ||| MINIMAC_MDIO_OE)
        delay b
        store b MINIMAC_MDIO_OE
      rawWriteFrom bitcount (word <<< 1)

/-- `raw_write`. -/
def rawWrite (word : Word) (bitcount : Nat) : Code Unit :=
  rawWriteFrom b bitcount (word <<< (32 - bitcount))

/-- The loop of `raw_read`, with `n` bits left to go. -/
def rawReadFrom : Nat → Word → Code Word
  | 0, word => pure word
  | n + 1, word => do
      delay b
      store b MINIMAC_MDIO_CLK
      delay b
      store b 0
      let word := word <<< 1
      let mdio ← load b
      rawReadFrom n (if test mdio MINIMAC_MDIO_DI then word ||| 1 else word)

/-- `raw_read`. -/
def rawRead : Code Word := rawReadFrom b 16 0

/-- `raw_turnaround`. -/
def rawTurnaround : Code Unit := do
  delay b
  store b MINIMAC_MDIO_CLK
  delay b
  store b 0

/-- `mdio_write`. -/
def mdioWrite (phyadr reg val : Word) : Code Unit := do
  store b MINIMAC_MDIO_OE
  rawWrite b 0xffffffff 32
  rawWrite b 0x05 4
  rawWrite b phyadr 5
  rawWrite b reg 5
  rawWrite b 0x02 2
  rawWrite b val 16
  store b 0
  rawTurnaround b

/-- `mdio_read`. -/
def mdioRead (phyadr reg : Word) : Code Word := do
  store b MINIMAC_MDIO_OE
  rawWrite b 0xffffffff 32
  rawWrite b 0x06 4
  rawWrite b phyadr 5
  rawWrite b reg 5
  store b 0
  rawTurnaround b
  let r ← rawRead b
  rawTurnaround b
  pure r

/-- A call of one of the two functions. -/
inductive Call where
  | write (phyadr reg val : Word)
  | read (phyadr reg : Word)

/-- A call, without its result. -/
def Call.run (s : State) : Call → State
  | .write phyadr reg val => ((mdioWrite b phyadr reg val).run s).2
  | .read phyadr reg => ((mdioRead b phyadr reg).run s).2

end Program

/-- The system after the reset of the MAC. -/
def afterReset (c : Ctlif) (i : CtlifIn) : State := ⟨⟨c.reset i, [], true⟩, 0⟩

/-- The bits of a number, most significant bit first. -/
def bits {n : Nat} (v : BitVec n) : List Bool := (List.range n).map v.getMsbD

/-- The frame that writes a register: preamble, start and operation, the two addresses, turnaround
and value. -/
def writeFrame (phyadr reg : BitVec 5) (val : BitVec 16) : List Bool :=
  List.replicate 32 true ++ bits 0b0101#4 ++ bits phyadr ++ bits reg ++ bits 0b10#2 ++ bits val

/-- The frame that reads a register, up to the turnaround. -/
def readHeader (phyadr reg : BitVec 5) : List Bool :=
  List.replicate 32 true ++ bits 0b0110#4 ++ bits phyadr ++ bits reg

/-- The edges at which the MAC drives these bits. -/
def driven (values : List Bool) : List MdcEdge := values.map (MdcEdge.mk true)

/-- The lower bits of a word, the upper ones of them first. -/
def lowBits (v : Word) : Nat → List Bool
  | 0 => []
  | n + 1 => v.getLsbD n :: lowBits v n

/-- The PHY drives these values one after the other, and sees each of them at the next edge. -/
def Sends (phy : Phy) : List Bool → List Bool → Prop
  | _, [] => True
  | history, v :: values => phy history = some v ∧ Sends phy (history ++ [v]) values

instance Sends.decidable (phy : Phy) : (history values : List Bool) →
    Decidable (Sends phy history values)
  | _, [] => isTrue trivial
  | history, v :: values =>
      have := Sends.decidable phy (history ++ [v]) values
      inferInstanceAs (Decidable (phy history = some v ∧ Sends phy (history ++ [v]) values))

/-- The PHY answers a header: whatever it sees at the next edge, where nobody drives, it then drives
the turnaround zero and the bits of a register. -/
def Answers (phy : Phy) (history : List Bool) (v : BitVec 16) : Prop :=
  ∀ x, Sends phy (history ++ [x]) (false :: bits v)

variable {b : Board} {s : State} {l : Lines} {mdc oe mdio value : Bool} {edges : List MdcEdge}

section Steps

/-- One piece of code after another. -/
theorem run_bind {α β : Type} (x : Code α) (f : α → Code β) (s : State) :
    (x >>= f).run s = (f (x.run s).1).run (x.run s).2 := rfl

/-- Code that only returns a value. -/
theorem run_pure {α : Type} (a : α) (s : State) : (pure a : Code α).run s = (a, s) := rfl

/-- What every quiet cycle keeps is kept while a step waits. -/
theorem wait_of {P : Lines → Prop}
    (hkeep : ∀ l (q : Quiet), P l → P (l.cycle b.phy q.bus q.inputs)) (h : P s.lines) :
    P (wait b s) := by
  unfold wait
  generalize (b.gap s.steps).idle = idle
  generalize s.lines = l at h
  induction idle generalizing l with
  | nil => exact h
  | cons q idle ih => exact ih _ (hkeep l q h)

/-- The lines stay while a step waits. -/
theorem wait_at (h : s.lines.At mdc oe mdio edges) : (wait b s).At mdc oe mdio edges :=
  wait_of (fun _ q h => h.quiet q.quiet) h

/-- A delay changes no line. -/
theorem delay_at (h : s.lines.At mdc oe mdio edges) :
    ((delay b).run s).2.lines.At mdc oe mdio edges :=
  ((wait_at h).quiet (b.gap s.steps).first.quiet).quiet (b.gap s.steps).second.quiet

/-- A quiet cycle samples what the PHY drives. -/
theorem driven_quiet (q : Quiet) (h : l.At mdc false mdio edges) (hdriven : l.Driven b.phy value) :
    (l.cycle b.phy q.bus q.inputs).Driven b.phy value ∧
      (l.cycle b.phy q.bus q.inputs).ctlif.miiDataDi1 = value :=
  hdriven.cycle ((h.quiet q.quiet).edges.trans h.edges.symm) (h.quiet q.quiet).oe

/-- After a delay, both flip-flops hold what the PHY drives. -/
theorem delay_sampled (h : s.lines.At mdc false mdio edges) (hdriven : s.lines.Driven b.phy value) :
    ((delay b).run s).2.lines.Sampled b.phy value := by
  have hwait : (wait b s).At mdc false mdio edges ∧ (wait b s).Driven b.phy value :=
    wait_of (P := fun l => l.At mdc false mdio edges ∧ l.Driven b.phy value)
      (fun _ q h => ⟨h.1.quiet q.quiet, (driven_quiet q h.1 h.2).1⟩) ⟨h, hdriven⟩
  obtain ⟨hfirst, hdi1⟩ := driven_quiet (b.gap s.steps).first hwait.1 hwait.2
  obtain ⟨hsecond, hdi1'⟩ := driven_quiet (b.gap s.steps).second
    (hwait.1.quiet (b.gap s.steps).first.quiet) hfirst
  exact ⟨hsecond, hdi1', hdi1⟩

/-- A sampled value stays while a step waits. -/
theorem wait_sampled (h : s.lines.At mdc false mdio edges)
    (hsampled : s.lines.Sampled b.phy value) :
    (wait b s).Sampled b.phy value :=
  (wait_of (P := fun l => l.At mdc false mdio edges ∧ l.Sampled b.phy value)
    (fun _ q h => ⟨h.1.quiet q.quiet, h.2.cycle ((h.1.quiet q.quiet).edges.trans h.1.edges.symm)
      (h.1.quiet q.quiet).oe⟩) ⟨h, hsampled⟩).2

/-- A store while MDC is low. -/
theorem store_low (word : Word) (h : s.lines.At false oe mdio edges) (hclk : bit word 3 = false) :
    ((store b word).run s).2.lines.At false (bit word 2) (bit word 0) edges :=
  (wait_at h).low hclk

/-- A store that stops driving MDIO, while MDC is low. -/
theorem store_release (h : s.lines.At false oe mdio edges) :
    ((store b 0).run s).2.lines.At false false false edges := by
  have hoe : bit 0 2 = false := by decide
  have hdo : bit 0 0 = false := by decide
  have hlow := store_low (b := b) 0 h (by decide)
  rwa [hoe, hdo] at hlow

/-- A store that raises MDC. -/
theorem store_rise (word : Word) (h : s.lines.At false oe mdio edges) (hclk : bit word 3 = true)
    (hoe : bit word 2 = oe) (hdo : bit word 0 = mdio) :
    ∃ x, (oe = true → x = mdio) ∧
      (∀ value, oe = false → b.phy (edges.map MdcEdge.mdio) = some value → x = value) ∧
      ((store b word).run s).2.lines.At true oe mdio (edges ++ [⟨oe, x⟩]) :=
  (wait_at h).rise hclk hoe hdo

/-- A store that lowers MDC. -/
theorem store_fall (word : Word) (h : s.lines.At true oe mdio edges) (hclk : bit word 3 = false)
    (hoe : bit word 2 = oe) (hdo : bit word 0 = mdio) :
    ((store b word).run s).2.lines.At false oe mdio edges :=
  (wait_at h).fall hclk hoe hdo

/-- A store that changes no line leaves what was sampled. -/
theorem store_sampled (word : Word) {mdc' : Bool} (h : s.lines.At mdc false mdio edges)
    (hsampled : s.lines.Sampled b.phy value)
    (hafter : ((store b word).run s).2.lines.At mdc' false mdio edges) :
    ((store b word).run s).2.lines.Sampled b.phy value :=
  (wait_sampled h hsampled).cycle (hafter.edges.trans (wait_at h).edges.symm) hafter.oe

/-- A load finds what was sampled. -/
theorem load_sampled (h : s.lines.At mdc false mdio edges)
    (hsampled : s.lines.Sampled b.phy value) :
    test ((load b).run s).1 MINIMAC_MDIO_DI = value := by
  have hload := (wait_sampled h hsampled).load (i := (b.gap s.steps).inputs)
  exact (test_twoPow _ 1 (by decide)).trans hload

/-- `raw_turnaround` gives one edge. -/
theorem rawTurnaround_at (h : s.lines.At false false false edges) :
    ∃ x, ((rawTurnaround b).run s).2.lines.At false false false (edges ++ [⟨false, x⟩]) := by
  rw [rawTurnaround, run_bind, run_bind, run_bind]
  have hstart := delay_at (b := b) h
  obtain ⟨x, -, -, hrise⟩ := store_rise (b := b) MINIMAC_MDIO_CLK hstart (by decide) (by decide)
    (by decide)
  have hhigh := delay_at (b := b) hrise
  exact ⟨x, store_fall (b := b) 0 hhigh (by decide) (by decide) (by decide)⟩

/-- One bit of `raw_write`: MDIO is set while MDC is low, and stays while MDC is high. -/
theorem writeBit_at (low high : Word) {v : Bool} (h : s.lines.At false true mdio edges)
    (hlow : bit low 3 = false ∧ bit low 2 = true ∧ bit low 0 = v)
    (hhigh : bit high 3 = true ∧ bit high 2 = true ∧ bit high 0 = v) :
    ((do store b low; delay b; store b high; delay b; store b low : Code Unit).run s).2.lines.At
      false true v (edges ++ [⟨true, v⟩]) := by
  rw [run_bind, run_bind, run_bind, run_bind]
  have hset := store_low (b := b) low h hlow.1
  rw [hlow.2.1, hlow.2.2] at hset
  have hsetup := delay_at (b := b) hset
  obtain ⟨x, hx, -, hrise⟩ := store_rise (b := b) high hsetup hhigh.1 hhigh.2.1 hhigh.2.2
  rw [hx rfl] at hrise
  have hhold := delay_at (b := b) hrise
  exact store_fall (b := b) low hhold hlow.1 hlow.2.1 hlow.2.2

/-- The bits of a word from the second one on. -/
theorem msbs_succ (n : Nat) (word : Word) : (List.range (n + 1)).map word.getMsbD =
    word.getMsbD 0 :: (List.range n).map (word <<< 1).getMsbD := by
  rw [List.range_succ_eq_map, List.map_cons, List.map_map]
  congr 1
  apply List.map_congr_left
  intro k _
  rw [Function.comp_apply, BitVec.getMsbD_shiftLeft]

/-- The test of `raw_write`. -/
theorem test_msb (word : Word) : test word 0x80000000 = word.getMsbD 0 := by
  rw [BitVec.getMsbD_eq_getLsbD]
  exact test_twoPow word 31 (by decide)

/-- `raw_write` puts the upper bits of its word on the line. -/
theorem rawWriteFrom_at (n : Nat) (word : Word) (h : s.lines.At false true mdio edges) :
    ∃ last, ((rawWriteFrom b n word).run s).2.lines.At false true last
      (edges ++ driven ((List.range n).map word.getMsbD)) := by
  induction n generalizing word s mdio edges with
  | zero =>
      refine ⟨mdio, ?_⟩
      rw [rawWriteFrom, run_pure]
      simpa [driven] using h
  | succ n ih =>
      have hedges : ∀ value, word.getMsbD 0 = value →
          edges ++ driven ((List.range (n + 1)).map word.getMsbD) =
            edges ++ [⟨true, value⟩] ++ driven ((List.range n).map (word <<< 1).getMsbD) := by
        rintro value rfl
        rw [msbs_succ, List.append_assoc]
        rfl
      rw [rawWriteFrom, test_msb]
      cases hbit : word.getMsbD 0 with
      | true =>
          have hone := writeBit_at (b := b) (MINIMAC_MDIO_DO ||| MINIMAC_MDIO_OE)
            (MINIMAC_MDIO_CLK ||| MINIMAC_MDIO_DO ||| MINIMAC_MDIO_OE) (v := true) h (by decide)
            (by decide)
          rw [if_pos rfl, hedges true hbit]
          simp only [run_bind] at hone ⊢
          exact ih (word <<< 1) hone
      | false =>
          have hone := writeBit_at (b := b) MINIMAC_MDIO_OE (MINIMAC_MDIO_CLK ||| MINIMAC_MDIO_OE)
            (v := false) h (by decide) (by decide)
          rw [if_neg Bool.false_ne_true, hedges false hbit]
          simp only [run_bind] at hone ⊢
          exact ih (word <<< 1) hone

/-- The lower bits of a word, shifted to its upper end. -/
theorem bits_shiftLeft (n : Nat) (hn : n ≤ 32) (word : Word) :
    (List.range n).map (word <<< (32 - n)).getMsbD = bits (word.setWidth n) := by
  apply List.map_congr_left
  intro k hk
  have hlt : k < n := List.mem_range.1 hk
  have hinside : n - 1 - k < n := by omega
  have hindex : 32 - 1 - (k + (32 - n)) = n - 1 - k := by omega
  have hword : k + (32 - n) < 32 := by omega
  rw [BitVec.getMsbD_shiftLeft, BitVec.getMsbD_eq_getLsbD, BitVec.getMsbD_eq_getLsbD,
    BitVec.getLsbD_setWidth, hindex, decide_eq_true hlt, decide_eq_true hinside,
    decide_eq_true hword, Bool.true_and, Bool.true_and]

/-- `raw_write` puts the lower bits of its word on the line. -/
theorem rawWrite_at (n : Nat) (hn : n ≤ 32) (word : Word) (h : s.lines.At false true mdio edges) :
    ∃ last, ((rawWrite b word n).run s).2.lines.At false true last
      (edges ++ driven (bits (word.setWidth n))) := by
  rw [← bits_shiftLeft n hn]
  exact rawWriteFrom_at n _ h

/-- The values at the edges that the MAC drives. -/
theorem samples_driven (values : List Bool) : (driven values).map MdcEdge.mdio = values := by
  rw [driven, List.map_map]
  exact List.map_id values

/-- A frame after a frame. -/
theorem driven_append (edges : List MdcEdge) (l m : List Bool) :
    edges ++ driven l ++ driven m = edges ++ driven (l ++ m) := by
  rw [driven, driven, driven, List.map_append, List.append_assoc]

/-- The part of a frame that reading and writing have in common. -/
theorem head_at (op phyadr reg : Word) (h : s.lines.At false oe mdio edges) :
    ∃ last, ((do store b MINIMAC_MDIO_OE; rawWrite b 0xffffffff 32; rawWrite b op 4
                 rawWrite b phyadr 5; rawWrite b reg 5 : Code Unit).run s).2.lines.At
      false true last (edges ++ driven (List.replicate 32 true ++ bits (op.setWidth 4) ++
        bits (phyadr.setWidth 5) ++ bits (reg.setWidth 5))) := by
  rw [run_bind, run_bind, run_bind, run_bind]
  have hstart := store_low (b := b) MINIMAC_MDIO_OE h (by decide)
  obtain ⟨d1, h1⟩ := rawWrite_at (b := b) 32 (by decide) 0xffffffff hstart
  obtain ⟨d2, h2⟩ := rawWrite_at (b := b) 4 (by decide) op h1
  obtain ⟨d3, h3⟩ := rawWrite_at (b := b) 5 (by decide) phyadr h2
  obtain ⟨d4, h4⟩ := rawWrite_at (b := b) 5 (by decide) reg h3
  have hones : bits ((0xffffffff : Word).setWidth 32) = List.replicate 32 true := by
    decide +kernel
  simp only [hones, driven_append] at h4
  exact ⟨d4, h4⟩

/-- `mdio_write` sends its frame, and then one edge that it does not drive. -/
theorem mdioWrite_at (phyadr reg val : Word) (h : s.lines.At false oe mdio edges) :
    ∃ x, ((mdioWrite b phyadr reg val).run s).2.lines.At false false false
      (edges ++ driven (writeFrame (phyadr.setWidth 5) (reg.setWidth 5) (val.setWidth 16)) ++
        [⟨false, x⟩]) := by
  obtain ⟨d1, h1⟩ := head_at (b := b) 0x05 phyadr reg h
  rw [run_bind, run_bind, run_bind, run_bind] at h1
  rw [mdioWrite, run_bind, run_bind, run_bind, run_bind, run_bind, run_bind, run_bind, run_bind]
  obtain ⟨d2, h2⟩ := rawWrite_at (b := b) 2 (by decide) 0x02 h1
  obtain ⟨d3, h3⟩ := rawWrite_at (b := b) 16 (by decide) val h2
  obtain ⟨x, h4⟩ := rawTurnaround_at (b := b) (store_release (b := b) h3)
  have hop : (0x05 : Word).setWidth 4 = 0b0101#4 := by decide
  have hturn : (0x02 : Word).setWidth 2 = 0b10#2 := by decide
  simp only [driven_append, hop, hturn] at h4
  exact ⟨x, h4⟩

/-- One bit of `raw_read`: a pulse of MDC, and then what the PHY drives is loaded. -/
theorem readBit_at (h : s.lines.At false false false edges) :
    ∃ x, (∀ value, b.phy (edges.map MdcEdge.mdio) = some value → x = value) ∧
      ((do delay b; store b MINIMAC_MDIO_CLK; delay b; store b 0
           load b : Code Word).run s).2.lines.At false false false (edges ++ [⟨false, x⟩]) ∧
      ∀ value, b.phy (edges.map MdcEdge.mdio ++ [x]) = some value →
        test ((do delay b; store b MINIMAC_MDIO_CLK; delay b; store b 0
                  load b : Code Word).run s).1 MINIMAC_MDIO_DI = value := by
  rw [run_bind, run_bind, run_bind, run_bind]
  have hstart := delay_at (b := b) h
  obtain ⟨x, -, hx, hrise⟩ := store_rise (b := b) MINIMAC_MDIO_CLK hstart (by decide)
    (by decide) (by decide)
  have hhigh := delay_at (b := b) hrise
  have hlow := store_fall (b := b) 0 hhigh (by decide) (by decide) (by decide)
  refine ⟨x, fun value => hx value rfl, (wait_at hlow).quiet (by decide), fun value hphy => ?_⟩
  have hheld := delay_sampled hrise (hrise.driven (by rwa [List.map_append]))
  exact load_sampled hlow (store_sampled 0 hhigh hheld hlow)

/-- Shifting in the next lower bit. -/
theorem shift_in (v : Word) (n : Nat) :
    (if v.getLsbD n then (v >>> (n + 1)) <<< 1 ||| 1 else (v >>> (n + 1)) <<< 1) = v >>> n := by
  ext k hk
  cases k with
  | zero =>
      cases hbit : v.getLsbD n with
      | true => simp [hbit]
      | false => simp [hbit]
  | succ k =>
      have hindex : n + 1 + k = n + (k + 1) := by omega
      cases hbit : v.getLsbD n with
      | true => simp [hindex]
      | false => simp [hindex]

/-- `raw_read` gives an edge for each bit. If the PHY drives the bits after these edges, they are
shifted into the word. -/
theorem rawReadFrom_at (n : Nat) (word : Word) (h : s.lines.At false false false edges) :
    ∃ more : List MdcEdge, (∀ e ∈ more, e.oe = false) ∧
      ((rawReadFrom b n word).run s).2.lines.At false false false (edges ++ more) ∧
      ∀ (v : Word) (before : Bool), word = v >>> n →
        Sends b.phy (edges.map MdcEdge.mdio) (before :: lowBits v n) →
        ((rawReadFrom b n word).run s).1 = v := by
  induction n generalizing word s edges with
  | zero =>
      refine ⟨[], by simp, by rwa [List.append_nil], fun v _ hword _ => ?_⟩
      rw [rawReadFrom, run_pure, hword, BitVec.ushiftRight_zero]
  | succ n ih =>
      obtain ⟨x, hx, hat, hvalue⟩ := readBit_at h
      rw [run_bind, run_bind, run_bind, run_bind] at hat hvalue
      rw [rawReadFrom, run_bind, run_bind, run_bind, run_bind, run_bind]
      obtain ⟨more, hoe, hafter, hresult⟩ := ih _ hat
      refine ⟨⟨false, x⟩ :: more, ?_, ?_, ?_⟩
      · simpa using hoe
      · rwa [List.append_assoc] at hafter
      · rintro v before hword ⟨hbefore, hsends⟩
        rw [← hx before hbefore] at hsends
        apply hresult v (v.getLsbD n)
        · rw [hvalue (v.getLsbD n) hsends.1, hword]
          exact shift_in v n
        · rw [List.map_append]
          exact hsends

/-- The bits of a register, as `raw_read` shifts them in. -/
theorem bits_eq_lowBits (v : BitVec 16) : bits v = lowBits (v.setWidth 32) 16 := by
  simp [bits, lowBits, List.range_succ, BitVec.getMsbD_eq_getLsbD]

/-- A register has no more than 16 bits. -/
theorem setWidth_ushiftRight (v : BitVec 16) : v.setWidth 32 >>> 16 = 0 := by
  ext k hk
  simp

/-- `mdio_read` sends its header, and then only edges that it does not drive. It returns what the
PHY answers. -/
theorem mdioRead_at (phyadr reg : Word) (h : s.lines.At false oe mdio edges) :
    ∃ more : List MdcEdge, (∀ e ∈ more, e.oe = false) ∧
      ((mdioRead b phyadr reg).run s).2.lines.At false false false
        (edges ++ driven (readHeader (phyadr.setWidth 5) (reg.setWidth 5)) ++ more) ∧
      ∀ v : BitVec 16, Answers b.phy
          (edges.map MdcEdge.mdio ++ readHeader (phyadr.setWidth 5) (reg.setWidth 5)) v →
        ((mdioRead b phyadr reg).run s).1 = v.setWidth 32 := by
  obtain ⟨d1, h1⟩ := head_at (b := b) 0x06 phyadr reg h
  rw [run_bind, run_bind, run_bind, run_bind] at h1
  rw [mdioRead, run_bind, run_bind, run_bind, run_bind, run_bind, run_bind, run_bind, run_bind,
    run_bind, run_pure, rawRead]
  have hop : (0x06 : Word).setWidth 4 = 0b0110#4 := by decide
  have h2 := store_release (b := b) h1
  rw [hop, ← readHeader] at h2
  obtain ⟨x, h3⟩ := rawTurnaround_at (b := b) h2
  obtain ⟨more, hfree, h4, hresult⟩ := rawReadFrom_at (b := b) 16 0 h3
  obtain ⟨y, h5⟩ := rawTurnaround_at (b := b) h4
  have hsplit : ∀ l : List MdcEdge,
      l ++ (⟨false, x⟩ :: more ++ [⟨false, y⟩]) = l ++ [⟨false, x⟩] ++ more ++ [⟨false, y⟩] :=
    fun l => by rw [List.append_assoc, List.append_assoc]; rfl
  refine ⟨⟨false, x⟩ :: more ++ [⟨false, y⟩], ?_, ?_, fun v hanswers => ?_⟩
  · simpa [or_imp, forall_and] using hfree
  · rw [hsplit]
    exact h5
  · dsimp only
    apply hresult (v.setWidth 32) false
    · exact (setWidth_ushiftRight v).symm
    · rw [← bits_eq_lowBits, List.map_append, List.map_append, samples_driven]
      exact hanswers x

/-- A call leaves MDC low and MDIO undriven. -/
theorem Call.run_at (call : Call) (h : s.lines.At false false false edges) :
    ∃ edges', (call.run b s).lines.At false false false edges' := by
  cases call with
  | write phyadr reg val =>
      obtain ⟨x, hafter⟩ := mdioWrite_at (b := b) phyadr reg val h
      rw [Call.run]
      exact ⟨_, hafter⟩
  | read phyadr reg =>
      obtain ⟨more, -, hafter, -⟩ := mdioRead_at (b := b) phyadr reg h
      rw [Call.run]
      exact ⟨_, hafter⟩

/-- So do any number of calls after the reset. -/
theorem calls_at (b : Board) (c : Ctlif) (i : CtlifIn) (calls : List Call) :
    ∃ edges, (calls.foldl (Call.run b) (afterReset c i)).lines.At false false false edges := by
  have hrun : ∀ (s : State) (edges : List MdcEdge), s.lines.At false false false edges →
      ∃ edges', (calls.foldl (Call.run b) s).lines.At false false false edges' := by
    induction calls with
    | nil => exact fun s edges h => ⟨edges, h⟩
    | cons call calls ih =>
        intro s edges h
        obtain ⟨edges', hafter⟩ := call.run_at (b := b) h
        exact ih _ edges' hafter
  exact hrun (afterReset c i) [] ⟨rfl, rfl, rfl, rfl, rfl⟩

end Steps

/-- What the MAC drives at the edges of a frame and of what follows it. -/
theorem driven_filter (values : List Bool) {more : List MdcEdge}
    (hmore : ∀ e ∈ more, e.oe = false) :
    ((driven values ++ more).filter MdcEdge.oe).map MdcEdge.mdio = values := by
  have hkept : (driven values).filter MdcEdge.oe = driven values := by
    rw [List.filter_eq_self]
    intro e he
    obtain ⟨v, -, rfl⟩ := List.mem_map.1 he
    rfl
  have hdropped : more.filter MdcEdge.oe = [] := by
    rw [List.filter_eq_nil_iff]
    intro e he
    rw [hmore e he]
    exact Bool.false_ne_true
  rw [List.filter_append, hkept, hdropped, List.append_nil, samples_driven]

/-- After any calls, `mdio_write` drives exactly the frame of a write, and `mdio_read` exactly the
header of a read, whose answer it returns. MDIO changes only while MDC is low. -/
theorem speaks_clause_22 (b : Board) (c : Ctlif) (i : CtlifIn) (calls : List Call)
    (phyadr reg : BitVec 5) (val : BitVec 16) :
    let s := calls.foldl (Call.run b) (afterReset c i)
    let written := (mdioWrite b (phyadr.setWidth 32) (reg.setWidth 32) (val.setWidth 32)).run s
    let read := (mdioRead b (phyadr.setWidth 32) (reg.setWidth 32)).run s
    (∃ more, written.2.lines.edges = s.lines.edges ++ more ∧
      (more.filter MdcEdge.oe).map MdcEdge.mdio = writeFrame phyadr reg val ∧
      written.2.lines.steady = true) ∧
    (∃ more, read.2.lines.edges = s.lines.edges ++ more ∧
      (more.filter MdcEdge.oe).map MdcEdge.mdio = readHeader phyadr reg ∧
      read.2.lines.steady = true) ∧
    (Answers b.phy (s.lines.samples ++ readHeader phyadr reg) val →
      read.1 = val.setWidth 32) := by
  obtain ⟨edges, h⟩ := calls_at b c i calls
  obtain ⟨x, hwritten⟩ := mdioWrite_at (b := b) (phyadr.setWidth 32) (reg.setWidth 32)
    (val.setWidth 32) h
  obtain ⟨more, hfree, hread, hresult⟩ := mdioRead_at (b := b) (phyadr.setWidth 32)
    (reg.setWidth 32) h
  have haddress : ∀ v : BitVec 5, (v.setWidth 32).setWidth 5 = v :=
    fun v => BitVec.setWidth_setWidth_of_le v (by decide) |>.trans (BitVec.setWidth_eq v)
  have hvalue : (val.setWidth 32).setWidth 16 = val :=
    (BitVec.setWidth_setWidth_of_le val (by decide)).trans (BitVec.setWidth_eq val)
  rw [haddress, haddress, hvalue, List.append_assoc] at hwritten
  rw [haddress, haddress, List.append_assoc] at hread
  rw [haddress, haddress] at hresult
  dsimp only
  refine ⟨⟨driven (writeFrame phyadr reg val) ++ [⟨false, x⟩], ?_, ?_, hwritten.steady⟩,
    ⟨driven (readHeader phyadr reg) ++ more, ?_, driven_filter _ hfree, hread.steady⟩,
    fun hanswers => ?_⟩
  · rw [h.edges]
    exact hwritten.edges
  · exact driven_filter _ (by simp)
  · rw [h.edges]
    exact hread.edges
  · rw [Lines.samples, h.edges] at hanswers
    exact hresult val hanswers

/-- A PHY that counts edges, and a bus that is idle between the steps of the program. -/
def answering (v : BitVec 16) : Board where
  phy history :=
    if history.length = 47 then some false
    else if 48 ≤ history.length then some (v.getMsbD (history.length - 48))
    else none
  gap _ :=
    let inputs : CtlifIn := ⟨0, 0, 0, false, true⟩
    let idle : Quiet := ⟨.load 0, inputs, by decide⟩
    ⟨[idle], idle, idle, inputs⟩

/-- The first read after the reset. -/
theorem speaks_clause_22_first :
    ((mdioRead (answering 0x3100) ((0x01 : BitVec 5).setWidth 32)
      ((0x00 : BitVec 5).setWidth 32)).run
        (afterReset ⟨0, false, false, false, false, false, false, 0, 0, 0, 0, false⟩
          ⟨0, 0, 0, false, true⟩)).1 = (0x3100 : BitVec 16).setWidth 32 :=
  (speaks_clause_22 (answering 0x3100) _ _ [] 0x01 0x00 0x3100).2.2 fun x => by
    cases x with
    | false => decide +kernel
    | true => decide +kernel

end Soc.Libnet.Mdio
