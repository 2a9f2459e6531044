import Soc.Library.ByteMemory

/-!
# A dual-port synchronous RAM with byte enables

Each port has a clock, and at its edges an address, a write enable with byte enables, and a read
enable. The word that is read comes out after the edge and stays until the next one. What both ports
write to one word, what a port reads while the other one writes there, and what it reads itself in
the lanes it does not write are undefined: the environment decides.
-/

namespace Soc.Library

/-- The inputs of a port at an edge of its clock. -/
structure Port (w : Nat) where
  address : BitVec w
  rden : Bool
  wren : Bool
  byteena : BitVec 4
  data : BitVec 32

/-- What is undefined at an edge. -/
structure Undefined where
  cell : BitVec 32
  qA : BitVec 32
  qB : BitVec 32

/-- The words of the RAM and the outputs of its two ports. -/
structure Ram (w : Nat) where
  cells : BitVec w → BitVec 32
  qA : BitVec 32
  qB : BitVec 32

namespace Ram

variable {w : Nat} (r : Ram w) (a b : Option (Port w)) (u : Undefined)

/-- A port writes a word at this edge. -/
def Writes (port : Option (Port w)) (i : BitVec w) : Prop :=
  ∃ p ∈ port, p.wren = true ∧ p.address = i

instance (port : Option (Port w)) (i : BitVec w) : Decidable (Writes port i) :=
  match port with
  | none => isFalse nofun
  | some p => decidable_of_iff (p.wren = true ∧ p.address = i) (by simp [Writes])

/-- A word after the edge of one port. -/
def store (port : Option (Port w)) (i : BitVec w) (old : BitVec 32) : BitVec 32 :=
  match port with
  | none => old
  | some p => if p.wren = true ∧ p.address = i then merge p.byteena p.data old else old

/-- The output of a port after an edge. -/
def output (port other : Option (Port w)) (undefined old : BitVec 32) : BitVec 32 :=
  match port with
  | none => old
  | some p =>
      if p.rden then
        if Writes other p.address then undefined
        else if p.wren then merge p.byteena p.data undefined
        else r.cells p.address
      else old

/-- The RAM after an edge of the clock of port A, of port B or of both. -/
def clock : Ram w where
  cells i := if Writes a i ∧ Writes b i then u.cell else store b i (store a i (r.cells i))
  qA := r.output a b u.qA r.qA
  qB := r.output b a u.qB r.qB

/-- The byte a port writes to a lane of a word. -/
def written (port : Option (Port w)) (i : BitVec w) (k : Nat) : Option (BitVec 8) :=
  match port with
  | none => none
  | some p =>
      if p.wren = true ∧ p.address = i ∧ p.byteena.getLsbD k = true then some (lane p.data k)
      else none

variable {r a b u} {i : BitVec w} {k : Nat}

/-- A port that is not enabled to write does not write. -/
theorem not_writes {p : Port w} (h : p.wren = false) : ¬ Writes (some p) i := by
  rintro ⟨_, ⟨⟩, hwren, -⟩
  rw [h] at hwren
  cases hwren

/-- A word that a port does not write stays. -/
theorem store_of_not_writes {port : Option (Port w)} {old : BitVec 32} (h : ¬ Writes port i) :
    store port i old = old := by
  cases port with
  | none => rfl
  | some p => exact if_neg fun hwrites => h ⟨p, rfl, hwrites⟩

/-- A word that neither port writes stays. -/
theorem cells_of_not_writes (ha : ¬ Writes a i) (hb : ¬ Writes b i) :
    (r.clock a b u).cells i = r.cells i := by
  unfold clock
  dsimp only
  rw [if_neg fun h => ha h.1, store_of_not_writes hb, store_of_not_writes ha]

/-- A byte after the edge of one port. -/
theorem lane_store {port : Option (Port w)} {old : BitVec 32} (hk : k < 4) :
    lane (store port i old) k = (written port i k).getD (lane old k) := by
  cases port with
  | none => rfl
  | some p =>
      unfold store written
      dsimp only
      by_cases hwrites : p.wren = true ∧ p.address = i
      · rw [if_pos hwrites, lane_merge _ _ _ hk]
        by_cases henable : p.byteena.getLsbD k = true
        · rw [if_pos henable, if_pos ⟨hwrites.1, hwrites.2, henable⟩, Option.getD_some]
        · rw [if_neg henable, if_neg fun h => henable h.2.2, Option.getD_none]
      · rw [if_neg hwrites, if_neg fun h => hwrites ⟨h.1, h.2.1⟩, Option.getD_none]

/-- A byte after an edge, if the ports do not write the same word. -/
theorem lane_cells_clock (hk : k < 4) (h : ¬ (Writes a i ∧ Writes b i)) :
    lane ((r.clock a b u).cells i) k =
      (written b i k).getD ((written a i k).getD (lane (r.cells i) k)) := by
  unfold clock
  dsimp only
  rw [if_neg h, lane_store hk, lane_store hk]

/-- A port reads the word that is stored, if the other port does not write it. -/
theorem output_read {other : Option (Port w)} {undefined old : BitVec 32} {p : Port w}
    (hrden : p.rden = true) (hwren : p.wren = false) (h : ¬ Writes other p.address) :
    r.output (some p) other undefined old = r.cells p.address := by
  simp only [output, hrden, hwren, if_neg h, if_true, Bool.false_eq_true, if_false]

end Ram

end Soc.Library
