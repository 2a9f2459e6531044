import Mathlib.Tactic.Basic

/-!
# Words in byte lanes

A 32-bit word on a bus or in a memory is four bytes, each in a lane of its own: byte enables choose
lanes, and the two byte orders number them in opposite directions. A memory of bytes is described
by what is written to it: `lastWritten` is the value that was written last.
-/

namespace Soc.Library

/-- The byte of a word in a lane, the least significant one in lane 0. -/
def lane (w : BitVec 32) (k : Nat) : BitVec 8 := w.extractLsb' (8 * k) 8

/-- The word with these bytes in its lanes. -/
def ofLanes (byte : Nat → BitVec 8) : BitVec 32 := byte 3 ++ byte 2 ++ byte 1 ++ byte 0

/-- The bytes of a word that is made of bytes. -/
theorem lane_ofLanes (byte : Nat → BitVec 8) {k : Nat} (hk : k < 4) :
    lane (ofLanes byte) k = byte k := by
  apply BitVec.eq_of_getLsbD_eq
  intro i hi
  unfold lane ofLanes
  match k, hk with
  | 0, _ | 1, _ | 2, _ | 3, _ =>
      simp only [BitVec.getLsbD_extractLsb', BitVec.getLsbD_append, hi, decide_true, Bool.true_and]
      grind

/-- The lanes that are enabled are taken from `data`, the others from `old`. -/
def merge (enable : BitVec 4) (data old : BitVec 32) : BitVec 32 :=
  ofLanes fun k => if enable.getLsbD k then lane data k else lane old k

/-- The bytes of merged words. -/
theorem lane_merge (enable : BitVec 4) (data old : BitVec 32) {k : Nat} (hk : k < 4) :
    lane (merge enable data old) k = if enable.getLsbD k then lane data k else lane old k :=
  lane_ofLanes _ hk

/-- Words with the same bytes are the same. -/
theorem eq_of_lanes {w v : BitVec 32} (h : ∀ k < 4, lane w k = lane v k) : w = v := by
  apply BitVec.eq_of_getLsbD_eq
  intro i hi
  have hbyte := congrArg (fun byte => byte.getLsbD (i % 8)) (h (i / 8) (by omega))
  have hinside : i % 8 < 8 := Nat.mod_lt i (by decide)
  simpa only [lane, BitVec.getLsbD_extractLsb', hinside, decide_true, Bool.true_and,
    Nat.div_add_mod] using hbyte

/-- The word with its bytes in the other order. -/
def swap (w : BitVec 32) : BitVec 32 := ofLanes fun k => lane w (3 - k)

/-- The bytes of a swapped word. -/
theorem lane_swap (w : BitVec 32) {k : Nat} (hk : k < 4) : lane (swap w) k = lane w (3 - k) :=
  lane_ofLanes _ hk

/-- The byte of a word at a big-endian offset. -/
def bigEndian (w : BitVec 32) (k : Nat) : BitVec 8 := lane w (3 - k)

section LastWritten

variable {α β : Type*} (initial : α → β) (write : Nat → α → Option β)

/-- What was written last before step `t`. -/
def lastWritten : Nat → α → β
  | 0, a => initial a
  | t + 1, a => (write t a).getD (lastWritten t a)

/-- A cell whose steps each store what is written to it holds what was written last. -/
theorem eq_lastWritten {a : α} (stored : Nat → β) (hinit : stored 0 = initial a)
    (hstep : ∀ t, stored (t + 1) = (write t a).getD (stored t)) (t : Nat) :
    stored t = lastWritten initial write t a := by
  induction t with
  | zero => exact hinit
  | succ t ih => rw [hstep, ih, lastWritten]

end LastWritten

end Soc.Library
