import Soc.Library.Region

/-!
# Copying a memory area piece by piece

An area is copied in pieces of different sizes, each with one load and one store. The memory may put
an access of some size at another address than the one it is given: `place` says where. The copy is
right if `place` leaves every address alone; where it moves the address of a load, some memory
shows the difference. A copy leaves every memory as it was exactly if each piece is stored where it
was loaded.
-/

namespace Soc.Library.PiecewiseCopy

open Region (Covers load store)

variable {w : Nat} {α : Type*}

/-- A copy in progress: the memory, and where the next piece goes to and comes from. -/
structure Copy (w : Nat) (α : Type*) where
  mem : BitVec w → α
  dest : BitVec w
  src : BitVec w

section Pieces

variable (place : Nat → BitVec w → BitVec w)

/-- One piece: a load, a store, and both addresses move on. -/
def Copy.piece (c : Copy w α) (size : Nat) : Copy w α where
  mem := store c.mem (place size c.dest) (load c.mem (place size c.src) size)
  dest := c.dest + .ofNat w size
  src := c.src + .ofNat w size

/-- Several pieces. -/
def Copy.pieces (c : Copy w α) (sizes : List Nat) : Copy w α := sizes.foldl (Copy.piece place) c

/-- The number of elements in pieces of these sizes. -/
def total : List Nat → Nat
  | [] => 0
  | size :: sizes => size + total sizes

/-- `place` leaves the addresses of all pieces alone. -/
def Settled (a : BitVec w) : List Nat → Prop
  | [] => True
  | size :: sizes => place size a = a ∧ Settled (a + .ofNat w size) sizes

/-- Every piece is stored where it was loaded. -/
def Same (dest src : BitVec w) : List Nat → Prop
  | [] => True
  | size :: sizes =>
      place size dest = place size src ∧ Same (dest + .ofNat w size) (src + .ofNat w size) sizes

end Pieces

variable {place : Nat → BitVec w → BitVec w} {c : Copy w α} {size : Nat} {sizes : List Nat}
  {b : BitVec w} {i : Nat}

/-- The elements of two lists of pieces. -/
theorem total_append (l m : List Nat) : total (l ++ m) = total l + total m := by
  induction l with
  | nil => exact (Nat.zero_add _).symm
  | cons size l ih => rw [List.cons_append, total, total, ih, Nat.add_assoc]

/-- The elements of equal pieces. -/
theorem total_replicate (k size : Nat) : total (List.replicate k size) = k * size := by
  induction k with
  | zero => exact (Nat.zero_mul size).symm
  | succ k ih => rw [List.replicate_succ, total, ih, Nat.succ_mul, Nat.add_comm]

/-- Two steps from an address. -/
theorem add_ofNat_add (a : BitVec w) (k j : Nat) :
    a + .ofNat w (k + j) = a + .ofNat w k + .ofNat w j := by
  rw [BitVec.ofNat_add, BitVec.add_assoc]

/-- One list of pieces behind another. -/
theorem settled_append {a : BitVec w} {l m : List Nat} :
    Settled place a (l ++ m) ↔ Settled place a l ∧ Settled place (a + .ofNat w (total l)) m := by
  induction l generalizing a with
  | nil =>
      have hzero : a + .ofNat w (total []) = a := BitVec.add_zero a
      rw [List.nil_append, hzero]
      exact (iff_of_eq (true_and _)).symm
  | cons size l ih =>
      rw [List.cons_append, Settled, Settled, ih, ← add_ofNat_add, and_assoc]
      rfl

/-- What is not in the piece is not changed. -/
theorem piece_outside (hdest : place size c.dest = c.dest) (hb : ¬ Covers c.dest size b) :
    (c.piece place size).mem b = c.mem b := by
  rw [Copy.piece, hdest]
  exact Region.store_outside (by rwa [Region.load_length])

/-- What is in the piece comes from where the load went. -/
theorem piece_inside (hdest : place size c.dest = c.dest) (hfits : size ≤ Nat.pow 2 w)
    (hi : i < size) :
    (c.piece place size).mem (c.dest + .ofNat w i) = c.mem (place size c.src + .ofNat w i) := by
  rw [Copy.piece, hdest]
  exact Region.store_inside (by rwa [Region.load_length]) (Region.getElem?_load hi)

/-- What is not in the area is not changed. -/
theorem pieces_outside (hdest : Settled place c.dest sizes) (hb : ¬ Covers c.dest (total sizes) b) :
    (c.pieces place sizes).mem b = c.mem b := by
  induction sizes generalizing c with
  | nil => rfl
  | cons size sizes ih =>
      have hrest : ¬ Covers (c.dest + .ofNat w size) (total sizes) b := fun h => hb h.of_add
      have hpiece : ¬ Covers c.dest size b := fun h => hb (Nat.lt_add_right _ h)
      exact (ih (c := c.piece place size) hdest.2 hrest).trans (piece_outside hdest.1 hpiece)

/-- The area is copied, if all loads go where they should and the source is not overwritten. -/
theorem pieces_inside (hdest : Settled place c.dest sizes) (hsrc : Settled place c.src sizes)
    (hfits : total sizes ≤ Nat.pow 2 w)
    (hapart : ∀ a, Covers c.dest (total sizes) a → ¬ Covers c.src (total sizes) a)
    (hi : i < total sizes) :
    (c.pieces place sizes).mem (c.dest + .ofNat w i) = c.mem (c.src + .ofNat w i) := by
  induction sizes generalizing c i with
  | nil => exact absurd hi (Nat.not_lt_zero i)
  | cons size sizes ih =>
      by_cases hpiece : i < size
      · have hlater : ¬ Covers (c.dest + .ofNat w size) (total sizes) (c.dest + .ofNat w i) :=
          Region.not_covers_add hpiece hfits
        refine (pieces_outside (c := c.piece place size) hdest.2 hlater).trans ?_
        rw [piece_inside hdest.1 (Nat.le_trans (Nat.le_add_right _ _) hfits) hpiece, hsrc.1]
      · obtain ⟨j, rfl⟩ := Nat.exists_eq_add_of_le (Nat.le_of_not_lt hpiece)
        have hj : j < total sizes := Nat.lt_of_add_lt_add_left hi
        have hsource : ¬ Covers c.dest size (c.src + .ofNat w (size + j)) := fun h =>
          hapart _ (Nat.lt_add_right _ h) (Region.covers_add hi)
        have hrest := ih (c := c.piece place size) hdest.2 hsrc.2
          (Nat.le_trans (Nat.le_add_left _ _) hfits) (fun a h h' => hapart a h.of_add h'.of_add) hj
        rw [add_ofNat_add c.dest]
        refine hrest.trans ?_
        rw [← piece_outside hdest.1 hsource, add_ofNat_add c.src]
        rfl

/-- A piece changes nothing where source and destination hold the same element only. -/
theorem piece_mem_of_const {x : α} (hdest : place size c.dest = c.dest)
    (hsrc : place size c.src = c.src) (hd : ∀ i < size, c.mem (c.dest + .ofNat w i) = x)
    (hs : ∀ i < size, c.mem (c.src + .ofNat w i) = x) : (c.piece place size).mem = c.mem := by
  have hload : load c.mem c.src size = load c.mem c.dest size := by
    apply List.ext_getElem?
    intro i
    by_cases hi : i < size
    · rw [Region.getElem?_load hi, Region.getElem?_load hi, hs i hi, hd i hi]
    · rw [List.getElem?_eq_none (by simpa using hi), List.getElem?_eq_none (by simpa using hi)]
  rw [Copy.piece, hdest, hsrc, hload]
  exact Region.store_load

/-- A memory that holds `y` at one address and `x` everywhere else. -/
def marked (x y : α) (a : BitVec w) : BitVec w → α := Function.update (fun _ => x) a y

/-- The other addresses hold `x`. -/
theorem marked_of_ne {x y : α} {a : BitVec w} (h : b ≠ a) : marked x y a b = x :=
  Function.update_of_ne h _ _

section Marked

variable {x y : α} {dest src : BitVec w} {k : Nat}

/-- A first piece that is settled changes nothing, if the mark is in a later piece of the source. -/
theorem piece_marked (hdest : place size dest = dest) (hsrc : place size src = src)
    (hfits : size + total sizes ≤ Nat.pow 2 w) (hk : k < total sizes)
    (hapart : ∀ a, Covers dest (size + total sizes) a → ¬ Covers src (size + total sizes) a) :
    Copy.piece place ⟨marked x y (src + .ofNat w (size + k)), dest, src⟩ size =
      ⟨marked x y (src + .ofNat w size + .ofNat w k), dest + .ofNat w size,
        src + .ofNat w size⟩ := by
  have hmark : Covers src (size + total sizes) (src + .ofNat w (size + k)) :=
    Region.covers_add (Nat.add_lt_add_left hk size)
  have hmem := piece_mem_of_const (x := x) hdest hsrc
    (c := ⟨marked x y (src + .ofNat w (size + k)), dest, src⟩)
    (fun i hi => by
      refine marked_of_ne fun heq => ?_
      have hcovers : Covers dest (size + total sizes) (dest + .ofNat w i) :=
        Region.covers_add (Nat.lt_add_right _ hi)
      exact hapart _ hcovers (heq ▸ hmark))
    (fun i hi => by
      refine marked_of_ne fun heq => ?_
      have hlater : Covers (src + .ofNat w size) (total sizes) (src + .ofNat w (size + k)) := by
        rw [add_ofNat_add]
        exact Region.covers_add hk
      exact Region.not_covers_add hi hfits (heq ▸ hlater))
  rw [← add_ofNat_add]
  exact congrArg (fun m => Copy.mk m _ _) hmem

/-- Where a load goes to another address, there is a memory whose area is not copied: one element of
the source is marked, and the mark does not arrive. -/
theorem exists_not_copied (hxy : x ≠ y) (hdest : Settled place dest sizes)
    (hsrc : ¬ Settled place src sizes) (hpos : ∀ size ∈ sizes, 0 < size)
    (hfits : total sizes ≤ Nat.pow 2 w)
    (hapart : ∀ a, Covers dest (total sizes) a → ¬ Covers src (total sizes) a) :
    ∃ k < total sizes, ((Copy.mk (marked x y (src + .ofNat w k)) dest src).pieces place sizes).mem
      (dest + .ofNat w k) ≠ y := by
  induction sizes generalizing dest src with
  | nil => exact absurd trivial hsrc
  | cons size sizes ih =>
      have hsize : 0 < size := hpos size List.mem_cons_self
      by_cases hplace : place size src = src
      · obtain ⟨k, hk, hne⟩ := ih hdest.2 (fun h => hsrc ⟨hplace, h⟩)
          (fun size h => hpos size (List.mem_cons_of_mem _ h))
          (Nat.le_trans (Nat.le_add_left _ _) hfits) (fun a h h' => hapart a h.of_add h'.of_add)
        refine ⟨size + k, Nat.add_lt_add_left hk size, ?_⟩
        rw [Copy.pieces, List.foldl_cons, piece_marked hdest.1 hplace hfits hk hapart,
          add_ofNat_add dest]
        exact hne
      · -- The first element of this piece comes from elsewhere, and is not the mark.
        refine ⟨0, Nat.lt_of_lt_of_le hsize (Nat.le_add_right _ _), ?_⟩
        have hlater : ¬ Covers (dest + .ofNat w size) (total sizes) (dest + .ofNat w 0) :=
          Region.not_covers_add hsize hfits
        have hzero : ∀ a : BitVec w, a + .ofNat w 0 = a := BitVec.add_zero
        have hkept := pieces_outside (c := Copy.piece place ⟨marked x y src, dest, src⟩ size)
          hdest.2 hlater
        have hfirst := piece_inside (c := ⟨marked x y src, dest, src⟩) hdest.1
          (Nat.le_trans (Nat.le_add_right _ _) hfits) hsize
        rw [hzero] at hkept hfirst ⊢
        rw [hzero] at hfirst ⊢
        have hvalue := (hkept.trans hfirst).trans (marked_of_ne hplace)
        exact fun h => hxy (hvalue.symm.trans h)

end Marked

section Unchanged

variable {dest src : BitVec w}

/-- A copy of an area to itself changes nothing. -/
theorem pieces_same (h : Same place c.dest c.src sizes) : (c.pieces place sizes).mem = c.mem := by
  induction sizes generalizing c with
  | nil => rfl
  | cons size sizes ih =>
      have hpiece : (c.piece place size).mem = c.mem := by
        rw [Copy.piece, h.1]
        exact Region.store_load
      exact (ih (c := c.piece place size) h.2).trans hpiece

/-- Where a piece is not stored where it was loaded, and pieces of one size do not overlap, the copy
leaves the same element at two addresses: the last such piece does, and nothing changes after it. -/
theorem exists_equal (hplace : ∀ size ∈ sizes, ∀ a b, place size a ≠ place size b →
      ¬ Covers (place size a) size (place size b))
    (hpos : ∀ size ∈ sizes, 0 < size) (hfits : ∀ size ∈ sizes, size ≤ Nat.pow 2 w)
    (h : ¬ Same place dest src sizes) :
    ∃ a b, a ≠ b ∧ ∀ mem : BitVec w → α, ((Copy.mk mem dest src).pieces place sizes).mem a =
      ((Copy.mk mem dest src).pieces place sizes).mem b := by
  induction sizes generalizing dest src with
  | nil => exact absurd trivial h
  | cons size sizes ih =>
      by_cases hrest : Same place (dest + .ofNat w size) (src + .ofNat w size) sizes
      · have hne : place size dest ≠ place size src := fun heq => h ⟨heq, hrest⟩
        refine ⟨place size dest, place size src, hne, fun mem => ?_⟩
        have hkept := pieces_same (c := Copy.piece place ⟨mem, dest, src⟩ size) hrest
        have hfirst : store mem (place size dest) (load mem (place size src) size)
            (place size dest) = mem (place size src) := by
          have hzero : ∀ a : BitVec w, a + .ofNat w 0 = a := BitVec.add_zero
          have hstored := Region.store_inside (m := mem) (a := place size dest)
            (by rw [Region.load_length]; exact hfits size List.mem_cons_self)
            (Region.getElem?_load (m := mem) (a := place size src) (hpos size List.mem_cons_self))
          rwa [hzero, hzero] at hstored
        have hother : store mem (place size dest) (load mem (place size src) size)
            (place size src) = mem (place size src) := by
          apply Region.store_outside
          rw [Region.load_length]
          exact hplace size List.mem_cons_self _ _ hne
        rw [Copy.pieces, List.foldl_cons]
        rw [Copy.pieces] at hkept
        rw [hkept]
        exact hfirst.trans hother.symm
      · obtain ⟨a, b, hab, heq⟩ := ih (fun size hs => hplace size (List.mem_cons_of_mem _ hs))
          (fun size hs => hpos size (List.mem_cons_of_mem _ hs))
          (fun size hs => hfits size (List.mem_cons_of_mem _ hs)) hrest
        exact ⟨a, b, hab, fun mem => heq _⟩

/-- A copy changes no memory exactly if every piece is stored where it was loaded. -/
theorem pieces_same_iff {x y : α} (hxy : x ≠ y)
    (hplace : ∀ size ∈ sizes, ∀ a b, place size a ≠ place size b →
      ¬ Covers (place size a) size (place size b))
    (hpos : ∀ size ∈ sizes, 0 < size) (hfits : ∀ size ∈ sizes, size ≤ Nat.pow 2 w) :
    (∀ mem : BitVec w → α, ((Copy.mk mem dest src).pieces place sizes).mem = mem) ↔
      Same place dest src sizes := by
  constructor
  · intro hkept
    by_contra hnot
    obtain ⟨a, b, hab, heq⟩ := exists_equal (α := α) hplace hpos hfits hnot
    have hequal := heq (marked x y a)
    rw [hkept, marked_of_ne hab.symm] at hequal
    exact hxy (hequal.symm.trans (Function.update_self _ _ _))
  · exact fun h mem => pieces_same (c := ⟨mem, dest, src⟩) h

end Unchanged

end Soc.Library.PiecewiseCopy
