import Soc.Library.Region

/-!
# Writing with a bound

A writer puts elements at consecutive addresses, but stores only those before its limit. `Wrote`
says what is in memory when a list has been put: the elements of the list as far as the limit, and
what was there before everywhere else. Other regions of memory may be overwritten in between.
-/

namespace Soc.Library.BoundedWriter

open Region (Covers store)

variable {w : Nat} {α : Type*}

/-- A memory, and the address of the next element. -/
structure Writer (w : Nat) (α : Type*) where
  mem : BitVec w → α
  next : BitVec w

namespace Writer

/-- The element is stored if its address is before the limit. -/
def put (limit : BitVec w) (x : α) (s : Writer w α) : Writer w α :=
  ⟨if s.next < limit then Function.update s.mem s.next x else s.mem, s.next + 1⟩

/-- Another region is overwritten. -/
def poke (a : BitVec w) (xs : List α) (s : Writer w α) : Writer w α :=
  { s with mem := store s.mem a xs }

theorem poke_mem (a : BitVec w) (xs : List α) (s : Writer w α) :
    (s.poke a xs).mem = store s.mem a xs := rfl

end Writer

/-- Two regions have no address in common. -/
def Apart (a : BitVec w) (n : Nat) (b : BitVec w) (k : Nat) : Prop :=
  ∀ c, Covers a n c → ¬ Covers b k c

/-- What the writer did since the memory was `m`: the elements `xs` were put from `buf` on, of which
there is room for `room`, and the regions of `k` addresses from `targets` on were overwritten. -/
structure Wrote (m : BitVec w → α) (buf : BitVec w) (room k : Nat) (xs : List α)
    (targets : List (BitVec w)) (s : Writer w α) : Prop where
  next : s.next = buf + .ofNat w xs.length
  kept : ∀ a, ¬ Covers buf room a → (∀ t ∈ targets, ¬ Covers t k a) → s.mem a = m a
  stored : (∀ t ∈ targets, Apart buf room t k) → ∀ i (hi : i < xs.length), i < room →
    s.mem (buf + .ofNat w i) = xs[i]

variable {m : BitVec w → α} {buf a : BitVec w} {room k : Nat} {xs : List α}
  {targets : List (BitVec w)} {s : Writer w α}

/-- Nothing was put. -/
theorem Wrote.start (m : BitVec w → α) (buf : BitVec w) (room k : Nat) :
    Wrote m buf room k [] [] ⟨m, buf⟩ where
  next := by simp
  kept a _ _ := rfl
  stored _ i hi := absurd hi (Nat.not_lt_zero i)

/-- Addresses do not wrap around before the end of the address space. -/
theorem toNat_add_ofNat {i : Nat} (hi : buf.toNat + i < Nat.pow 2 w) :
    (buf + .ofNat w i).toNat = buf.toNat + i := by
  change _ < 2 ^ w at hi
  rw [BitVec.toNat_add, BitVec.toNat_ofNat, Nat.add_mod_mod, Nat.mod_eq_of_lt hi]

/-- The addresses before the limit are those for which there is room. -/
theorem lt_limit {i : Nat} (hroom : buf.toNat + room < Nat.pow 2 w)
    (hi : buf.toNat + i < Nat.pow 2 w) :
    buf + .ofNat w i < buf + .ofNat w room ↔ i < room := by
  rw [BitVec.lt_def, toNat_add_ofNat hi, toNat_add_ofNat hroom]
  omega

/-- Different places have different addresses. -/
theorem add_ne {i j : Nat} (hij : i < j) (hj : buf.toNat + j < Nat.pow 2 w) :
    buf + .ofNat w i ≠ buf + .ofNat w j := by
  intro heq
  have hnat := congrArg BitVec.toNat heq
  rw [toNat_add_ofNat hj, toNat_add_ofNat (by omega)] at hnat
  omega

/-- One more element is put. -/
theorem Wrote.put (h : Wrote m buf room k xs targets s) (x : α)
    (hroom : buf.toNat + room < Nat.pow 2 w) (hfits : buf.toNat + xs.length < Nat.pow 2 w) :
    Wrote m buf room k (xs ++ [x]) targets (s.put (buf + .ofNat w room) x) where
  next := by
    rw [Writer.put, h.next, List.length_append, List.length_singleton, BitVec.add_assoc,
      BitVec.ofNat_add]
    rfl
  kept a houtside hother := by
    rw [Writer.put, h.next]
    dsimp only
    split
    · rename_i hstored
      have hne : a ≠ buf + .ofNat w xs.length := by
        rintro rfl
        exact houtside (Region.covers_add ((lt_limit hroom hfits).1 hstored))
      rw [Function.update_of_ne hne]
      exact h.kept a houtside hother
    · exact h.kept a houtside hother
  stored hapart i hi hlt := by
    rw [List.length_append, List.length_singleton] at hi
    rw [Writer.put, h.next]
    dsimp only
    rcases Nat.lt_succ_iff_lt_or_eq.1 hi with hbefore | rfl
    · rw [List.getElem_append_left hbefore, ← h.stored hapart i hbefore hlt]
      split
      · exact Function.update_of_ne (add_ne hbefore hfits) _ _
      · rfl
    · rw [if_pos ((lt_limit hroom hfits).2 hlt), Function.update_self]
      simp

/-- Another region is overwritten. -/
theorem Wrote.poke (h : Wrote m buf room k xs targets s) (t : BitVec w) {ys : List α}
    (hk : ys.length = k) : Wrote m buf room k xs (targets ++ [t]) (s.poke t ys) where
  next := h.next
  kept a houtside hother := by
    have hpoked : ¬ Covers t ys.length a := by
      rw [hk]
      exact hother t (by simp)
    rw [Writer.poke_mem, Region.store_outside hpoked]
    exact h.kept a houtside fun t' ht' => hother t' (List.mem_append_left _ ht')
  stored hapart i hi hlt := by
    have hpoked : ¬ Covers t ys.length (buf + .ofNat w i) := by
      rw [hk]
      exact hapart t (by simp) _ (Region.covers_add hlt)
    rw [Writer.poke_mem, Region.store_outside hpoked]
    exact h.stored (fun t' ht' => hapart t' (List.mem_append_left _ ht')) i hi hlt

/-- Where an element that ends the list goes: behind the list, or to the last place. -/
theorem Wrote.last_eq (h : Wrote m buf room k xs targets s) (hpos : 0 < room)
    (hroom : buf.toNat + room < Nat.pow 2 w) (hfits : buf.toNat + xs.length < Nat.pow 2 w) :
    (if s.next < buf + .ofNat w room then s.next else buf + .ofNat w room - 1) =
      buf + .ofNat w (min (room - 1) xs.length) := by
  rw [h.next]
  by_cases hlt : xs.length < room
  · rw [if_pos ((lt_limit hroom hfits).2 hlt), Nat.min_eq_right (by omega)]
  · have hroom' : room = room - 1 + 1 := by omega
    rw [if_neg (mt (lt_limit hroom hfits).1 hlt), Nat.min_eq_left (by omega), hroom',
      BitVec.ofNat_add, ← BitVec.add_assoc]
    exact BitVec.add_sub_cancel _ _

/-- The list is ended, and truncated if there is no room for it. -/
theorem Wrote.terminate (h : Wrote m buf room k xs targets s) (x : α) (hpos : 0 < room)
    (hroom : buf.toNat + room < Nat.pow 2 w) (hfits : buf.toNat + xs.length < Nat.pow 2 w) :
    let last := if s.next < buf + .ofNat w room then s.next else buf + .ofNat w room - 1
    let mem := Function.update s.mem last x
    (∀ a, ¬ Covers buf room a → (∀ t ∈ targets, ¬ Covers t k a) → mem a = m a) ∧
    ((∀ t ∈ targets, Apart buf room t k) → ∀ i (hi : i < xs.length), i < room - 1 →
      mem (buf + .ofNat w i) = xs[i]) ∧
    mem (buf + .ofNat w (min (room - 1) xs.length)) = x := by
  dsimp only
  rw [h.last_eq hpos hroom hfits]
  refine ⟨fun a houtside hother => ?_, fun hapart i hi hlt => ?_, Function.update_self _ _ _⟩
  · have hne : a ≠ buf + .ofNat w (min (room - 1) xs.length) := by
      rintro rfl
      exact houtside (Region.covers_add (by omega))
    rw [Function.update_of_ne hne]
    exact h.kept a houtside hother
  · rw [Function.update_of_ne (add_ne (by omega) (by omega))]
    exact h.stored hapart i hi (by omega)

end Soc.Library.BoundedWriter
