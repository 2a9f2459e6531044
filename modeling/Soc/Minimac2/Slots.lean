import Mathlib.Tactic.SplitIfs
import Soc.Minimac2.Owner

/-!
# Frames and slots

The receiver stores a frame in the slot that was available in the last idle cycle and touches no
other one. When a frame ends its slot is on its way to the software: the count is final before
the pulse of `rx_done` leaves, so it has passed the two registers of the synchroniser when the
pulse arrives and the slot becomes PENDING.
-/

namespace Soc.Minimac2

open Library (Machine Flight)

section Bytes

variable {nibbles : List Nibble}

/-- Two nibbles are a byte. -/
theorem length_bytes : (bytes nibbles).length = nibbles.length / 2 := by
  fun_induction bytes nibbles with
  | case1 lo hi rest ih =>
      simp only [List.length_cons, ih]
      omega
  | case2 nibbles hshort =>
      match nibbles with
      | [] => rfl
      | [_] => simp
      | lo :: hi :: rest => exact absurd rfl (hshort lo hi rest)

/-- Nibbles after complete bytes form bytes of their own. -/
theorem bytes_append (heven : nibbles.length % 2 = 0) (more : List Nibble) :
    bytes (nibbles ++ more) = bytes nibbles ++ bytes more := by
  fun_induction bytes nibbles with
  | case1 lo hi rest ih =>
      rw [List.length_cons, List.length_cons] at heven
      rw [List.cons_append, List.cons_append, bytes, ih (by omega), List.cons_append]
  | case2 nibbles hshort =>
      match nibbles with
      | [] => rfl
      | [_] => simp at heven
      | lo :: hi :: rest => exact absurd rfl (hshort lo hi rest)

end Bytes

/-- A slot holds the complete bytes of a frame, from address 0 on, and their number. -/
structure Holds (p : PhySlot) (nibbles : List Nibble) : Prop where
  count : p.rxCount.toNat = (bytes nibbles).length
  byte : ∀ k, k < (bytes nibbles).length →
    (bytes nibbles)[k]? = some (p.buffer (.ofNat 11 k))

namespace Holds

variable {p p' : PhySlot} {nibbles nibbles' : List Nibble}

/-- What a slot holds depends on its count, its buffer and the bytes only. -/
theorem congr (h : Holds p nibbles) (hcount : p'.rxCount = p.rxCount)
    (hbuffer : p'.buffer = p.buffer) (hbytes : bytes nibbles' = bytes nibbles) :
    Holds p' nibbles' := by
  constructor
  · rw [hcount, hbytes]
    exact h.count
  · intro k hk
    rw [hbytes] at hk ⊢
    rw [hbuffer]
    exact h.byte k hk

/-- The start of a frame. -/
theorem nil (hcount : p.rxCount = 0) : Holds p [] := by
  constructor
  · rw [hcount]
    rfl
  · exact fun k hk => absurd hk (Nat.not_lt_zero k)

/-- Another byte is written. -/
theorem append (h : Holds p nibbles) (heven : nibbles.length % 2 = 0)
    (hfits : nibbles.length + 2 < 2 * 2048) {lo hi : Nibble}
    (hcount : p'.rxCount = p.rxCount + 1)
    (hbuffer : p'.buffer = Function.update p.buffer p.rxCount (hi ++ lo)) :
    Holds p' (nibbles ++ [lo, hi]) := by
  have hlength : (bytes nibbles).length + 1 < 2048 := by
    rw [length_bytes]
    omega
  have hcountNat := h.count
  constructor
  · rw [bytes_append heven, List.length_append, hcount, BitVec.toNat_add, hcountNat]
    show ((bytes nibbles).length + 1) % 2048 = (bytes nibbles).length + 1
    exact Nat.mod_eq_of_lt hlength
  · intro k hk
    have happend : bytes (nibbles ++ [lo, hi]) = bytes nibbles ++ [hi ++ lo] := bytes_append heven _
    rw [happend] at hk ⊢
    rw [List.length_append, List.length_singleton] at hk
    have hofNat : ∀ j, j < 2048 → (BitVec.ofNat 11 j).toNat = j := fun j hj => by
      rw [BitVec.toNat_ofNat]
      exact Nat.mod_eq_of_lt hj
    rw [hbuffer]
    -- the count is the address of the new byte
    by_cases hlast : k = (bytes nibbles).length
    · have haddress : BitVec.ofNat 11 k = p.rxCount := by
        refine BitVec.eq_of_toNat_eq ?_
        rw [hofNat k (by omega), hcountNat, hlast]
      rw [haddress, Function.update_self, hlast, List.getElem?_concat_length]
    · have haddress : BitVec.ofNat 11 k ≠ p.rxCount := by
        intro heq
        have hnat := congrArg BitVec.toNat heq
        rw [hofNat k (by omega), hcountNat] at hnat
        exact hlast hnat
      rw [Function.update_of_ne haddress, List.getElem?_append_left (by omega)]
      exact h.byte k (by omega)

end Holds

/-- Nothing is written to a slot's buffer or count. -/
def Untouched (p p' : PhySlot) : Prop := p'.rxCount = p.rxCount ∧ p'.buffer = p.buffer

namespace Mac

variable {s : Mac} {e : Edge} {x : PhyEdge} {i : SlotId}

/-- A slot at an edge of phy_rx_clk. -/
theorem nextRx_slot (h : e.phy = some x) :
    (s.nextRx e).slot i = (s.rx.slot i).next (s.sys i).readyLevel
      (rxCtl s.rx.state x.phyDv) (s.rx.free i) (s.rx.hi ++ s.rx.lo) := by
  rw [nextRx, h]
  rfl

/-- The receiver without an edge. -/
theorem nextRx_none (h : e.phy = none) : s.nextRx e = s.rx := by
  rw [nextRx, h]

/-- The state machine at an edge of phy_rx_clk. -/
theorem next_state (h : e.phy = some x) :
    (s.next e).rx.state = (rxCtl s.rx.state x.phyDv).nextState := by
  show (s.nextRx e).state = _
  rw [nextRx, h]
  rfl

/-- A slot that is not used is not written, and no frame ends in it. -/
theorem untouched_of_not_used (h : (s.rx.slot i).used = false) :
    Untouched (s.rx.slot i) ((s.nextRx e).slot i) ∧ s.done e i ≠ some true := by
  cases hphy : e.phy with
  | none => simp [nextRx_none hphy, Untouched, done, hphy]
  | some x => simp [nextRx_slot hphy, Untouched, PhySlot.next, PhySlot.rxDone, done, hphy, h]

/-- Nothing is written between frames. -/
theorem untouched_of_terminate (h : s.rx.state = .terminate) :
    Untouched (s.rx.slot i) ((s.nextRx e).slot i) ∧ s.done e i ≠ some true := by
  cases hphy : e.phy with
  | none => simp [nextRx_none hphy, Untouched, done, hphy]
  | some x => simp [nextRx_slot hphy, Untouched, PhySlot.next, PhySlot.rxDone, done, hphy, rxCtl, h]

/-- Between frames `used_slot` follows the first available slot. -/
theorem free_eq (i : SlotId) : s.rx.free i = decide (s.firstAvailable = some i) := by
  rw [firstAvailable]
  match i with
  | .slot0 =>
      cases h0 : (s.rx.slot .slot0).available <;> cases h1 : (s.rx.slot .slot1).available <;>
        simp [Rx.free, h0]
  | .slot1 =>
      cases h0 : (s.rx.slot .slot0).available <;> cases h1 : (s.rx.slot .slot1).available <;>
        simp [Rx.free, h0, h1]

/-- The first available slot is available. -/
theorem available_of_first (h : s.firstAvailable = some i) : (s.rx.slot i).available = true := by
  rw [firstAvailable] at h
  split_ifs at h with h0 h1
  · cases h
    exact h0
  · cases h
    exact h1

end Mac

/-- `used_slot` is the slot chosen in the last idle cycle, and the receiver owns it. -/
structure Chosen (s : Mac) (owner : SlotId → Owner) : Prop where
  used : ∀ i, (s.rx.slot i).used = decide (s.chosen = some i)
  owned : ∀ i, s.chosen = some i → owner i = .receiver

/-- `lo` and `hi` hold the nibbles that have not been stored. -/
inductive Loaded (rx : Rx) (stored : List Nibble) : List Nibble → Prop where
  | lo : rx.state = .loadHi → Loaded rx stored (stored ++ [rx.lo])
  | hi : rx.state = .loadLo → Loaded rx stored (stored ++ [rx.lo, rx.hi])

/-- What the receiver holds, by what the wire has carried. -/
inductive Receiving (s : Mac) (owner : SlotId → Owner) : Wire → Prop where
  | quiet : s.rx.state = .idle → Chosen s owner → Receiving s owner .quiet
  | gap : s.rx.state = .terminate → Receiving s owner .gap
  | frame {nibbles stored : List Nibble} :
      nibbles.length < 2 * 2048 → stored.length % 2 = 0 → Loaded s.rx stored nibbles →
      Chosen s owner → (∀ i, s.chosen = some i → Holds (s.rx.slot i) stored) →
      Receiving s owner (.frame nibbles)

/-- The owners of the slots after an edge. -/
def nextOwner (s : Mac) (e : Edge) (owner : SlotId → Owner) (i : SlotId) : Owner :=
  (owner i).next (Mac.load e i) (s.done e i)

section Receiving

variable {s : Mac} {e : Edge} {x : PhyEdge} {owner : SlotId → Owner} {i : SlotId}
  {nibbles stored : List Nibble}

/-- The receiver keeps a slot in which no frame ends. -/
theorem nextOwner_of_receiver (h : owner i = .receiver) (hdone : s.done e i ≠ some true) :
    nextOwner s e owner i = .receiver := by
  rw [nextOwner, h, Owner.next, if_neg hdone]

/-- A slot that is not chosen is not written, and no frame ends in it. -/
theorem Receiving.untouched {w : Wire} (h : Receiving s owner w) (hchosen : s.chosen ≠ some i) :
    Untouched (s.rx.slot i) ((s.nextRx e).slot i) ∧ s.done e i ≠ some true := by
  have hused : Chosen s owner → (s.rx.slot i).used = false := fun hc => by
    rw [hc.used, decide_eq_false hchosen]
  cases h with
  | quiet _ hc => exact Mac.untouched_of_not_used (hused hc)
  | gap hstate => exact Mac.untouched_of_terminate hstate
  | frame _ _ _ hc _ => exact Mac.untouched_of_not_used (hused hc)

/-- The receiver touches no slot that it does not own. -/
theorem Receiving.untouched_of_ne {w : Wire} (h : Receiving s owner w)
    (howner : owner i ≠ .receiver) :
    Untouched (s.rx.slot i) ((s.nextRx e).slot i) ∧ s.done e i ≠ some true := by
  have hchosen : Chosen s owner → s.chosen ≠ some i := fun hc heq => howner (hc.owned i heq)
  cases h with
  | quiet hstate hc => exact (Receiving.quiet hstate hc).untouched (hchosen hc)
  | gap hstate => exact Mac.untouched_of_terminate hstate
  | frame hlength heven hloaded hc hholds =>
      exact (Receiving.frame hlength heven hloaded hc hholds).untouched (hchosen hc)

/-- A frame ends in the slot chosen for it, at its first idle cycle. -/
theorem Receiving.done_iff {w : Wire} (h : Receiving s owner w) :
    s.done e i = some true ↔
      ∃ nibbles x, w = .frame nibbles ∧ e.phy = some x ∧ x.phyDv = false ∧
        s.chosen = some i := by
  cases hphy : e.phy with
  | none => simp [Mac.done, hphy]
  | some x =>
      rw [Mac.done, hphy, Option.map_some, Option.some.injEq, PhySlot.rxDone]
      cases h with
      | quiet hstate _ => cases hdv : x.phyDv <;> simp [rxCtl, hstate]
      | gap hstate => simp [rxCtl, hstate]
      | frame _ _ hloaded hc _ =>
          rw [hc.used]
          cases hloaded with
          | lo hstate => cases hdv : x.phyDv <;> simp [rxCtl, hstate, hdv]
          | hi hstate => cases hdv : x.phyDv <;> simp [rxCtl, hstate, hdv]

/-- At the end of a frame its slot holds it. -/
theorem Receiving.holds_of_done (h : Receiving s owner (.frame nibbles)) (hphy : e.phy = some x)
    (hdv : x.phyDv = false) (hchosen : s.chosen = some i) :
    Holds ((s.nextRx e).slot i) nibbles := by
  rw [Mac.nextRx_slot hphy]
  cases h with
  | frame hlength heven hloaded hc hholds =>
      have hused : (s.rx.slot i).used = true := by rw [hc.used, decide_eq_true hchosen]
      cases hloaded with
      | lo hstate =>
          -- an odd nibble is dropped
          refine (hholds i hchosen).congr ?_ ?_ ?_
          · simp [PhySlot.next, rxCtl, hstate, hdv]
          · simp [PhySlot.next, rxCtl, hstate, hdv]
          · rw [bytes_append heven]
            exact List.append_nil _
      | hi hstate =>
          -- the last byte is stored in the first idle cycle
          refine (hholds i hchosen).append heven ?_ ?_ ?_
          · simpa using hlength
          · simp [PhySlot.next, rxCtl, hstate, hdv, hused]
          · simp [PhySlot.next, rxCtl, hstate, hdv, hused]

/-- Between frames the first available slot is chosen. -/
theorem Chosen.idle (hphy : e.phy = some x) (hdv : x.phyDv = false)
    (hupdate : (rxCtl s.rx.state x.phyDv).usedSlotUpdate = true)
    (havailable : ∀ i, (s.rx.slot i).available = true → owner i = .receiver)
    (hdone : ∀ i, s.done e i ≠ some true) : Chosen (s.next e) (nextOwner s e owner) := by
  have hchosen : (s.next e).chosen = s.firstAvailable := by
    simp [Mac.next, hphy, hdv]
  constructor
  · intro i
    show ((s.nextRx e).slot i).used = _
    rw [Mac.nextRx_slot hphy, hchosen, ← Mac.free_eq i]
    exact if_pos hupdate
  · intro i hi
    rw [hchosen] at hi
    exact nextOwner_of_receiver (havailable i (Mac.available_of_first hi)) (hdone i)

/-- During a frame the choice stands. -/
theorem Chosen.busy (h : Chosen s owner) (hphy : e.phy = some x) (hdv : x.phyDv = true)
    (hupdate : (rxCtl s.rx.state x.phyDv).usedSlotUpdate = false)
    (hdone : ∀ i, s.done e i ≠ some true) : Chosen (s.next e) (nextOwner s e owner) := by
  have hchosen : (s.next e).chosen = s.chosen := by
    simp [Mac.next, hphy, hdv]
  constructor
  · intro i
    show ((s.nextRx e).slot i).used = _
    rw [Mac.nextRx_slot hphy, hchosen, ← h.used i]
    exact if_neg (hupdate ▸ Bool.false_ne_true)
  · intro i hi
    rw [hchosen] at hi
    exact nextOwner_of_receiver (h.owned i hi) (hdone i)

/-- Without an edge of phy_rx_clk the receiver stays as it is. -/
theorem Receiving.next_none {w : Wire} (h : Receiving s owner w) (hphy : e.phy = none) :
    Receiving (s.next e) (nextOwner s e owner) w := by
  have hrx : (s.next e).rx = s.rx := Mac.nextRx_none hphy
  have hchosen : (s.next e).chosen = s.chosen := by simp [Mac.next, hphy]
  have hc : Chosen s owner → Chosen (s.next e) (nextOwner s e owner) := by
    intro hc
    constructor
    · rw [hrx, hchosen]
      exact hc.used
    · intro i hi
      refine nextOwner_of_receiver (hc.owned i (hchosen ▸ hi)) ?_
      simp [Mac.done, hphy]
  cases h with
  | quiet hstate h => exact .quiet (hrx ▸ hstate) (hc h)
  | gap hstate => exact .gap (hrx ▸ hstate)
  | frame hlength heven hloaded h hholds =>
      refine .frame hlength heven (hrx ▸ hloaded) (hc h) ?_
      rw [hrx, hchosen]
      exact hholds

/-- The first idle cycle after a gap, or another one. -/
theorem Receiving.next_idle (hphy : e.phy = some x) (hdv : x.phyDv = false)
    (hstate : s.rx.state = .idle ∨ s.rx.state = .terminate)
    (havailable : ∀ i, (s.rx.slot i).available = true → owner i = .receiver)
    (hdone : ∀ i, s.done e i ≠ some true) : Receiving (s.next e) (nextOwner s e owner) .quiet := by
  have hctl : (rxCtl s.rx.state x.phyDv).usedSlotUpdate = true ∧
      (rxCtl s.rx.state x.phyDv).nextState = .idle := by
    obtain hstate | hstate := hstate <;> rw [hstate, hdv] <;> exact ⟨rfl, rfl⟩
  refine .quiet ?_ (Chosen.idle hphy hdv hctl.1 havailable hdone)
  rw [Mac.next_state hphy, hctl.2]

/-- The first nibble of a frame. -/
theorem Receiving.next_first (hphy : e.phy = some x) (hdv : x.phyDv = true)
    (hstate : s.rx.state = .idle) (hc : Chosen s owner) (hdone : ∀ i, s.done e i ≠ some true) :
    Receiving (s.next e) (nextOwner s e owner) (.frame [x.phyRxData]) := by
  have hlo : (s.next e).rx.lo = x.phyRxData := by
    simp [Mac.next, Mac.nextRx, hphy, Rx.next, rxCtl, hstate, hdv]
  have hchosen : (s.next e).chosen = s.chosen := by simp [Mac.next, hphy, hdv]
  have hloaded : Loaded (s.next e).rx [] [x.phyRxData] := by
    rw [← hlo]
    refine .lo ?_
    rw [Mac.next_state hphy, hstate, hdv]
    rfl
  refine .frame (by simp) rfl hloaded (hc.busy hphy hdv ?_ hdone) ?_
  · rw [hstate, hdv]
    rfl
  · intro i hi
    rw [hchosen] at hi
    refine .nil ?_
    show ((s.nextRx e).slot i).rxCount = 0
    rw [Mac.nextRx_slot hphy]
    simp [PhySlot.next, rxCtl, hstate, hdv, hc.used, hi]

/-- A frame goes on. -/
theorem Receiving.next_nibble (h : Receiving s owner (.frame nibbles)) (hphy : e.phy = some x)
    (hdv : x.phyDv = true) (hlength : (Wire.frame nibbles).MayCarry)
    (hdone : ∀ i, s.done e i ≠ some true) :
    Receiving (s.next e) (nextOwner s e owner) (.frame (nibbles ++ [x.phyRxData])) := by
  have hchosen : (s.next e).chosen = s.chosen := by simp [Mac.next, hphy, hdv]
  cases h with
  | @frame _ stored _ heven hloaded hc hholds =>
      have hlength' : (nibbles ++ [x.phyRxData]).length < 2 * 2048 := by
        rw [List.length_append]
        exact hlength
      cases hloaded with
      | lo hstate =>
          -- the high nibble; nothing is stored
          have hlo : (s.next e).rx.lo = s.rx.lo := by
            simp [Mac.next, Mac.nextRx, hphy, Rx.next, rxCtl, hstate, hdv]
          have hhi : (s.next e).rx.hi = x.phyRxData := by
            simp [Mac.next, Mac.nextRx, hphy, Rx.next, rxCtl, hstate, hdv]
          have hloaded : Loaded (s.next e).rx stored (stored ++ [s.rx.lo] ++ [x.phyRxData]) := by
            rw [List.append_assoc, ← hlo, ← hhi]
            refine .hi ?_
            rw [Mac.next_state hphy, hstate, hdv]
            rfl
          refine .frame hlength' heven hloaded (hc.busy hphy hdv ?_ hdone) fun i hi => ?_
          · rw [hstate, hdv]
            rfl
          · rw [hchosen] at hi
            refine (hholds i hi).congr ?_ ?_ rfl
            · show ((s.nextRx e).slot i).rxCount = _
              simp [Mac.nextRx_slot hphy, PhySlot.next, rxCtl, hstate, hdv]
            · show ((s.nextRx e).slot i).buffer = _
              simp [Mac.nextRx_slot hphy, PhySlot.next, rxCtl, hstate, hdv]
      | hi hstate =>
          -- the low nibble of the next byte, while the last byte is stored
          have hlo : (s.next e).rx.lo = x.phyRxData := by
            simp [Mac.next, Mac.nextRx, hphy, Rx.next, rxCtl, hstate, hdv]
          have hloaded : Loaded (s.next e).rx (stored ++ [s.rx.lo, s.rx.hi])
              (stored ++ [s.rx.lo, s.rx.hi] ++ [x.phyRxData]) := by
            rw [← hlo]
            refine .lo ?_
            rw [Mac.next_state hphy, hstate, hdv]
            rfl
          refine .frame hlength' ?_ hloaded (hc.busy hphy hdv ?_ hdone) fun i hi => ?_
          · simpa using heven
          · rw [hstate, hdv]
            rfl
          · rw [hchosen] at hi
            have hused : (s.rx.slot i).used = true := by rw [hc.used, decide_eq_true hi]
            refine (hholds i hi).append heven ?_ ?_ ?_
            · simp only [List.length_append, List.length_cons, List.length_nil] at hlength'
              omega
            · show ((s.nextRx e).slot i).rxCount = _
              simp [Mac.nextRx_slot hphy, PhySlot.next, rxCtl, hstate, hdv, hused]
            · show ((s.nextRx e).slot i).buffer = _
              simp [Mac.nextRx_slot hphy, PhySlot.next, rxCtl, hstate, hdv, hused]

/-- A frame ends. -/
theorem Receiving.next_end (h : Receiving s owner (.frame nibbles)) (hphy : e.phy = some x)
    (hdv : x.phyDv = false) : Receiving (s.next e) (nextOwner s e owner) .gap := by
  cases h with
  | frame _ _ hloaded _ _ =>
      refine .gap ?_
      rw [Mac.next_state hphy, hdv]
      cases hloaded with
      | lo hstate | hi hstate =>
          rw [hstate]
          rfl

/-- Every edge keeps what the receiver holds in step with the wire. -/
theorem Receiving.next (h : Receiving s owner s.wire)
    (hrule : ∀ x ∈ e.phy, s.PhyRule x)
    (havailable : ∀ i, (s.rx.slot i).available = true → owner i = .receiver) :
    Receiving (s.next e) (nextOwner s e owner) (s.next e).wire := by
  cases hphy : e.phy with
  | none =>
      have hwire : (s.next e).wire = s.wire := by simp [Mac.next, hphy]
      rw [hwire]
      exact h.next_none hphy
  | some x =>
      have hwire : (s.next e).wire = s.wire.next x := by simp [Mac.next, hphy]
      have hrule := hrule x hphy
      have hdone : ∀ i, s.done e i = some true ↔ _ := fun i => h.done_iff
      have hbusy : x.phyDv = true → ∀ i, s.done e i ≠ some true := by
        intro hdv i hend
        obtain ⟨_, y, -, hy, hnot, -⟩ := (hdone i).1 hend
        rw [hphy] at hy
        cases hy
        rw [hdv] at hnot
        cases hnot
      rw [Mac.PhyRule] at hrule
      rw [hwire]
      generalize s.wire = w at h hrule hdone ⊢
      by_cases hdv : x.phyDv = true
      · have hrule := hrule hdv
        cases h with
        | quiet hstate hc =>
            rw [Wire.next, if_pos hdv]
            exact Receiving.next_first hphy hdv hstate hc (hbusy hdv)
        | gap _ => exact hrule.elim
        | frame hlength heven hloaded hc hholds =>
            rw [Wire.next, if_pos hdv]
            exact (Receiving.frame hlength heven hloaded hc hholds).next_nibble hphy hdv hrule
              (hbusy hdv)
      · have hdv' : x.phyDv = false := Bool.not_eq_true _ ▸ hdv
        have hidle : (∀ nibbles, w ≠ .frame nibbles) → ∀ i, s.done e i ≠ some true := by
          intro hne i hend
          obtain ⟨nibbles, _, hframe, -⟩ := (hdone i).1 hend
          exact hne nibbles hframe
        cases h with
        | quiet hstate hc =>
            rw [Wire.next, if_neg hdv]
            exact Receiving.next_idle hphy hdv' (.inl hstate) havailable (hidle (by simp))
        | gap hstate =>
            rw [Wire.next, if_neg hdv]
            exact Receiving.next_idle hphy hdv' (.inr hstate) havailable (hidle (by simp))
        | frame hlength heven hloaded hc hholds =>
            rw [Wire.next, if_neg hdv]
            exact (Receiving.frame hlength heven hloaded hc hholds).next_end hphy hdv'

end Receiving

end Soc.Minimac2
