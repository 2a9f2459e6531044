import Soc.Minimac2.Slots

/-!
# A receive slot has one owner

The owners of the slots, what the receiver holds and the account of the frames each slot has
received are preserved together by every edge of either clock. While a slot reads PENDING the
software owns it, so the receiver leaves it alone; the last frame it has received is what it
holds; and it has become PENDING for each frame once, at the third edge of sys_clk after the
frame ended.
-/

namespace Soc.Minimac2

open Library (Machine Flight)

/-- The slot has become PENDING for the frame. -/
def Reception.Settled (r : Reception) : Prop := r.pended = 1 ∧ 3 ≤ r.age

/-- The edges of sys_clk since the pulse started. -/
def age : Flight → Nat
  | .toggled => 0
  | .level1 => 1
  | .level2 => 2

/-- Each stage takes one edge. -/
theorem age_next {flight flight' : Flight} (h : flight.next = some flight') :
    age flight' = age flight + 1 := by
  cases flight <;> cases h <;> rfl

/-- The last stage is the third one. -/
theorem age_last {flight : Flight} (h : flight.next = none) : age flight = 2 := by
  cases flight <;> first | rfl | cases h

/-- How far the receiver's count has come when the pulse has. -/
def Synced (sys : SysSlot) (count : BitVec 11) : Flight → Prop
  | .toggled => True
  | .level1 => sys.rxCountR = count
  | .level2 => sys.rxCountR = count ∧ sys.rxCount = count

/-- The account of the frames a slot has received. -/
inductive Accounts (s : Mac) (i : SlotId) : Owner → Prop where
  | elsewhere {o : Owner} : o.doneFlight = none → o ≠ .software →
      (∀ r ∈ s.received i, r.Settled) → Accounts s i o
  | toSoftware {flight : Flight} {r : Reception} {rest : List Reception} :
      s.received i = r :: rest → (∀ r' ∈ rest, r'.Settled) → r.pended = 0 → r.age = age flight →
      Holds (s.rx.slot i) r.nibbles → Synced (s.sys i) (s.rx.slot i).rxCount flight →
      Accounts s i (.toSoftware flight)
  | software {r : Reception} {rest : List Reception} :
      s.received i = r :: rest → (∀ r' ∈ r :: rest, r'.Settled) → Holds (s.rx.slot i) r.nibbles →
      Synced (s.sys i) (s.rx.slot i).rxCount .level2 → Accounts s i .software

section Accounts

variable {s : Mac} {e : Edge} {owner : SlotId → Owner} {i : SlotId} {rs : List Reception}

/-- Settled frames stay settled. -/
theorem settled_map (h : ∀ r ∈ rs, r.Settled) : ∀ r ∈ rs.map (·.later false), r.Settled := by
  intro r hr
  obtain ⟨r', hr', rfl⟩ := List.mem_map.1 hr
  obtain ⟨hpended, hage⟩ := h r' hr'
  exact ⟨hpended, Nat.le_succ_of_le hage⟩

/-- Settled frames stay settled while their slot does not become PENDING again. -/
theorem settled_later (h : ∀ r ∈ rs, r.Settled) : ∀ r ∈ later false rs, r.Settled := by
  cases rs with
  | nil => exact h
  | cons r rest => exact settled_map h

/-- The frames of a slot that does not become PENDING. -/
theorem settled_aged (h : ∀ r ∈ s.received i, r.Settled)
    (hbecomes : s.becomesPending e i = false) : ∀ r ∈ s.agedReceived e i, r.Settled := by
  rw [Mac.agedReceived]
  match e.sys with
  | none => exact h
  | some x =>
      rw [hbecomes]
      exact settled_later h

/-- A frame that ends in the slot is added to its frames. -/
theorem received_of_done (h : Receiving s owner s.wire) (hdone : s.done e i = some true) :
    ∃ nibbles, s.wire = .frame nibbles ∧
      (s.next e).received i = ⟨nibbles, 0, 0⟩ :: s.agedReceived e i ∧
      Holds ((s.next e).rx.slot i) nibbles := by
  obtain ⟨nibbles, x, hwire, hphy, hdv, hchosen⟩ := h.done_iff.1 hdone
  rw [hwire] at h
  refine ⟨nibbles, hwire, ?_, h.holds_of_done hphy hdv hchosen⟩
  simp [Mac.next, Mac.nextReceived, hwire, hphy, hdv, hchosen]

/-- Otherwise its frames only get older. -/
theorem received_of_not_done (h : Receiving s owner s.wire) (hdone : s.done e i ≠ some true) :
    (s.next e).received i = s.agedReceived e i := by
  have hiff := h.done_iff (e := e) (i := i)
  show s.nextReceived e i = _
  rw [Mac.nextReceived]
  split
  case h_1 nibbles x hwire hphy =>
    refine if_neg fun hend => hdone (hiff.2 ⟨nibbles, x, hwire, hphy, ?_⟩)
    simpa using hend
  case h_2 => rfl

/-- A slot becomes PENDING when the software becomes its owner. -/
theorem becomesPending_iff (h : (owner i).Represents (s.handshake i))
    (h' : (nextOwner s e owner i).Represents ((s.next e).handshake i)) :
    s.becomesPending e i = true ↔
      owner i ≠ .software ∧ nextOwner s e owner i = .software := by
  rw [Mac.becomesPending, decide_eq_true_iff]
  exact and_congr (not_congr h.pending_iff) h'.pending_iff

/-- The count registers of sys_clk follow the receiver's count. -/
theorem nextSys_counts {x : SysEdge} (h : e.sys = some x) :
    (s.nextSys e i).rxCountR = (s.rx.slot i).rxCount ∧
      (s.nextSys e i).rxCount = (s.sys i).rxCountR := by
  rw [Mac.nextSys, h]
  exact ⟨rfl, rfl⟩

/-- The count comes one register further with the pulse, and stays where it is once it has
arrived. -/
theorem Synced.next {flight : Flight} {x : SysEdge}
    (h : Synced (s.sys i) (s.rx.slot i).rxCount flight) (hsys : e.sys = some x) :
    Synced (s.nextSys e i) (s.rx.slot i).rxCount (flight.next.getD .level2) := by
  obtain ⟨hcountR, hcount⟩ := nextSys_counts (s := s) (i := i) hsys
  cases flight with
  | toggled => exact hcountR
  | level1 => exact ⟨hcountR, hcount.trans h⟩
  | level2 => exact ⟨hcountR, hcount.trans h.1⟩

/-- A slot elsewhere: a frame may end in it. -/
theorem Accounts.next_elsewhere (hreceiving : Receiving s owner s.wire)
    (hflight : (owner i).doneFlight = none) (howner : owner i ≠ .software)
    (hsettled : ∀ r ∈ s.received i, r.Settled)
    (hbecomes : s.becomesPending e i = true ↔
      owner i ≠ .software ∧ nextOwner s e owner i = .software)
    (hreceiver : s.done e i = some true → owner i = .receiver) :
    Accounts (s.next e) i (nextOwner s e owner i) := by
  by_cases hdone : s.done e i = some true
  · obtain ⟨nibbles, -, hreceived, hholds⟩ := received_of_done hreceiving hdone
    have hnext : nextOwner s e owner i = .toSoftware .toggled := by
      rw [nextOwner, hreceiver hdone, Owner.next, if_pos hdone]
    have hstill : s.becomesPending e i = false := by
      rw [← Bool.not_eq_true, hbecomes, hnext]
      rintro ⟨-, h⟩
      cases h
    rw [hnext]
    exact .toSoftware hreceived (settled_aged hsettled hstill) rfl rfl hholds trivial
  · obtain ⟨hflight', hnot⟩ := Owner.next_elsewhere hflight howner hdone
    have hstill : s.becomesPending e i = false := by
      rw [← Bool.not_eq_true, hbecomes]
      exact fun h => hnot h.2
    refine .elsewhere hflight' hnot ?_
    rw [received_of_not_done hreceiving hdone]
    exact settled_aged hsettled hstill

/-- A slot on its way to the software. -/
theorem Accounts.next_toSoftware {flight : Flight} {r : Reception} {rest : List Reception}
    (hreceiving : Receiving s owner s.wire) (howner : owner i = .toSoftware flight)
    (hreceived : s.received i = r :: rest) (hsettled : ∀ r' ∈ rest, r'.Settled)
    (hpended : r.pended = 0) (hage : r.age = age flight) (hholds : Holds (s.rx.slot i) r.nibbles)
    (hsynced : Synced (s.sys i) (s.rx.slot i).rxCount flight)
    (hbecomes : s.becomesPending e i = true ↔
      owner i ≠ .software ∧ nextOwner s e owner i = .software) :
    Accounts (s.next e) i (nextOwner s e owner i) := by
  obtain ⟨⟨hcount, hbuffer⟩, hdone⟩ :=
    hreceiving.untouched_of_ne (e := e) (i := i) (by simp [howner])
  have hholds' : Holds ((s.next e).rx.slot i) r.nibbles := hholds.congr hcount hbuffer rfl
  have haged := received_of_not_done hreceiving hdone
  rw [Mac.agedReceived, hreceived] at haged
  cases hsys : e.sys with
  | none =>
      have hnext : nextOwner s e owner i = .toSoftware flight := by
        simp [nextOwner, howner, Mac.load, hsys]
      rw [hnext]
      rw [hsys] at haged
      refine .toSoftware haged hsettled hpended hage hholds' ?_
      have hsame : (s.next e).sys i = s.sys i := by simp [Mac.next, Mac.nextSys, hsys]
      show Synced ((s.next e).sys i) ((s.nextRx e).slot i).rxCount flight
      rw [hsame, hcount]
      exact hsynced
  | some x =>
      have hsynced' := hsynced.next hsys
      rw [← hcount] at hsynced'
      rw [hsys] at haged
      have hnext : nextOwner s e owner i = flight.next.elim .software .toSoftware := by
        rw [nextOwner, howner, Mac.load, hsys]
        rfl
      cases hflight : flight.next with
      | some flight' =>
          rw [hflight] at hnext hsynced'
          have hstill : s.becomesPending e i = false := by
            rw [← Bool.not_eq_true, hbecomes, hnext]
            rintro ⟨-, h⟩
            cases h
          rw [hstill] at haged
          rw [hnext]
          refine .toSoftware haged (settled_map hsettled) hpended ?_ hholds' hsynced'
          rw [age_next hflight, ← hage]
          rfl
      | none =>
          -- the pulse arrives, after the count has passed its two registers
          rw [hflight] at hnext hsynced'
          have harrives : s.becomesPending e i = true := hbecomes.2 ⟨by simp [howner], hnext⟩
          rw [harrives] at haged
          rw [hnext]
          refine .software haged ?_ hholds' hsynced'
          intro r' hr'
          obtain rfl | hrest := List.mem_cons.1 hr'
          · refine ⟨congrArg Nat.succ hpended, ?_⟩
            have hlast := age_last hflight
            show 3 ≤ r.age + 1
            omega
          · exact settled_map hsettled r' hrest

/-- A slot of the software, which may hand it back. -/
theorem Accounts.next_software {r : Reception} {rest : List Reception}
    (hreceiving : Receiving s owner s.wire) (howner : owner i = .software)
    (hreceived : s.received i = r :: rest) (hsettled : ∀ r' ∈ r :: rest, r'.Settled)
    (hholds : Holds (s.rx.slot i) r.nibbles)
    (hsynced : Synced (s.sys i) (s.rx.slot i).rxCount .level2)
    (hbecomes : s.becomesPending e i = true ↔
      owner i ≠ .software ∧ nextOwner s e owner i = .software) :
    Accounts (s.next e) i (nextOwner s e owner i) := by
  obtain ⟨⟨hcount, hbuffer⟩, hdone⟩ :=
    hreceiving.untouched_of_ne (e := e) (i := i) (by simp [howner])
  have hstill : s.becomesPending e i = false := by
    rw [← Bool.not_eq_true, hbecomes]
    exact fun h => h.1 howner
  have hsettled' : ∀ r' ∈ (s.next e).received i, r'.Settled := by
    rw [received_of_not_done hreceiving hdone]
    exact settled_aged (hreceived ▸ hsettled) hstill
  by_cases hload : Mac.load e i = some true
  · have hnext : nextOwner s e owner i = .loading := by
      rw [nextOwner, howner, Owner.next, if_pos hload]
    rw [hnext]
    exact .elsewhere rfl (by simp) hsettled'
  · have hnext : nextOwner s e owner i = .software := by
      rw [nextOwner, howner, Owner.next, if_neg hload]
    have hholds' : Holds ((s.next e).rx.slot i) r.nibbles := hholds.congr hcount hbuffer rfl
    have haged := received_of_not_done hreceiving hdone
    rw [Mac.agedReceived, hreceived, hstill] at haged
    rw [hnext]
    cases hsys : e.sys with
    | none =>
        rw [hsys] at haged
        have hsame : (s.next e).sys i = s.sys i := by simp [Mac.next, Mac.nextSys, hsys]
        rw [haged] at hsettled'
        refine .software haged hsettled' hholds' ?_
        show Synced ((s.next e).sys i) ((s.nextRx e).slot i).rxCount .level2
        rw [hsame, hcount]
        exact hsynced
    | some x =>
        rw [hsys] at haged
        have hsynced' := hsynced.next hsys
        rw [← hcount] at hsynced'
        rw [haged] at hsettled'
        exact .software haged hsettled' hholds' hsynced'

/-- The account of a slot goes on. -/
theorem Accounts.next (h : Accounts s i (owner i)) (hreceiving : Receiving s owner s.wire)
    (hbecomes : s.becomesPending e i = true ↔
      owner i ≠ .software ∧ nextOwner s e owner i = .software)
    (hreceiver : s.done e i = some true → owner i = .receiver) :
    Accounts (s.next e) i (nextOwner s e owner i) := by
  generalize howner : owner i = o at h
  cases h with
  | elsewhere hflight hsoftware hsettled =>
      exact Accounts.next_elsewhere hreceiving (howner ▸ hflight) (howner ▸ hsoftware) hsettled
        hbecomes hreceiver
  | toSoftware hreceived hsettled hpended hage hholds hsynced =>
      exact Accounts.next_toSoftware hreceiving howner hreceived hsettled hpended hage hholds
        hsynced hbecomes
  | software hreceived hsettled hholds hsynced =>
      exact Accounts.next_software hreceiving howner hreceived hsettled hholds hsynced hbecomes

end Accounts

/-- The invariant of the receive path. -/
structure Consistent (s : Mac) (owner : SlotId → Owner) : Prop where
  represents : ∀ i, (owner i).Represents (s.handshake i)
  receiving : Receiving s owner s.wire
  accounts : ∀ i, Accounts s i (owner i)
  unwritten : s.written = false → ∀ i, owner i = .off

namespace Consistent

variable {s : Mac} {e : Edge} {owner : SlotId → Owner} {i : SlotId}

/-- A frame only ends in a slot that the receiver owns. -/
theorem receiver_of_done (h : Consistent s owner) (hdone : s.done e i = some true) :
    owner i = .receiver := by
  by_contra hne
  exact (h.receiving.untouched_of_ne hne).2 hdone

/-- The reset finds no slot loaded. -/
theorem off_of_reset (h : Consistent s owner) (hallowed : s.Allowed e) :
    ∀ x, e.sys = some x → x.sysRst = true → owner i = .off :=
  fun x hx hrst => h.unwritten (hallowed.1 x hx hrst) i

/-- The owners after an edge. -/
theorem represents_next (h : Consistent s owner) (hallowed : s.Allowed e) (i : SlotId) :
    (nextOwner s e owner i).Represents ((s.next e).handshake i) := by
  rw [Mac.handshake_next (h.represents i) (h.off_of_reset hallowed)]
  exact (h.represents i).next h.receiver_of_done

/-- Until the software writes LOADED no slot is handed over. -/
theorem unwritten_next (h : Consistent s owner) (hunwritten : (s.next e).written = false)
    (i : SlotId) : nextOwner s e owner i = .off := by
  have hboth : s.written = false ∧ Mac.load e i ≠ some true := by
    cases hsys : e.sys with
    | none =>
        simp only [Mac.next, hsys] at hunwritten
        exact ⟨hunwritten, by simp [Mac.load, hsys]⟩
    | some x =>
        simp only [Mac.next, hsys, Bool.or_eq_false_iff] at hunwritten
        refine ⟨hunwritten.1, fun hload => ?_⟩
        simp only [Mac.load, hsys, Option.map_some, Option.some.injEq, Bool.and_eq_true,
          decide_eq_true_iff] at hload
        have hwrites := hunwritten.2
        rw [hload.1, hload.2] at hwrites
        cases hwrites
  rw [nextOwner, h.unwritten hboth.1 i, Owner.next, if_neg hboth.2]

/-- Every edge keeps the invariant. -/
theorem next (h : Consistent s owner) (hallowed : s.Allowed e) :
    Consistent (s.next e) (nextOwner s e owner) where
  represents := h.represents_next hallowed
  receiving := by
    refine h.receiving.next hallowed.2 fun i havailable => ?_
    exact (h.represents i).available_iff.1 havailable
  accounts i :=
    (h.accounts i).next h.receiving
      (becomesPending_iff (h.represents i) (h.represents_next hallowed i)) h.receiver_of_done
  unwritten := h.unwritten_next

end Consistent

/-- The invariant holds at power-up. -/
theorem Mac.Initial.consistent {s : Mac} (h : s.Initial) : Consistent s fun _ => .off := by
  obtain ⟨hsys, hrx, hstate, hwire, hchosen, hreceived, -⟩ := h
  constructor
  · intro i
    obtain ⟨hslotState, hloadedR, hready, hdoneSync⟩ := hsys i
    obtain ⟨hreadySync, havailable, -, hdone⟩ := hrx i
    refine ⟨hslotState, fun _ => hloadedR, ?_, havailable, ?_⟩
    · show (s.rx.slot i).readySync = .holding (s.sys i).readyLevel none
      rw [hreadySync, hready]
      rfl
    · show (s.sys i).doneSync = .holding (s.rx.slot i).doneLevel none
      rw [hdoneSync, hdone]
      rfl
  · rw [hwire]
    refine .quiet hstate ⟨fun i => ?_, fun i hi => ?_⟩
    · rw [(hrx i).2.2.1, hchosen]
      rfl
    · rw [hchosen] at hi
      cases hi
  · intro i
    refine .elsewhere rfl nofun ?_
    rw [hreceived i]
    exact nofun
  · exact fun _ _ => rfl

/-- Some owners agree with every reachable state. -/
theorem consistent_of_reachable {s : Mac} (h : mac.Reachable s) : ∃ owner, Consistent s owner := by
  refine Machine.invariant (P := fun s => ∃ owner, Consistent s owner) (fun s hinit => ?_)
    (fun s e hconsistent hallowed => ?_) h
  · exact ⟨_, Mac.Initial.consistent hinit⟩
  · obtain ⟨owner, hconsistent⟩ := hconsistent
    exact ⟨_, hconsistent.next hallowed⟩

/-- The law of the receive slots, in a state and at an edge. -/
structure SingleOwner (s : Mac) (e : Edge) : Prop where
  /-- The receiver writes neither the buffer nor the count of a slot that reads PENDING, and the
  synchronised count stays. -/
  pending : ∀ i, (s.sys i).slotState = PENDING →
    Untouched (s.rx.slot i) ((s.next e).rx.slot i) ∧
      ((s.next e).sys i).rxCount = (s.sys i).rxCount
  /-- It writes no slot but the one that was available in the last idle cycle, if there was one. -/
  chosen : ∀ i, s.chosen ≠ some i → Untouched (s.rx.slot i) ((s.next e).rx.slot i)
  /-- It reports every frame for that slot, and nothing else. -/
  done : ∀ i, s.done e i = some true ↔
    ∃ nibbles x, s.wire = .frame nibbles ∧ e.phy = some x ∧ x.phyDv = false ∧ s.chosen = some i
  /-- A slot becomes PENDING for each of its frames once, at the third edge of sys_clk after it. -/
  once : ∀ i, ∀ r ∈ s.received i, r.pended = if 3 ≤ r.age then 1 else 0
  /-- It becomes PENDING for nothing else. -/
  becomes : ∀ i, s.becomesPending e i = true →
    ∃ r rest, s.received i = r :: rest ∧ r.pended = 0 ∧ r.age = 2
  /-- Apart from that its state only changes when LOADED is written. -/
  slotState : ∀ i, ((s.next e).sys i).slotState ≠ (s.sys i).slotState →
    s.becomesPending e i = true ∨ Mac.load e i = some true
  /-- A slot that reads PENDING holds the bytes of its last frame, and their number. -/
  stored : ∀ i, (s.sys i).slotState = PENDING →
    ∃ r rest, s.received i = r :: rest ∧
      (s.sys i).rxCount.toNat = (bytes r.nibbles).length ∧
      ∀ k, k < (bytes r.nibbles).length →
        (bytes r.nibbles)[k]? = some ((s.rx.slot i).buffer (.ofNat 11 k))

namespace Consistent

variable {s : Mac} {e : Edge} {owner : SlotId → Owner} {i : SlotId}

/-- What a slot that reads PENDING holds. -/
theorem holds_of_pending (h : Consistent s owner) (hpending : (s.sys i).slotState = PENDING) :
    ∃ r rest, s.received i = r :: rest ∧ Holds (s.rx.slot i) r.nibbles ∧
      Synced (s.sys i) (s.rx.slot i).rxCount .level2 := by
  have haccounts := h.accounts i
  rw [(h.represents i).pending_iff.1 hpending] at haccounts
  cases haccounts with
  | elsewhere _ hsoftware _ => exact absurd rfl hsoftware
  | software hreceived _ hholds hsynced => exact ⟨_, _, hreceived, hholds, hsynced⟩

/-- The count of a slot that reads PENDING has come through the synchroniser. -/
theorem rxCount_of_pending (h : Consistent s owner) (hpending : (s.sys i).slotState = PENDING) :
    ((s.next e).sys i).rxCount = (s.sys i).rxCount := by
  obtain ⟨_, _, _, _, hcountR, hcount⟩ := h.holds_of_pending hpending
  show (s.nextSys e i).rxCount = _
  cases hsys : e.sys with
  | none => rw [Mac.nextSys, hsys]
  | some x => rw [(nextSys_counts hsys).2, hcountR, hcount]

/-- How often a slot has become PENDING for a frame. -/
theorem pended_eq (h : Consistent s owner) {r : Reception} (hr : r ∈ s.received i) :
    r.pended = if 3 ≤ r.age then 1 else 0 := by
  have hsettled : r.Settled → r.pended = if 3 ≤ r.age then 1 else 0 := by
    rintro ⟨hpended, hage⟩
    rw [hpended, if_pos hage]
  have haccounts := h.accounts i
  generalize owner i = o at haccounts
  cases haccounts with
  | elsewhere _ _ hall => exact hsettled (hall r hr)
  | software hreceived hall _ _ =>
      rw [hreceived] at hr
      exact hsettled (hall r hr)
  | @toSoftware flight _ _ hreceived hall hpended hage _ _ =>
      rw [hreceived] at hr
      obtain rfl | hrest := List.mem_cons.1 hr
      · rw [hpended, if_neg]
        rw [hage]
        cases flight <;> decide
      · exact hsettled (hall r hrest)

/-- A slot becomes PENDING for the frame it has received last. -/
theorem of_becomesPending (h : Consistent s owner) (hallowed : s.Allowed e)
    (hbecomes : s.becomesPending e i = true) :
    ∃ r rest, s.received i = r :: rest ∧ r.pended = 0 ∧ r.age = 2 := by
  obtain ⟨hsoftware, hnext⟩ :=
    (becomesPending_iff (h.represents i) (h.represents_next hallowed i)).1 hbecomes
  have haccounts := h.accounts i
  rw [Owner.of_next_eq_software hnext hsoftware] at haccounts
  cases haccounts with
  | elsewhere hflight _ _ => cases hflight
  | toSoftware hreceived _ hpended hage _ _ => exact ⟨_, _, hreceived, hpended, hage⟩

/-- What changes the state of a slot. -/
theorem slotState_changes (h : Consistent s owner) (hallowed : s.Allowed e)
    (hchanges : ((s.next e).sys i).slotState ≠ (s.sys i).slotState) :
    s.becomesPending e i = true ∨ Mac.load e i = some true := by
  have hnext := h.represents_next hallowed i
  by_cases hload : Mac.load e i = some true
  · exact .inr hload
  · refine .inl ((becomesPending_iff (h.represents i) hnext).2 (Owner.slotState_next hload ?_))
    intro heq
    refine hchanges (hnext.slotState.trans (heq.trans ?_))
    exact (h.represents i).slotState.symm

/-- The invariant implies the law. -/
theorem singleOwner (h : Consistent s owner) (hallowed : s.Allowed e) : SingleOwner s e where
  pending i hpending := by
    refine ⟨(h.receiving.untouched_of_ne ?_).1, h.rxCount_of_pending hpending⟩
    rw [(h.represents i).pending_iff.1 hpending]
    exact nofun
  chosen _ hchosen := (h.receiving.untouched hchosen).1
  done _ := h.receiving.done_iff
  once _ _ hr := h.pended_eq hr
  becomes _ := h.of_becomesPending hallowed
  slotState _ := h.slotState_changes hallowed
  stored i hpending := by
    obtain ⟨r, rest, hreceived, hholds, -, hcount⟩ := h.holds_of_pending hpending
    exact ⟨r, rest, hreceived, (congrArg BitVec.toNat hcount).trans hholds.count, hholds.byte⟩

end Consistent

/-- From power-up on, for every software and every interleaving of the two clocks, a receive slot
has a single owner. -/
theorem single_owner {s : Mac} (h : mac.Reachable s) {e : Edge} (hallowed : mac.Allowed s e) :
    SingleOwner s e := by
  obtain ⟨owner, hconsistent⟩ := consistent_of_reachable h
  exact hconsistent.singleOwner hallowed

/-- The MAC at power-up. -/
def powerUp : Mac where
  sys _ := ⟨0, false, false, ⟨false, false, false⟩, 0, 0⟩
  rx := ⟨fun _ => ⟨⟨false, false, false⟩, false, false, 0, false, fun _ => 0⟩, 0, 0, .idle⟩
  wire := .quiet
  chosen := none
  received _ := []
  written := false

/-- An edge of sys_clk at which slot 0 may be loaded, and edges of phy_rx_clk. -/
def sysTick (load : Option (SlotId)) : Edge := ⟨some ⟨false, load⟩, none⟩

/-- An edge of phy_rx_clk, with a nibble or idle. -/
def phyTick (nibble : Option Nibble) : Edge := ⟨none, some ⟨nibble.isSome, nibble.getD 0⟩⟩

/-- Slot 0 is loaded, and receives a frame of three nibbles. -/
def runtFrame : List Edge :=
  [⟨some ⟨true, none⟩, none⟩, sysTick (some .slot0), sysTick none, phyTick none, phyTick none,
    phyTick none, phyTick none, phyTick (some 0x5), phyTick (some 0xd), phyTick (some 0x1),
    phyTick none, sysTick none, sysTick none, sysTick none]

/-- The slot reads PENDING after the frame, and the law holds at the next edge of both clocks. -/
theorem single_owner_runt :
    ((mac.run powerUp runtFrame).sys .slot0).slotState = PENDING ∧
      SingleOwner (mac.run powerUp runtFrame) ⟨some ⟨false, some .slot0⟩, some ⟨false, 0⟩⟩ := by
  refine ⟨by decide +kernel, single_owner (Machine.Reachable.run ?_ (by decide +kernel)) ?_⟩
  · refine .initial (M := mac) ⟨fun _ => ⟨rfl, rfl, rfl, rfl⟩, fun _ => ⟨rfl, rfl, rfl, rfl⟩, ?_⟩
    exact ⟨rfl, rfl, rfl, fun _ => rfl, rfl⟩
  · decide +kernel

end Soc.Minimac2
