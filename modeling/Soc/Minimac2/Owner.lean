import Soc.Minimac2.Receiver

/-!
# Who owns a receive slot

A slot travels from the software to the receiver and back. `Owner` is that travel without the
registers: who holds the slot, and, while it is on its way through a synchroniser, how far it has
come. `Represents` says which registers hold what for each owner, and `Represents.next` that the
two clocks move the registers as the owner moves, whatever edges they have.
-/

namespace Soc.Minimac2

open Library (Sampler Flight)

/-- The registers that hand a slot over. -/
structure Handshake where
  slotState : BitVec 2
  slotsLoadedR : Bool
  readyLevel : Bool
  readySync : Sampler
  available : Bool
  doneLevel : Bool
  doneSync : Sampler

namespace Handshake

variable (r : Handshake)

/-- The slot's bit of `rx_ready`. -/
def rxReady : Bool := r.slotState.getLsbD 0 && !r.slotsLoadedR

/-- The registers after an edge: of sys_clk, when `load` says whether LOADED is written, of
phy_rx_clk, when `done` says whether a frame ends in the slot, or of both. -/
def next (load done : Option Bool) : Handshake where
  slotState := load.elim r.slotState fun load =>
    if r.doneSync.out then PENDING else if load then LOADED else r.slotState
  slotsLoadedR := load.elim r.slotsLoadedR fun _ => r.slotState.getLsbD 0
  readyLevel := load.elim r.readyLevel fun _ => r.readyLevel ^^ r.rxReady
  readySync := done.elim r.readySync fun _ => r.readySync.next r.readyLevel
  available := done.elim r.available fun done => (r.available || r.readySync.out) && !done
  doneLevel := done.elim r.doneLevel fun done => r.doneLevel ^^ done
  doneSync := load.elim r.doneSync fun _ => r.doneSync.next r.doneLevel

end Handshake

/-- Where a slot is. -/
inductive Owner where
  /-- It has not been loaded yet. -/
  | off
  /-- The software has written LOADED. -/
  | loading
  /-- The pulse of `rx_ready` is on its way. -/
  | toReceiver (flight : Flight)
  | receiver
  /-- The pulse of `rx_done` is on its way. -/
  | toSoftware (flight : Flight)
  | software
  deriving DecidableEq

namespace Owner

/-- The owner after an edge of one of the clocks or of both. -/
def next (load done : Option Bool) : Owner → Owner
  | off => if load = some true then loading else off
  | loading => if load.isSome then toReceiver .toggled else loading
  | toReceiver flight =>
      if done.isSome then flight.next.elim receiver toReceiver else toReceiver flight
  | receiver => if done = some true then toSoftware .toggled else receiver
  | toSoftware flight =>
      if load.isSome then flight.next.elim software toSoftware else toSoftware flight
  | software => if load = some true then loading else software

/-- The slot's STATE register. -/
def slotState : Owner → BitVec 2
  | off => 0
  | software => PENDING
  | _ => LOADED

/-- The flight of the pulse to the receiver. -/
def readyFlight : Owner → Option Flight
  | toReceiver flight => some flight
  | _ => none

/-- The flight of the pulse to the software. -/
def doneFlight : Owner → Option Flight
  | toSoftware flight => some flight
  | _ => none

/-- The registers of a slot agree with its owner. -/
structure Represents (o : Owner) (r : Handshake) : Prop where
  slotState : r.slotState = o.slotState
  slotsLoadedR : o ≠ .software → r.slotsLoadedR = decide (o ≠ .off ∧ o ≠ .loading)
  readySync : r.readySync = .holding r.readyLevel o.readyFlight
  available : r.available = decide (o = .receiver)
  doneSync : r.doneSync = .holding r.doneLevel o.doneFlight

attribute [simp] next slotState readyFlight doneFlight Handshake.next Handshake.rxReady Flight.next

variable {o : Owner} {r : Handshake} {load done : Option Bool}

/-- The slot reads PENDING when the software owns it. -/
theorem Represents.pending_iff (h : o.Represents r) : r.slotState = PENDING ↔ o = .software := by
  rw [h.slotState]
  cases o <;> simp [LOADED, PENDING]

/-- The receiver sees the slot as available when it owns it. -/
theorem Represents.available_iff (h : o.Represents r) : r.available = true ↔ o = .receiver := by
  rw [h.available, decide_eq_true_iff]

/-- The software becomes the owner when the pulse arrives. -/
theorem of_next_eq_software (h : o.next load done = .software) (hsoftware : o ≠ .software) :
    o = .toSoftware .level2 := by
  cases o with
  | off | loading | receiver =>
      rw [next] at h
      split at h <;> cases h
  | toReceiver flight =>
      rw [next] at h
      split at h
      · cases flight <;> cases h
      · cases h
  | toSoftware flight =>
      rw [next] at h
      split at h
      · cases flight <;> first | rfl | cases h
      · cases h
  | software => exact absurd rfl hsoftware

/-- STATE changes when the software becomes the owner, and otherwise only when LOADED is written. -/
theorem slotState_next (hload : load ≠ some true)
    (h : (o.next load done).slotState ≠ o.slotState) :
    o ≠ .software ∧ o.next load done = .software := by
  cases o with
  | off | software =>
      rw [next, if_neg hload] at h
      exact absurd rfl h
  | loading | receiver =>
      rw [next] at h
      split at h <;> exact absurd rfl h
  | toReceiver flight =>
      rw [next] at h
      split at h
      · cases flight <;> exact absurd rfl h
      · exact absurd rfl h
  | toSoftware flight =>
      refine ⟨nofun, ?_⟩
      rw [next] at h ⊢
      split at h
      case isTrue hsome =>
        rw [if_pos hsome]
        cases flight <;> first | rfl | exact absurd rfl h
      case isFalse => exact absurd rfl h

/-- A slot only leaves for the software when a frame ends in it. -/
theorem next_elsewhere (hflight : o.doneFlight = none) (hsoftware : o ≠ .software)
    (hdone : done ≠ some true) :
    (o.next load done).doneFlight = none ∧ o.next load done ≠ .software := by
  cases o with
  | off | loading =>
      rw [next]
      split <;> exact ⟨rfl, nofun⟩
  | toReceiver flight =>
      rw [next]
      split
      · cases flight <;> exact ⟨rfl, nofun⟩
      · exact ⟨rfl, nofun⟩
  | receiver =>
      rw [next, if_neg hdone]
      exact ⟨rfl, nofun⟩
  | toSoftware flight => cases hflight
  | software => exact absurd rfl hsoftware

/-- A frame only ends in a slot that the receiver owns. -/
theorem not_done (hdone : done = some true → o = .receiver) (h : o ≠ .receiver) :
    done = none ∨ done = some false := by
  match done with
  | none => exact .inl rfl
  | some false => exact .inr rfl
  | some true => exact absurd (hdone rfl) h

/-- The clocks move the registers of a slot as its owner moves. -/
theorem Represents.next (h : o.Represents r) (hdone : done = some true → o = .receiver) :
    (o.next load done).Represents (r.next load done) := by
  obtain ⟨slotState, slotsLoadedR, readyLevel, readySync, available, doneLevel, doneSync⟩ := r
  obtain ⟨hstate, hloadedR, hready, havailable, hdoneSync⟩ := h
  simp only at hstate hloadedR hready havailable hdoneSync
  subst hstate hready havailable hdoneSync
  cases o with
  | off =>
      obtain rfl := hloadedR nofun
      obtain rfl | rfl := not_done hdone nofun <;> rcases load with _ | _ | _ <;>
        constructor <;> simp [LOADED]
  | loading =>
      obtain rfl := hloadedR nofun
      obtain rfl | rfl := not_done hdone nofun <;> rcases load with _ | _ <;>
        constructor <;> simp [LOADED]
  | toReceiver flight =>
      obtain rfl := hloadedR nofun
      obtain rfl | rfl := not_done hdone nofun <;> rcases load with _ | _ <;> cases flight <;>
        constructor <;> simp [LOADED]
  | receiver =>
      obtain rfl := hloadedR nofun
      rcases done with _ | _ | _ <;> rcases load with _ | _ <;> constructor <;> simp [LOADED]
  | toSoftware flight =>
      obtain rfl := hloadedR nofun
      obtain rfl | rfl := not_done hdone nofun <;> rcases load with _ | _ <;> cases flight <;>
        constructor <;> simp [LOADED, PENDING]
  | software =>
      obtain rfl | rfl := not_done hdone nofun <;> rcases load with _ | _ | _ <;>
        constructor <;> simp [LOADED, PENDING]

end Owner

namespace Mac

/-- The registers that hand over a slot of the MAC. -/
def handshake (s : Mac) (i : SlotId) : Handshake where
  slotState := (s.sys i).slotState
  slotsLoadedR := (s.sys i).slotsLoadedR
  readyLevel := (s.sys i).readyLevel
  readySync := (s.rx.slot i).readySync
  available := (s.rx.slot i).available
  doneLevel := (s.rx.slot i).doneLevel
  doneSync := (s.sys i).doneSync

/-- Whether LOADED is written to a slot, at an edge of sys_clk. -/
def load (e : Edge) (i : SlotId) : Option Bool :=
  e.sys.map fun x => !x.sysRst && decide (x.load = some i)

/-- Whether a frame ends in a slot, at an edge of phy_rx_clk. -/
def done (s : Mac) (e : Edge) (i : SlotId) : Option Bool :=
  e.phy.map fun x => (s.rx.slot i).rxDone (rxCtl s.rx.state x.phyDv)

variable {s : Mac} {e : Edge} {i : SlotId} {o : Owner}

/-- An edge of the MAC is an edge of the registers that hand a slot over, unless the system reset
hits a slot that has been loaded. -/
theorem handshake_next (h : o.Represents (s.handshake i))
    (hreset : ∀ x, e.sys = some x → x.sysRst = true → o = .off) :
    (s.next e).handshake i = (s.handshake i).next (load e i) (s.done e i) := by
  have hstate : (s.nextSys e i).slotState =
      ((s.handshake i).next (load e i) (s.done e i)).slotState := by
    match hsys : e.sys with
    | none => simp [nextSys, load, hsys, handshake]
    | some x =>
        simp only [nextSys, load, hsys, SysSlot.next, SysSlot.rxDone, Handshake.next,
          Option.map_some,
          Option.elim_some, handshake]
        cases hrst : x.sysRst with
        | false => simp
        | true =>
            -- nothing is on its way to the software, so STATE stays 0 on both sides
            obtain rfl := hreset x hsys hrst
            have hdone : (s.sys i).doneSync.out = false := by
              rw [show (s.sys i).doneSync = _ from h.doneSync]
              exact Sampler.out_holding
            have hoff : (s.sys i).slotState = 0 := h.slotState
            simp [hdone, hoff]
  obtain ⟨esys, ephy⟩ := e
  simp only [handshake, next] at hstate ⊢
  rw [hstate]
  match esys, ephy with
  | none, none | none, some y | some x, none | some x, some y => rfl

end Mac

end Soc.Minimac2
