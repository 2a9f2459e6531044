import Mathlib.Tactic.SplitIfs
import Soc.Libnet.Frames
import Soc.Libnet.Service

/-!
# When the receive loop is safe to enter again

A callback that resolves an address which is not in the ARP cache makes
`microudp_arp_resolve` call `microudp_service` while `process_frame` still works on a slot.
That slot reads PENDING, so its frame is processed a second time, and the slot is handed back
to the receiver below the feet of the first activation. As long as the cache answers every
`microudp_arp_resolve` of a callback, a frame is processed once and its slot is released after
that.
-/

namespace Soc.Libnet

open Library (Machine)

namespace Driver

variable {d : Driver} {stack rest : List Activation} {owner : Option (SlotId)} {i : SlotId}

/-- The next statement writes LOADED to the slot's STATE register. -/
def Releases (d : Driver) (i : SlotId) : Prop := d.stack.head? = some (.service (.release i))

instance (d : Driver) (i : SlotId) : Decidable (d.Releases i) :=
  inferInstanceAs (Decidable (_ = _))

/-- No frame has been passed to `process_frame` twice, and a slot whose STATE register is about to
be written LOADED is not being worked on and holds no frame that waits for `process_frame`. -/
def Safe (d : Driver) : Prop :=
  (∀ i, (d.slots i).passed ≤ 1) ∧
    ∀ i, d.Releases i →
      Activation.process i ∉ d.stack ∧ (d.Pending i → 0 < (d.slots i).passed)

/-- The stacks on which no slot is being handled: the main program, or its call of
`microudp_arp_resolve`. -/
inductive Resting : List Activation → Prop where
  | main : Resting []
  | resolving {ip : Word} {pc : ResolvePc} : Resting [.resolve ip pc]

/-- The stacks of a driver that is never entered from within `process_frame`, with what each of them
knows about the slots. The slot named is the one whose frame has been passed to `process_frame`
and which has not been released. -/
inductive Shape (d : Driver) : List Activation → Option (SlotId) → Prop where
  | resting {rest : List Activation} : Resting rest → Shape d rest none
  | polling {rest : List Activation} : Resting rest → Shape d (.service .irq :: rest) none
  | testing {rest : List Activation} {i : SlotId} :
      Resting rest → Shape d (.service (.test i) :: rest) none
  | loading {rest : List Activation} {i : SlotId} :
      Resting rest → d.Pending i → Shape d (.service (.load i) :: rest) none
  | entering {rest : List Activation} {i : SlotId} :
      Resting rest → d.Pending i → d.rxbuffer = i → Shape d (.service (.process i) :: rest) none
  | releasing {rest : List Activation} {i : SlotId} :
      Resting rest → Shape d (.service (.release i) :: rest) (some i)
  | acking {rest : List Activation} : Resting rest → Shape d (.service .ack :: rest) none
  | processing {rest : List Activation} {i : SlotId} :
      Resting rest → Shape d (.process i :: .service (.release i) :: rest) (some i)
  | calling {rest : List Activation} {i : SlotId} :
      Resting rest → Shape d (.callback :: .process i :: .service (.release i) :: rest) (some i)
  | resolving {rest : List Activation} {i : SlotId} {ip : Word} :
      Resting rest → d.Cached ip →
        Shape d (.resolve ip .start :: .callback :: .process i :: .service (.release i) :: rest)
          (some i)

/-- The frame of a PENDING slot has been passed to `process_frame` once if the slot is the one being
handled, and not at all otherwise. -/
structure Owned (d : Driver) (owner : Option (SlotId)) : Prop where
  pending : ∀ i, d.Pending i → (d.slots i).passed = if owner = some i then 1 else 0
  held : ∀ i, owner = some i → d.Pending i
  once : ∀ i, (d.slots i).passed ≤ 1

/-- The invariant of runs without a nested `microudp_service`. -/
def Orderly (d : Driver) : Prop := ∃ owner, d.Shape d.stack owner ∧ d.Owned owner

/-- A shape only speaks about `rxbuffer`, the cache and the slots that are PENDING. -/
theorem Shape.of_le {d' : Driver} (h : d.Shape stack owner) (hbuffer : d'.rxbuffer = d.rxbuffer)
    (hcached : ∀ ip, d.Cached ip → d'.Cached ip) (hpending : ∀ i, d.Pending i → d'.Pending i) :
    d'.Shape stack owner := by
  cases h with
  | resting hrest => exact .resting hrest
  | polling hrest => exact .polling hrest
  | testing hrest => exact .testing hrest
  | loading hrest hp => exact .loading hrest (hpending _ hp)
  | entering hrest hp hb => exact .entering hrest (hpending _ hp) (hbuffer.trans hb)
  | releasing hrest => exact .releasing hrest
  | acking hrest => exact .acking hrest
  | processing hrest => exact .processing hrest
  | calling hrest => exact .calling hrest
  | resolving hrest hc => exact .resolving hrest (hcached _ hc)

/-- Ownership only speaks about the slots. -/
theorem Owned.of_slots {d' : Driver} (h : d.Owned owner) (hslots : d'.slots = d.slots) :
    d'.Owned owner := by
  constructor
  · intro i hi
    rw [Pending, hslots] at hi
    rw [hslots]
    exact h.pending i hi
  · intro i hi
    rw [Pending, hslots]
    exact h.held i hi
  · intro i
    rw [hslots]
    exact h.once i

/-- An orderly driver is safe. -/
theorem Orderly.safe (h : d.Orderly) : d.Safe := by
  obtain ⟨owner, hshape, howned⟩ := h
  refine ⟨howned.once, fun i hreleases => ?_⟩
  rw [Releases] at hreleases
  generalize d.stack = stack at hshape hreleases
  cases hshape with
  | releasing hrest =>
      cases hreleases
      constructor
      · cases hrest <;> simp
      · intro hpending
        rw [howned.pending i hpending, if_pos rfl]
        exact Nat.one_pos
  | resting hrest => cases hrest <;> cases hreleases
  | _ => cases hreleases

section Slots

variable {d' : Driver} {owner' : Option (SlotId)} {slot : RxSlot}

@[simp] theorem slots_setSlot_self (d : Driver) (i : SlotId) (slot : RxSlot) :
    (d.setSlot i slot).slots i = slot :=
  Function.update_self ..

theorem slots_setSlot_of_ne (d : Driver) {i j : SlotId} (slot : RxSlot) (h : j ≠ i) :
    (d.setSlot i slot).slots j = d.slots j :=
  Function.update_of_ne h ..

/-- A slot is changed, and may become or cease to be the one that is handled. -/
theorem Owned.setSlot (h : d.Owned owner) (hslots : d'.slots = (d.setSlot i slot).slots)
    (hpending : slot.state = .pending → slot.passed = if owner' = some i then 1 else 0)
    (hheld : owner' = some i → slot.state = .pending) (honce : slot.passed ≤ 1)
    (hother : ∀ j, j ≠ i → (owner' = some j ↔ owner = some j)) : d'.Owned owner' := by
  constructor
  · intro j hj
    by_cases hji : j = i
    · rw [Pending, hji, hslots, slots_setSlot_self] at hj
      rw [hji, hslots, slots_setSlot_self, hpending hj]
    · rw [Pending, hslots, slots_setSlot_of_ne d slot hji] at hj
      rw [hslots, slots_setSlot_of_ne d slot hji, h.pending j hj]
      simp only [hother j hji]
  · intro j hj
    by_cases hji : j = i
    · rw [Pending, hji, hslots, slots_setSlot_self, hheld (hji ▸ hj)]
    · rw [Pending, hslots, slots_setSlot_of_ne d slot hji]
      exact h.held j ((hother j hji).1 hj)
  · intro j
    by_cases hji : j = i
    · rw [hji, hslots, slots_setSlot_self]
      exact honce
    · rw [hslots, slots_setSlot_of_ne d slot hji]
      exact h.once j

/-- A frame arrives in a LOADED slot. -/
theorem Owned.arrive (h : d.Owned owner) (hloaded : (d.slots i).state = .loaded)
    (hslots : d'.slots = (d.setSlot i slot).slots) (hstate : slot.state = .pending)
    (hpassed : slot.passed = 0) : d'.Owned owner := by
  have hnot : owner ≠ some i := by
    intro howner
    have hpending := h.held i howner
    rw [Pending, hloaded] at hpending
    cases hpending
  refine h.setSlot hslots (fun _ => ?_) (fun _ => hstate) ?_ fun _ _ => Iff.rfl
  · rw [hpassed, if_neg hnot]
  · rw [hpassed]
    exact Nat.zero_le 1

/-- `process_frame` is entered on a PENDING slot. -/
theorem Owned.enter (h : d.Owned none) (hpending : d.Pending i)
    (hslots : d'.slots = (d.setSlot i slot).slots) (hstate : slot.state = .pending)
    (hpassed : slot.passed = (d.slots i).passed + 1) : d'.Owned (some i) := by
  have hzero : (d.slots i).passed = 0 := (h.pending i hpending).trans (if_neg nofun)
  have hone : slot.passed = 1 := by rw [hpassed, hzero]
  refine h.setSlot hslots (fun _ => ?_) (fun _ => hstate) (Nat.le_of_eq hone) fun j hji => ?_
  · rw [hone, if_pos rfl]
  · exact iff_of_false (fun heq => hji (Option.some.inj heq).symm) nofun

/-- The slot is released. -/
theorem Owned.release (h : d.Owned (some i)) (hslots : d'.slots = (d.setSlot i slot).slots)
    (hstate : slot.state = .loaded) (hpassed : slot.passed = (d.slots i).passed) :
    d'.Owned none := by
  refine h.setSlot hslots (fun hpending => ?_) nofun ?_ fun j hji => ?_
  · rw [hstate] at hpending
    cases hpending
  · rw [hpassed]
    exact h.once i
  · exact iff_of_false nofun fun heq => hji (Option.some.inj heq).symm

end Slots

/-- A statement of the main program's `microudp_arp_resolve`. -/
theorem Owned.stepResolve (h : d.Owned none) (ip : Word) (pc : ResolvePc) :
    (d.stepResolve ip [] pc).Orderly := by
  cases pc with
  | start =>
      by_cases hcached : d.Cached ip
      · rw [Driver.stepResolve, if_pos hcached]
        exact ⟨none, .resting .main, h.of_slots rfl⟩
      · rw [Driver.stepResolve, if_neg hcached]
        exact ⟨none, .resting .resolving, h.of_slots rfl⟩
  | request tries => exact ⟨none, .resting .resolving, h.of_slots rfl⟩
  | wait tries timeout => exact ⟨none, .polling .resolving, h.of_slots rfl⟩
  | check tries timeout =>
      rw [Driver.stepResolve]
      split_ifs
      · exact ⟨none, .resting .main, h.of_slots rfl⟩
      · exact ⟨none, .resting .resolving, h.of_slots rfl⟩
      · exact ⟨none, .resting .resolving, h.of_slots rfl⟩
      · exact ⟨none, .resting .main, h.of_slots rfl⟩

/-- The call of `process_frame`, whatever the frame leads to. -/
theorem Owned.enterProcessFrame (h : d.Owned none) (hpending : d.Pending i)
    (hbuffer : d.rxbuffer = i) (hrest : Resting rest)
    (hstack : d.stack = .service (.release i) :: rest) : d.enterProcessFrame.Orderly := by
  rw [Driver.enterProcessFrame, hbuffer]
  have howned : ∀ d' : Driver,
      d'.slots = (d.setSlot i { d.slots i with passed := (d.slots i).passed + 1 }).slots →
        d'.Owned (some i) :=
    fun d' hslots => h.enter hpending hslots hpending rfl
  have hshape : ∀ d' : Driver, d'.stack = .process i :: d.stack → d'.Shape d'.stack (some i) := by
    intro d' hd'
    rw [hd', hstack]
    exact .processing hrest
  split
  · exact ⟨some i, hshape _ rfl, howned _ rfl⟩
  · exact ⟨some i, hshape _ rfl, howned _ rfl⟩
  · exact ⟨some i, hshape _ rfl, howned _ rfl⟩
  · refine ⟨some i, ?_, howned _ rfl⟩
    show Shape _ (.callback :: .process i :: d.stack) _
    rw [hstack]
    exact .calling hrest

/-- The statement after the block of a slot. -/
theorem Orderly.after {d' : Driver} (hrest : Resting rest) (h : d'.Owned none)
    (hstack : d'.stack = .service (.after i) :: rest) : d'.Orderly := by
  refine ⟨none, ?_, h⟩
  rw [hstack]
  match i with
  | .slot0 => exact .testing hrest
  | .slot1 => exact .acking hrest

/-- A statement of the driver. -/
theorem Orderly.step (h : d.Orderly) : d.step.Orderly := by
  obtain ⟨owner, hshape, howned⟩ := h
  generalize hstack : d.stack = stack at hshape
  rw [Driver.step, hstack]
  cases hshape with
  | resting hrest =>
      cases hrest with
      | main =>
          refine ⟨none, ?_, howned⟩
          show d.Shape d.stack none
          rw [hstack]
          exact .resting .main
      | resolving => exact howned.stepResolve _ _
  | polling hrest =>
      show (if d.ip then _ else _ : Driver).Orderly
      split_ifs
      · exact ⟨none, .testing hrest, howned.of_slots rfl⟩
      · exact ⟨none, .resting hrest, howned.of_slots rfl⟩
  | @testing rest i hrest =>
      show (if d.Pending i then _ else _ : Driver).Orderly
      split_ifs with hpending
      · exact ⟨none, .loading hrest hpending, howned.of_slots rfl⟩
      · exact Orderly.after hrest (howned.of_slots rfl) rfl
  | loading hrest hpending =>
      exact ⟨none, .entering hrest hpending rfl, howned.of_slots rfl⟩
  | entering hrest hpending hbuffer =>
      show (Driver.enterProcessFrame { d with stack := .service (.release _) :: _ }).Orderly
      exact Owned.enterProcessFrame (howned.of_slots rfl) hpending hbuffer hrest rfl
  | releasing hrest => exact Orderly.after hrest (howned.release rfl rfl rfl) rfl
  | acking hrest => exact ⟨none, .resting hrest, howned.of_slots rfl⟩
  | processing hrest => exact ⟨_, .releasing hrest, howned.of_slots rfl⟩
  | calling hrest =>
      refine ⟨_, ?_, howned⟩
      show d.Shape d.stack _
      rw [hstack]
      exact .calling hrest
  | resolving hrest hcached =>
      show (if d.Cached _ then _ else _ : Driver).Orderly
      rw [if_pos hcached]
      exact ⟨_, .calling hrest, howned.of_slots rfl⟩

/-- The main program runs only while no slot is being handled. -/
theorem Orderly.inMain (h : d.Orderly) (hmain : d.InMain) : d.Owned none := by
  obtain ⟨owner, hshape, howned⟩ := h
  rw [show d.stack = [] from hmain] at hshape
  cases hshape with
  | resting _ => exact howned

/-- What is below `rx_callback`. -/
theorem Orderly.inCallback (h : d.Orderly) (hcallback : d.InCallback) :
    ∃ i rest, Resting rest ∧
      d.stack = .callback :: .process i :: .service (.release i) :: rest ∧ d.Owned (some i) := by
  obtain ⟨owner, hshape, howned⟩ := h
  rw [InCallback] at hcallback
  generalize d.stack = stack at hshape hcallback
  cases hshape with
  | calling hrest => exact ⟨_, _, hrest, rfl, howned⟩
  | resting hrest => cases hrest <;> cases hcallback
  | _ => cases hcallback

/-- The ARP cache answers every `microudp_arp_resolve` of `rx_callback`. -/
def CacheAnswers (d : Driver) : Event → Prop
  | .call (.arpResolve ip) => d.InCallback → d.Cached ip
  | _ => True

instance (d : Driver) : ∀ event : Event, Decidable (d.CacheAnswers event)
  | .call (.arpResolve _) => inferInstanceAs (Decidable (_ → _))
  | .call .service => isTrue trivial
  | .call .send => isTrue trivial
  | .call (.setCallback _) => isTrue trivial
  | .statement => isTrue trivial
  | .callbackReturn => isTrue trivial
  | .arrive _ _ _ => isTrue trivial

/-- A call of a client. -/
theorem Orderly.call (h : d.Orderly) {c : Call} (hallowed : d.Allowed (.call c))
    (hanswers : d.CacheAnswers (.call c)) : (d.call c).Orderly := by
  cases c with
  | service =>
      have howned := h.inMain hallowed
      refine ⟨none, ?_, howned.of_slots rfl⟩
      show Shape _ (.service .irq :: d.stack) none
      rw [show d.stack = [] from hallowed]
      exact .polling .main
  | arpResolve ip =>
      obtain hmain | hcallback := hallowed
      · refine ⟨none, ?_, (h.inMain hmain).of_slots rfl⟩
        show Shape _ (.resolve ip .start :: d.stack) none
        rw [show d.stack = [] from hmain]
        exact .resting .resolving
      · -- the cache answers, so this activation returns before it calls `microudp_service`
        obtain ⟨i, rest, hrest, hstack, howned⟩ := h.inCallback hcallback
        refine ⟨some i, ?_, howned.of_slots rfl⟩
        show Shape _ (.resolve ip .start :: d.stack) _
        rw [hstack]
        exact .resolving hrest (hanswers hcallback)
  | send => exact h
  | setCallback set =>
      obtain ⟨owner, hshape, howned⟩ := h
      exact ⟨owner, hshape.of_le rfl (fun _ => id) fun _ => id, howned.of_slots rfl⟩

/-- `rx_callback` returns to `process_frame`. -/
theorem Orderly.callbackReturn (h : d.Orderly) (hcallback : d.InCallback) :
    (d.next .callbackReturn).Orderly := by
  obtain ⟨i, rest, hrest, hstack, howned⟩ := h.inCallback hcallback
  refine ⟨some i, ?_, howned.of_slots rfl⟩
  show Shape _ d.stack.tail _
  rw [hstack]
  exact .processing hrest

/-- A frame arrives, whatever the driver is doing. -/
theorem Orderly.arrive (h : d.Orderly) (hloaded : (d.slots i).state = .loaded)
    (count : BitVec 11) (raw : Slot) : (d.next (.arrive i count raw)).Orderly := by
  obtain ⟨owner, hshape, howned⟩ := h
  -- the slot was LOADED, so the slots that read PENDING are others, and stay as they are
  refine ⟨owner, hshape.of_le rfl (fun _ => id) fun j hj => ?_,
    howned.arrive hloaded rfl rfl rfl⟩
  have hji : j ≠ i := by
    rintro rfl
    rw [Pending, hloaded] at hj
    cases hj
  show ((d.setSlot i _).slots j).state = .pending
  rw [slots_setSlot_of_ne d _ hji]
  exact hj

/-- Every event keeps an orderly driver orderly, as long as the cache answers. -/
theorem Orderly.next (h : d.Orderly) {event : Event} (hallowed : d.Allowed event)
    (hanswers : d.CacheAnswers event) : (d.next event).Orderly := by
  cases event with
  | statement => exact h.step
  | call c => exact h.call hallowed hanswers
  | callbackReturn => exact h.callbackReturn hallowed
  | arrive i count raw => exact h.arrive hallowed count raw

/-- The driver is orderly after `microudp_start`. -/
theorem Initial.orderly (h : d.Initial) : d.Orderly := by
  obtain ⟨hstack, -, -, -, hslots⟩ := h
  have hidle : ∀ i, ¬ d.Pending i := by
    intro i hpending
    rw [Pending, (hslots i).1] at hpending
    cases hpending
  refine ⟨none, hstack ▸ .resting .main, fun i hi => absurd hi (hidle i), nofun, fun i => ?_⟩
  rw [(hslots i).2]
  exact Nat.zero_le 1

end Driver

open Driver (CacheAnswers)

/-- In every run in which the ARP cache answers each `microudp_arp_resolve` of `rx_callback`, no
frame is passed to `process_frame` twice, and no slot is released while it is worked on or while
its frame waits. -/
theorem receive_safe {d : Driver} (h : (driver.restrict CacheAnswers).Reachable d) : d.Safe := by
  have hinvariant : d.Orderly := by
    refine Machine.invariant (fun d hinit => ?_) (fun d event horderly hstep => ?_) h
    · exact Driver.Initial.orderly hinit
    · exact horderly.next hstep.1 hstep.2
  exact hinvariant.safe

/-- A driver after `microudp_start`, at the address of `node`. -/
def started : Driver where
  myIp := node.myIp
  cachedIp := 0
  cachedMac := List.replicate 6 0
  rxCallback := false
  rxlen := 0
  rxbuffer := .slot0
  stack := []
  slots := fun _ => ⟨.loaded, 0, leftover, 0⟩
  ip := false

/-- A datagram for the callback arrives and is processed. -/
def delivery : List Event :=
  [.call (.setCallback true), .arrive .slot0 72 honest, .call .service, .statement, .statement,
    .statement, .statement]

/-- A callback that only sends. -/
theorem receive_safe_run :
    (driver.run started (delivery ++ [.call .send, .callbackReturn, .statement])).Safe := by
  refine receive_safe (Machine.Reachable.run ?_ (by decide +kernel))
  exact .initial (M := driver.restrict CacheAnswers)
    ⟨rfl, rfl, rfl, rfl, fun _ => ⟨rfl, rfl⟩⟩

/-- A callback that resolves the broadcast address, as the one of the DHCP client does, up to the
statement at which the nested `microudp_service` releases the slot. -/
def nested : List Event :=
  delivery ++ [.call (.arpResolve 0xffffffff), .statement, .statement, .statement, .statement,
    .statement, .statement, .statement, .callbackReturn, .statement]

/-- The frame has been passed to `process_frame` twice, and its slot is about to be released while
the first `process_frame` still works on it. -/
theorem nested_service_unsafe :
    driver.Reachable (driver.run started nested) ∧
      ((driver.run started nested).slots .slot0).passed = 2 ∧
      (driver.run started nested).Releases .slot0 ∧
      Activation.process .slot0 ∈ (driver.run started nested).stack ∧
      ¬ (driver.run started nested).Safe := by
  have hpassed : ((driver.run started nested).slots .slot0).passed = 2 := by decide +kernel
  refine ⟨?_, hpassed, by decide +kernel, by decide +kernel, fun hsafe => ?_⟩
  · refine Machine.Reachable.run (.initial (M := driver) ?_) (by decide +kernel)
    exact ⟨rfl, rfl, rfl, rfl, fun _ => ⟨rfl, rfl⟩⟩
  · have honce := hsafe.1 .slot0
    omega

end Soc.Libnet
