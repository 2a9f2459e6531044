import Soc.Library.Execution
import Soc.Libnet.Reentry
import Soc.Libnet.RoundTrip

/-!
# Whose MAC address is in the cache

The ARP cache of microudp has one entry, in `cached_ip` and `cached_mac`, and the two change at
different places. This module adds `microudp_start` and `microudp_send` to the machine of the
receive loop, for callbacks that do not call microudp. A MAC address that is not zero comes from an
ARP reply of the host at `cached_ip`, processed since `cached_ip` changed last, so datagrams go to
that host only (`only_owner`).
-/

namespace Soc.Libnet

open Libbase (crc32)
open Library (Machine Traced)

/-- A CRC-valid ARP reply that says which MAC address an IP address has. -/
structure IsReply (raw : Slot) (rxlen : Int) (ip : Word) (mac : List Byte) : Prop where
  preamble : PreambleValid raw
  crc : raw (rxlen - 1) ++ raw (rxlen - 2) ++ raw (rxlen - 3) ++ raw (rxlen - 4) =
    (crc32 raw 8 (.ofInt 32 (rxlen - 12))).value
  ethertype : raw.half 20 = ETHERTYPE_ARP
  length : 68 ≤ rxlen - 4
  hwtype : raw.half 22 = ARP_HWTYPE_ETHERNET
  proto : raw.half 24 = ARP_PROTO_IP
  hwsize : raw 26 = 6
  protosize : raw 27 = 4
  opcode : raw.half 28 = ARP_OPCODE_REPLY
  senderIp : raw.word 36 = ip
  senderMac : raw.Holds 30 mac
  macLength : mac.length = 6

/-- The loops that copy bytes. -/
theorem readBytes_holds (raw : Slot) (offset : Int) (n : Nat) :
    (readBytes raw offset n).value.length = n ∧
      raw.Holds offset (readBytes raw offset n).value := by
  induction n generalizing offset with
  | zero => exact ⟨rfl, fun k hk => absurd hk (Nat.not_lt_zero k)⟩
  | succ n ih =>
      obtain ⟨hlength, hholds⟩ := ih (offset + 1)
      have hvalue : (readBytes raw offset (n + 1)).value =
          raw offset :: (readBytes raw (offset + 1) n).value := rfl
      rw [hvalue]
      refine ⟨congrArg Nat.succ hlength, fun k hk => ?_⟩
      cases k with
      | zero => rw [Int.natCast_zero, Int.add_zero, List.getElem_cons_zero]
      | succ k =>
          rw [List.getElem_cons_succ, ← hholds k (Nat.lt_of_succ_lt_succ hk)]
          congr 1
          omega

section Frame

variable {g : Globals} {raw : Slot} {rxlen : Int} {mac : List Byte}

/-- `process_ip` does not touch the cache. -/
theorem processIp_ne_cacheMac : (processIp g raw rxlen).value ≠ .cacheMac mac := by
  intro h
  obtain ⟨-, h⟩ := of_guard h nofun
  obtain ⟨-, h⟩ := of_guard h nofun
  obtain ⟨-, h⟩ := of_guard h nofun
  obtain ⟨-, h⟩ := of_guard h nofun
  obtain ⟨-, h⟩ := of_guard h nofun
  obtain ⟨-, h⟩ := of_guard h nofun
  split at h <;> cases h

/-- What `process_arp` puts in the cache comes from a reply of the host at `cached_ip`. -/
theorem processFrame_cacheMac (h : (processFrame g raw rxlen).value = .cacheMac mac) :
    IsReply raw rxlen g.cachedIp mac := by
  obtain ⟨hpreamble, h⟩ := of_guard h nofun
  obtain ⟨hcrc, h⟩ := of_guard h nofun
  rw [Traced.value_bind] at h
  split at h
  case isFalse =>
      rw [Traced.value_bind] at h
      split at h
      · exact absurd h processIp_ne_cacheMac
      · cases h
  case isTrue hethertype =>
      obtain ⟨hlength, h⟩ := of_guard h nofun
      obtain ⟨hhwtype, h⟩ := of_guard h nofun
      obtain ⟨hproto, h⟩ := of_guard h nofun
      obtain ⟨hhwsize, h⟩ := of_guard h nofun
      obtain ⟨hprotosize, h⟩ := of_guard h nofun
      rw [Traced.value_bind] at h
      split at h
      case isTrue hopcode =>
          rw [Traced.value_bind] at h
          split at h
          case isTrue hsender =>
              have hmac : (readBytes raw 30 6).value = mac := Action.cacheMac.inj h
              obtain ⟨hmacLength, hholds⟩ := readBytes_holds raw 30 6
              rw [hmac] at hmacLength hholds
              exact ⟨preamble_value.1 (by simpa using hpreamble), Decidable.not_not.1 hcrc,
                hethertype, Int.not_lt.1 hlength, Decidable.not_not.1 hhwtype,
                Decidable.not_not.1 hproto, Decidable.not_not.1 hhwsize,
                Decidable.not_not.1 hprotosize, hopcode, hsender, hholds, hmacLength⟩
          case isFalse => cases h
      case isFalse =>
          rw [Traced.value_bind] at h
          split at h
          · rw [Traced.value_bind] at h
            split at h <;> cases h
          · cases h

end Frame

/-- The driver with the MAC address of its interface. -/
structure Station where
  driver : Driver
  myMac : List Byte

/-- What happens next: a call of `microudp_start` or `microudp_send`, the latter with the buffer
that holds the payload, or an event of the receive loop. -/
inductive Station.Event where
  | start (macaddr : Fin 6 → Byte) (ip : Word)
  | send (srcPort dstPort : BitVec 16) (length : Nat) (txbuffer : Slot)
  | receive (event : Libnet.Event)

namespace Driver

variable {d d' : Driver} {rest : List Activation} {ip : Word} {i : SlotId}

/-- `process_frame` is called next, for the frame in a slot that reads PENDING. -/
def Processes (d : Driver) (raw : Slot) (rxlen : Int) : Prop :=
  ∃ i rest, d.stack = .service (.process i) :: rest ∧ d.Pending i ∧ (d.slots i).raw = raw ∧
    ((d.slots i).count.toNat : Int) = rxlen

/-- What `microudp_arp_resolve` returns with the next statement, and for which address. -/
def resolveReturns (d : Driver) : Option (Word × Bool) :=
  match d.stack with
  | .resolve ip .start :: _ => if d.Cached ip then some (ip, true) else none
  | .resolve ip (.check tries timeout) :: _ =>
      if d.MacKnown then some (ip, true)
      else if timeout + 1 < 2000000 ∨ tries + 1 < 5 then none
      else some (ip, false)
  | _ => none

/-- The activations below another one. -/
inductive Below (cachedIp : Word) : List Activation → Prop where
  | main : Below cachedIp []
  | resolving {ip : Word} {pc : ResolvePc} (h : cachedIp = ip) : Below cachedIp [.resolve ip pc]
  | releasing {rest : List Activation} {i : SlotId} (hrest : Below cachedIp rest) :
      Below cachedIp (.service (.release i) :: rest)
  | processing {rest : List Activation} {i : SlotId} (hrest : Below cachedIp rest) :
      Below cachedIp (.process i :: rest)

/-- The stacks of a driver whose callback does not call it, with what they know about the cache and
the slots. -/
inductive Stacked (d : Driver) : List Activation → Prop where
  | main : Stacked d []
  | starting {ip : Word} : Stacked d [.resolve ip .start]
  | resolving {ip : Word} {pc : ResolvePc} (h : d.cachedIp = ip) : Stacked d [.resolve ip pc]
  | service {pc : ServicePc} {rest : List Activation} (hrest : Below d.cachedIp rest)
      (hload : ∀ i, pc = .load i → d.Pending i)
      (hprocess : ∀ i, pc = .process i →
        d.Pending i ∧ d.rxbuffer = i ∧ d.rxlen = (d.slots i).count.toNat) :
      Stacked d (.service pc :: rest)
  | processing {rest : List Activation} {i : SlotId} (hrest : Below d.cachedIp rest) :
      Stacked d (.process i :: rest)
  | calling {rest : List Activation} (hrest : Below d.cachedIp rest) : Stacked d (.callback :: rest)

/-- What is below an activation is on top after it. -/
theorem Below.stacked (h : Below d.cachedIp rest) : d.Stacked rest := by
  cases h with
  | main => exact .main
  | resolving h => exact .resolving h
  | releasing hrest => exact .service hrest nofun nofun
  | processing hrest => exact .processing hrest

/-- The statements of `microudp_service` between the blocks. -/
theorem Stacked.after (hrest : Below d.cachedIp rest) :
    d.Stacked (.service (.after i) :: rest) := by
  cases i with
  | slot0 => exact .service hrest nofun nofun
  | slot1 => exact .service hrest nofun nofun

/-- What a step does to the cache: nothing, it is cleared, or it learns the MAC address of the host
at `cached_ip`. -/
inductive CacheStep (d : Driver) (event : Station.Event) (d' : Driver) : Prop where
  | kept (hip : d'.cachedIp = d.cachedIp) (hmac : d'.cachedMac = d.cachedMac)
  | cleared (hmac : d'.cachedMac = List.replicate 6 0)
  | learnt {raw : Slot} {rxlen : Int} (hevent : event = .receive .statement)
      (hprocesses : d.Processes raw rxlen) (hip : d'.cachedIp = d.cachedIp)
      (hreply : IsReply raw rxlen d.cachedIp d'.cachedMac)

/-- The call of `process_frame`. -/
theorem Stacked.enterProcessFrame (hrest : Below d.cachedIp rest) (hpending : d.Pending i)
    (hbuffer : d.rxbuffer = i) (hrxlen : d.rxlen = (d.slots i).count.toNat)
    (hstack : d.stack = .service (.process i) :: rest)
    (hd' : d' = ({ d with stack := .service (.release i) :: rest } : Driver).enterProcessFrame) :
    d'.Stacked d'.stack ∧ d.CacheStep (.receive .statement) d' := by
  rw [Driver.enterProcessFrame] at hd'
  subst hbuffer
  dsimp only at hd'
  split at hd'
  · subst hd'
    exact ⟨.processing (.releasing hrest), .kept rfl rfl⟩
  case h_2 mac hmac =>
      subst hd'
      refine ⟨.processing (.releasing hrest), ?_⟩
      exact .learnt rfl ⟨_, rest, hstack, hpending, rfl, hrxlen.symm⟩ rfl
        (processFrame_cacheMac hmac)
  · subst hd'
    exact ⟨.processing (.releasing hrest), .kept rfl rfl⟩
  · subst hd'
    exact ⟨.calling (.processing (.releasing hrest)), .kept rfl rfl⟩

/-- A statement of `microudp_service`. -/
theorem Stacked.stepService {pc : ServicePc} (hrest : Below d.cachedIp rest)
    (hload : ∀ i, pc = .load i → d.Pending i)
    (hprocess : ∀ i, pc = .process i →
      d.Pending i ∧ d.rxbuffer = i ∧ d.rxlen = (d.slots i).count.toNat)
    (hstack : d.stack = .service pc :: rest) (hd' : d' = d.stepService rest pc) :
    d'.Stacked d'.stack ∧ d.CacheStep (.receive .statement) d' := by
  cases pc with
  | irq =>
      rw [Driver.stepService] at hd'
      split at hd'
      · subst hd'
        exact ⟨.service hrest nofun nofun, .kept rfl rfl⟩
      · subst hd'
        exact ⟨Below.stacked hrest, .kept rfl rfl⟩
  | test i =>
      rw [Driver.stepService] at hd'
      split at hd'
      · subst hd'
        refine ⟨.service hrest (fun j hj => ?_) nofun, .kept rfl rfl⟩
        cases hj
        assumption
      · subst hd'
        exact ⟨Stacked.after hrest, .kept rfl rfl⟩
  | load i =>
      subst hd'
      refine ⟨.service hrest nofun fun j hj => ?_, .kept rfl rfl⟩
      cases hj
      exact ⟨hload i rfl, rfl, rfl⟩
  | process i =>
      obtain ⟨hpending, hbuffer, hrxlen⟩ := hprocess i rfl
      exact Stacked.enterProcessFrame hrest hpending hbuffer hrxlen hstack hd'
  | release i =>
      subst hd'
      exact ⟨Stacked.after hrest, .kept rfl rfl⟩
  | ack =>
      subst hd'
      exact ⟨Below.stacked hrest, .kept rfl rfl⟩

/-- A statement of the main program's `microudp_arp_resolve`. -/
theorem Stacked.stepResolve {pc : ResolvePc} (h : pc ≠ .start → d.cachedIp = ip)
    (hd' : d' = d.stepResolve ip [] pc) :
    d'.Stacked d'.stack ∧ d.CacheStep (.receive .statement) d' := by
  cases pc with
  | start =>
      rw [Driver.stepResolve] at hd'
      split at hd'
      · subst hd'
        exact ⟨.main, .kept rfl rfl⟩
      · subst hd'
        exact ⟨.resolving rfl, .cleared rfl⟩
  | request tries =>
      subst hd'
      exact ⟨.resolving (h (by simp)), .kept rfl rfl⟩
  | wait tries timeout =>
      subst hd'
      exact ⟨.service (.resolving (h (by simp))) (by simp) (by simp), .kept rfl rfl⟩
  | check tries timeout =>
      have hip := h (by simp)
      rw [Driver.stepResolve] at hd'
      split_ifs at hd'
      · subst hd'
        exact ⟨.main, .kept rfl rfl⟩
      · subst hd'
        exact ⟨.resolving hip, .kept rfl rfl⟩
      · subst hd'
        exact ⟨.resolving hip, .kept rfl rfl⟩
      · subst hd'
        exact ⟨.main, .kept rfl rfl⟩

/-- A statement of the driver. -/
theorem Stacked.step (h : d.Stacked d.stack) (hmain : ¬ d.InMain) (hcallback : ¬ d.InCallback) :
    d.step.Stacked d.step.stack ∧ d.CacheStep (.receive .statement) d.step := by
  generalize hstack : d.stack = stack at h
  generalize hd' : d.step = d'
  rw [Driver.step, hstack] at hd'
  cases h with
  | main => exact absurd hstack hmain
  | starting => exact Stacked.stepResolve (fun hne => absurd rfl hne) hd'.symm
  | resolving hip => exact Stacked.stepResolve (fun _ => hip) hd'.symm
  | service hrest hload hprocess =>
      exact Stacked.stepService hrest hload hprocess hstack hd'.symm
  | processing hrest =>
      subst hd'
      exact ⟨Below.stacked hrest, .kept rfl rfl⟩
  | calling hrest =>
      rw [InCallback, hstack] at hcallback
      exact absurd rfl hcallback

/-- A frame arrives in a LOADED slot. -/
theorem Stacked.arrive (h : d.Stacked d.stack) (hloaded : (d.slots i).state = .loaded)
    (count : BitVec 11) (raw : Slot) :
    (d.next (.arrive i count raw)).Stacked (d.next (.arrive i count raw)).stack := by
  have hother : ∀ j, d.Pending j → (d.setSlot i ⟨.pending, count, raw, 0⟩).slots j = d.slots j := by
    intro j hj
    refine slots_setSlot_of_ne d _ ?_
    rintro rfl
    rw [Pending, hloaded] at hj
    cases hj
  show (d.next (.arrive i count raw)).Stacked d.stack
  generalize d.stack = stack at h
  cases h with
  | main => exact .main
  | starting => exact .starting
  | resolving hip => exact .resolving hip
  | service hrest hload hprocess =>
      refine .service hrest (fun j hj => ?_) fun j hj => ?_
      · have hpending := hload j hj
        exact (congrArg RxSlot.state (hother j hpending)).trans hpending
      · obtain ⟨hpending, hbuffer, hrxlen⟩ := hprocess j hj
        refine ⟨(congrArg RxSlot.state (hother j hpending)).trans hpending, hbuffer, ?_⟩
        have hcount := congrArg (fun slot => (slot.count.toNat : Int)) (hother j hpending)
        exact hrxlen.trans hcount.symm
  | processing hrest => exact .processing hrest
  | calling hrest => exact .calling hrest

end Driver

namespace Station

variable (n : Station)

/-- Before `microudp_start`, with the statics at zero and no slot LOADED. -/
def Initial : Prop :=
  n.driver.stack = [] ∧ n.driver.myIp = 0 ∧ n.driver.cachedIp = 0 ∧
    n.driver.cachedMac = List.replicate 6 0 ∧ n.driver.rxCallback = false ∧
    (∀ i, (n.driver.slots i).state = .empty) ∧ n.myMac = List.replicate 6 0

/-- The main program calls anything, and `rx_callback` nothing. -/
def Allowed : Event → Prop
  | .start _ _ => n.driver.InMain
  | .send _ _ _ _ => n.driver.InMain
  | .receive (.call _) => n.driver.InMain
  | .receive event => n.driver.Allowed event

/-- The station after an event. -/
def next : Event → Station
  | .start macaddr ip =>
      { driver :=
          { n.driver with
            myIp := ip
            cachedIp := 0
            cachedMac := List.replicate 6 0
            rxCallback := false
            slots := fun i => { n.driver.slots i with state := .loaded }
            ip := n.driver.irqRx }
        myMac := List.ofFn macaddr }
  | .send _ _ _ _ => n
  | .receive event => { n with driver := n.driver.next event }

/-- The frame that `microudp_send` sends. -/
def sends : Event → Option Outgoing
  | .send srcPort dstPort length txbuffer =>
      (microudpSend n.myMac n.driver.cachedMac n.driver.myIp n.driver.cachedIp srcPort dstPort
        length txbuffer).map sendPacket
  | _ => none

end Station

namespace Station

variable {n : Station} {event : Station.Event}

/-- The invariant of all runs. -/
structure Valid (n : Station) : Prop where
  stacked : n.driver.Stacked n.driver.stack
  cachedMac : n.driver.cachedMac.length = 6
  myMac : n.myMac.length = 6

/-- A step of the cache keeps the length of `cached_mac`. -/
theorem length_cachedMac {d d' : Driver} (h : d.CacheStep event d')
    (hlength : d.cachedMac.length = 6) : d'.cachedMac.length = 6 := by
  cases h with
  | kept _ hmac => rw [hmac, hlength]
  | cleared hmac => rw [hmac, List.length_replicate]
  | learnt _ _ _ hreply => exact hreply.macLength

/-- What an event does to the stack and the cache. -/
theorem next_cacheStep (h : n.Valid) (hallowed : n.Allowed event) :
    (n.next event).driver.Stacked (n.next event).driver.stack ∧
      n.driver.CacheStep event (n.next event).driver := by
  have hstacked := h.stacked
  cases event with
  | start macaddr ip =>
      refine ⟨?_, .cleared rfl⟩
      show Driver.Stacked _ n.driver.stack
      rw [show n.driver.stack = [] from hallowed]
      exact .main
  | send srcPort dstPort length txbuffer => exact ⟨hstacked, .kept rfl rfl⟩
  | receive event =>
      cases event with
      | statement => exact hstacked.step hallowed.1 hallowed.2
      | call c =>
          have hstack : n.driver.stack = [] := hallowed
          cases c with
          | service =>
              refine ⟨?_, .kept rfl rfl⟩
              show Driver.Stacked _ (.service .irq :: n.driver.stack)
              rw [hstack]
              exact .service .main nofun nofun
          | arpResolve ip =>
              refine ⟨?_, .kept rfl rfl⟩
              show Driver.Stacked _ (.resolve ip .start :: n.driver.stack)
              rw [hstack]
              exact .starting
          | send => exact ⟨hstacked, .kept rfl rfl⟩
          | setCallback set =>
              refine ⟨?_, .kept rfl rfl⟩
              show Driver.Stacked _ n.driver.stack
              rw [hstack]
              exact .main
      | callbackReturn =>
          refine ⟨?_, .kept rfl rfl⟩
          have hcallback : n.driver.stack.head? = some .callback := hallowed
          show Driver.Stacked _ n.driver.stack.tail
          generalize n.driver.stack = stack at hstacked hcallback
          cases hstacked with
          | calling hrest => exact Driver.Below.stacked hrest
          | _ => cases hcallback
      | arrive i count raw => exact ⟨hstacked.arrive hallowed count raw, .kept rfl rfl⟩

/-- Every event keeps the invariant. -/
theorem Valid.next (h : n.Valid) (hallowed : n.Allowed event) : (n.next event).Valid := by
  obtain ⟨hstacked, hcache⟩ := next_cacheStep h hallowed
  refine ⟨hstacked, length_cachedMac hcache h.cachedMac, ?_⟩
  cases event with
  | start macaddr ip => exact List.length_ofFn
  | send _ _ _ _ => exact h.myMac
  | receive _ => exact h.myMac

/-- The invariant holds before `microudp_start`. -/
theorem Initial.valid (h : n.Initial) : n.Valid := by
  obtain ⟨hstack, -, -, hcachedMac, -, -, hmyMac⟩ := h
  refine ⟨hstack ▸ .main, ?_, ?_⟩
  · rw [hcachedMac, List.length_replicate]
  · rw [hmyMac, List.length_replicate]

end Station

/-- A station with its clients and the receiver. -/
def station : Machine Station Station.Event where
  Initial := Station.Initial
  Allowed := Station.Allowed
  next := Station.next

section Runs

variable {e : station.Execution} {t : Nat} {ip : Word} {mac : List Byte}

/-- Before cycle `t`, `process_frame` was called on a reply that says that `ip` has the address
`mac`, and `cached_ip` has not changed since. -/
def LearntBefore (e : station.Execution) (t : Nat) (ip : Word) (mac : List Byte) : Prop :=
  ∃ u raw rxlen, u < t ∧ e.input u = .receive .statement ∧ (e.state u).driver.Processes raw rxlen ∧
    IsReply raw rxlen ip mac ∧ ∀ v, u ≤ v → v ≤ t → (e.state v).driver.cachedIp = ip

/-- What was learnt stays so while `cached_ip` does. -/
theorem LearntBefore.succ (h : LearntBefore e t ip mac)
    (hkept : (e.state (t + 1)).driver.cachedIp = ip) : LearntBefore e (t + 1) ip mac := by
  obtain ⟨u, raw, rxlen, hu, hevent, hprocesses, hreply, hsince⟩ := h
  refine ⟨u, raw, rxlen, Nat.lt_succ_of_lt hu, hevent, hprocesses, hreply, fun v hfrom hto => ?_⟩
  rcases Nat.lt_or_ge t v with hlast | hbefore
  · rw [show v = t + 1 by omega]
    exact hkept
  · exact hsince v hfrom hbefore

/-- All stations of a run are valid. -/
theorem valid_state (e : station.Execution) (t : Nat) : (e.state t).Valid :=
  e.invariant (fun _ => Station.Initial.valid) (fun _ _ h hallowed => h.next hallowed) t

/-- A MAC address in the cache was learnt. -/
theorem cached_learnt (e : station.Execution) (t : Nat) (hknown : (e.state t).driver.MacKnown) :
    LearntBefore e t (e.state t).driver.cachedIp (e.state t).driver.cachedMac := by
  have hunknown : ∀ d : Driver, d.cachedMac = List.replicate 6 0 → ¬ d.MacKnown := by
    rintro d hmac ⟨byte, hmem, hne⟩
    rw [hmac] at hmem
    exact hne (List.eq_of_mem_replicate hmem)
  induction t with
  | zero =>
      obtain ⟨-, -, -, hcachedMac, -⟩ := e.initial
      exact absurd hknown (hunknown _ hcachedMac)
  | succ t ih =>
      obtain ⟨-, hcache⟩ := Station.next_cacheStep (valid_state e t) (e.allowed t)
      rw [show (e.state t).next (e.input t) = e.state (t + 1) from (e.step t).symm] at hcache
      cases hcache with
      | kept hip hmac =>
          rw [Driver.MacKnown, hmac] at hknown
          rw [hip, hmac]
          exact (ih hknown).succ hip
      | cleared hmac => exact absurd hknown (hunknown _ hmac)
      | learnt hevent hprocesses hip hreply =>
          rw [hip]
          refine ⟨t, _, _, Nat.lt_succ_self t, hevent, hprocesses, hreply, fun v hfrom hto => ?_⟩
          obtain rfl | rfl : v = t ∨ v = t + 1 := by omega
          · rfl
          · exact hip

/-- While `microudp_arp_resolve` waits, it is for the address in the cache. -/
theorem resolving_cachedIp {d : Driver} {rest : List Activation} {pc : ResolvePc}
    (h : d.Stacked d.stack) (hstack : d.stack = .resolve ip pc :: rest) (hpc : pc ≠ .start) :
    d.cachedIp = ip := by
  rw [hstack] at h
  cases h with
  | starting => exact absurd rfl hpc
  | resolving hip => exact hip

/-- `microudp_arp_resolve` returns 1 when it finds a MAC address for its argument. -/
theorem resolveReturns_found {d : Driver} (h : d.Stacked d.stack)
    (hreturns : d.resolveReturns = some (ip, true)) : d.cachedIp = ip ∧ d.MacKnown := by
  rw [Driver.resolveReturns] at hreturns
  split at hreturns
  · split at hreturns
    case isTrue hcached =>
        cases hreturns
        exact hcached
    case isFalse => cases hreturns
  · rename_i hstack
    split_ifs at hreturns with hknown
    · cases hreturns
      exact ⟨resolving_cachedIp h hstack nofun, hknown⟩
    · cases hreturns
  · cases hreturns

/-- The addresses in a frame that `microudp_send` sends. -/
theorem sends_addresses {n : Station} {event : Station.Event} {o : Outgoing} (h : n.Valid)
    (hsends : n.sends event = some o) :
    n.driver.MacKnown ∧ o.raw.Holds 8 n.driver.cachedMac ∧ o.raw.word 38 = n.driver.cachedIp := by
  cases event with
  | start macaddr ip => cases hsends
  | receive event => cases hsends
  | send srcPort dstPort length txbuffer =>
      let s : Send := ⟨n.myMac, n.driver.cachedMac, n.driver.myIp, n.driver.cachedIp, srcPort,
        dstPort, length⟩
      have hrun : (s.run txbuffer).map sendPacket = some o := hsends
      by_cases hknown : s.Known
      · rw [s.run_of_known txbuffer hknown, Option.map_some] at hrun
        cases hrun
        have hagree := (sendPacket_agrees (s.outgoing txbuffer)).symm
        have htxlen : ((s.outgoing txbuffer).txlen : Int) = s.txlen := rfl
        have hlong := s.length_add_le_txlen
        have hmacs : s.MacsValid := ⟨h.myMac, h.cachedMac⟩
        have hmac := (@Send.holds_ethernet s txbuffer hmacs).append.1.append.1.append.2
        have hlength : (n.driver.cachedMac.length : Int) = 6 := congrArg Nat.cast h.cachedMac
        have hdst := (@Send.holds_ip s txbuffer).2.2
        refine ⟨hknown, hmac.congr hagree (by decide) ?_, (hdst.congr hagree (by decide) ?_).word⟩
        · show (8 : Int) + n.driver.cachedMac.length ≤ _
          omega
        · rw [length_bytes32]
          omega
      · rw [s.run_of_unknown txbuffer hknown] at hrun
        cases hrun

/-- Datagrams go to the host that owns the address in the cache. -/
structure OnlyOwner (e : station.Execution) : Prop where
  /-- A MAC address that is not zero is the one that the host at `cached_ip` replied with. -/
  cached : ∀ t, (e.state t).driver.MacKnown →
    LearntBefore e t (e.state t).driver.cachedIp (e.state t).driver.cachedMac
  /-- `microudp_arp_resolve(ip)` returns 1 only with `cached_ip = ip`, and a MAC address for it. -/
  resolved : ∀ t ip, (e.state t).driver.resolveReturns = some (ip, true) →
    (e.state t).driver.cachedIp = ip ∧ LearntBefore e t ip (e.state t).driver.cachedMac
  /-- A frame goes to the MAC address and to the IP address of one reply. -/
  sent : ∀ t o, (e.state t).sends (e.input t) = some o →
    ∃ ip mac, LearntBefore e t ip mac ∧ o.raw.Holds 8 mac ∧ o.raw.word 38 = ip

/-- In every run, datagrams go to the host that owns the address in the cache. -/
theorem only_owner (e : station.Execution) : OnlyOwner e where
  cached := cached_learnt e
  resolved t ip hreturns := by
    obtain ⟨hip, hknown⟩ := resolveReturns_found (valid_state e t).stacked hreturns
    have hlearnt := cached_learnt e t hknown
    rw [hip] at hlearnt
    exact ⟨hip, hlearnt⟩
  sent t o hsends := by
    obtain ⟨hknown, hmac, hip⟩ := sends_addresses (valid_state e t) hsends
    exact ⟨_, _, cached_learnt e t hknown, hmac, hip⟩

end Runs

end Soc.Libnet
