import Mathlib.Tactic.SplitIfs
import Soc.Dhcp.Boot
import Soc.Libnet.Frames

/-!
# DHCP does not get through the stack

A DHCP client without an address sends its messages to 255.255.255.255 and asks for the answers
to be sent there. The stack does neither: `microudp_arp_resolve` looks for a host with that
address, and without one `microudp_send` sends nothing; `process_ip` only takes datagrams for
`my_ip`, which is 0 until an ACK has been delivered. So a broadcast answer is dropped as long as
the client waits for one (`answer_dropped`), and DHCP never works (`dhcp_never_works`).
-/

namespace Soc.Dhcp

open Library (Machine Traced)
open Libnet (Action Activation Driver Globals Outgoing SlotId Slot broadcast)

/-- A frame carries a message as the payload of a datagram. -/
def Carries (frame message : List Byte) : Prop :=
  (frame.drop 50).take message.length = message

/-- The destination MAC address of a frame. -/
def destMac (frame : List Byte) : List Byte := (frame.drop 8).take 6

/-- A slot holds a well-formed datagram for 255.255.255.255, port 68, with a DHCP message of a type
and a transaction. -/
structure Answer (messageType : Byte) (xid : Word) (raw : Slot) (rxlen : Int) : Prop where
  datagram : ∃ srcIp srcPort length, SIZEOF_DHCP_MSG ≤ length ∧
    (Libnet.processFrame ⟨BROADCAST, 0, true⟩ raw rxlen).value =
      .deliver srcIp srcPort 68 50 length
  header : raw 50 = 2 ∧ raw 51 = 1 ∧ raw 52 = 6 ∧ raw.word 54 = xid
  cookie : raw.word 286 = MAGIC_COOKIE
  option : raw 290 = DHCP_OPTION_MESSAGE_TYPE ∧ raw 291 = 1 ∧ raw 292 = messageType

/-- An OFFER of 192.168.0.42 by 192.168.0.1. -/
def offer : Slot :=
  Libnet.slotOf <| List.replicate 7 0x55 ++ [0xd5] ++ broadcast ++
    [0x02, 0x00, 0x00, 0x00, 0x00, 0x01, 0x08, 0x00, 0x45, 0x00, 0x01, 0x50, 0x00, 0x00, 0x40, 0x00,
     0x40, 0x11, 0x00, 0x00, 0xc0, 0xa8, 0x00, 0x01, 0xff, 0xff, 0xff, 0xff, 0x00, 0x43, 0x00, 0x44,
     0x01, 0x3c, 0x00, 0x00, 0x02, 0x01, 0x06, 0x00, 0x00, 0x00, 0x00, 0x2a, 0x00, 0x00, 0x80, 0x00,
     0x00, 0x00, 0x00, 0x00, 0xc0, 0xa8, 0x00, 0x2a, 0xc0, 0xa8, 0x00, 0x01, 0x00, 0x00, 0x00, 0x00,
     0x00, 0x13, 0x06, 0xe8, 0x53, 0xdf] ++ List.replicate 202 0 ++
    [0x63, 0x82, 0x53, 0x63, 0x35, 0x01, 0x02, 0x36, 0x04, 0xc0, 0xa8, 0x00, 0x01, 0xff] ++
    List.replicate 58 0 ++ [0xc6, 0x00, 0xb0, 0xca]

example : Answer DHCP_OFFER 0x2a offer 362 where
  datagram := ⟨0xc0a80001, 67, SIZEOF_DHCP_MSG, Nat.le_refl _, by decide +kernel⟩
  header := by decide
  cookie := by decide +kernel
  option := by decide +kernel

/-- The answer to a message. -/
def Sender.answer : Sender → Byte
  | .discover => DHCP_OFFER
  | .request => DHCP_ACK

section Statement

variable (e : dhcp.Execution)

/-- `dhcp_discover` or `dhcp_request` builds a message. -/
def BuiltAt (t : Nat) (sender : Sender) (message : List Byte) : Prop :=
  e.input t = .run ∧ (e.state t).built = some (sender, message)

/-- A frame is handed to `send_packet`. -/
def HandedAt (t : Nat) (frame : List Byte) : Prop :=
  e.input t = .run ∧ ∃ o, (e.state t).outgoing = some o ∧ o.frame = frame

/-- A frame is passed to `process_frame`. -/
def PassedAt (t : Nat) (raw : Slot) (rxlen : Int) : Prop :=
  e.input t = .run ∧ (e.state t).passed = some (raw, rxlen)

/-- A transaction: the CPU goes on, and a server answers each message it is sent with the same xid
and to 255.255.255.255. Anything else may arrive too. -/
structure Transaction : Prop where
  runs : ∀ t, ∃ u, t ≤ u ∧ e.input u = .run
  answered : ∀ t sender message u frame, BuiltAt e t sender message → t < u →
    HandedAt e u frame → Carries frame message → ∃ v slot count raw, u < v ∧
      e.input v = .arrive slot count raw ∧
      Answer sender.answer (e.state u).statics.xid raw count.toNat

/-- Each message is handed to `send_packet` in exactly one frame, and that one is broadcast. -/
def Sends : Prop :=
  ∀ t sender message, BuiltAt e t sender message → ∃ u frame, t < u ∧ HandedAt e u frame ∧
    Carries frame message ∧ destMac frame = broadcast ∧
    ∀ u' frame', t < u' → HandedAt e u' frame' → Carries frame' message → u' = u

/-- `process_ip` delivers every OFFER and every ACK to `dhcp_callback`. -/
def Delivers : Prop :=
  ∀ t sender raw rxlen, PassedAt e t raw rxlen →
    Answer (Sender.answer sender) (e.state t).statics.xid raw rxlen →
    (e.state (t + 1)).driver.InCallback

/-- The client reaches DHCP_BOUND with an ACK, and with its address. -/
def Binds : Prop :=
  ∃ t u raw rxlen, t < u ∧ (e.state t).statics.state ≠ .bound ∧ PassedAt e t raw rxlen ∧
    Answer DHCP_ACK (e.state t).statics.xid raw rxlen ∧
    (e.state u).statics.state = .bound ∧ (e.state u).driver.myIp = raw.word 66

/-- DHCP runs over the stack. -/
structure Works : Prop where
  sends : Sends e
  delivers : Delivers e
  binds : Binds e

end Statement

/-- `process_ip` delivers datagrams for `my_ip` only. -/
theorem processIp_dstIp {g : Globals} {raw : Slot} {rxlen data : Int} {srcIp : Word}
    {srcPort dstPort : BitVec 16} {length : Nat}
    (h : (Libnet.processIp g raw rxlen).value = .deliver srcIp srcPort dstPort data length) :
    raw.word 38 = g.myIp := by
  obtain ⟨-, h⟩ := Libnet.of_guard h nofun
  obtain ⟨-, h⟩ := Libnet.of_guard h nofun
  obtain ⟨-, h⟩ := Libnet.of_guard h nofun
  obtain ⟨-, h⟩ := Libnet.of_guard h nofun
  obtain ⟨hdst, -⟩ := Libnet.of_guard h nofun
  exact Decidable.not_not.1 hdst

/-- `process_frame` delivers datagrams for `my_ip` only. -/
theorem processFrame_dstIp {g : Globals} {raw : Slot} {rxlen data : Int} {srcIp : Word}
    {srcPort dstPort : BitVec 16} {length : Nat}
    (h : (Libnet.processFrame g raw rxlen).value = .deliver srcIp srcPort dstPort data length) :
    raw.half 20 = Libnet.ETHERTYPE_IP ∧ raw.word 38 = g.myIp := by
  refine ⟨?_, processIp_dstIp (Libnet.processFrame_deliver h)⟩
  obtain ⟨-, h⟩ := Libnet.of_guard h nofun
  obtain ⟨-, h⟩ := Libnet.of_guard h nofun
  rw [Traced.value_bind] at h
  split at h
  · exact absurd h Libnet.processArp_ne_deliver
  rw [Traced.value_bind] at h
  split at h
  case isTrue hip => exact hip
  case isFalse => cases h

/-- The driver calls `rx_callback` for a delivery only. -/
theorem deliver_of_inCallback {d : Driver} (h : d.enterProcessFrame.InCallback) :
    ∃ srcIp srcPort dstPort data length,
      (Libnet.processFrame d.globals (d.slots d.rxbuffer).raw d.rxlen).value =
        .deliver srcIp srcPort dstPort data length := by
  rw [Driver.enterProcessFrame] at h
  split at h
  case h_4 hdeliver => exact ⟨_, _, _, _, _, hdeliver⟩
  all_goals
    have hhead : some (Activation.process d.rxbuffer) = some .callback := h
    cases hhead

/-- `process_frame` leaves the IP address, whatever the frame leads to. -/
theorem enterProcessFrame_myIp (d : Driver) : d.enterProcessFrame.myIp = d.myIp := by
  rw [Driver.enterProcessFrame]
  split <;> rfl

/-- `microudp_service` leaves the IP address. -/
theorem stepService_myIp (d : Driver) (rest : List Activation) (pc : Libnet.ServicePc) :
    (d.stepService rest pc).myIp = d.myIp := by
  cases pc with
  | irq =>
      show (if d.ip then _ else _ : Driver).myIp = d.myIp
      split_ifs <;> rfl
  | test i =>
      show (if d.Pending i then _ else _ : Driver).myIp = d.myIp
      split_ifs <;> rfl
  | load i => rfl
  | process i => exact enterProcessFrame_myIp _
  | release i => rfl
  | ack => rfl

/-- `microudp_arp_resolve` leaves the IP address. -/
theorem stepResolve_myIp (d : Driver) (ip : Word) (rest : List Activation)
    (pc : Libnet.ResolvePc) : (d.stepResolve ip rest pc).myIp = d.myIp := by
  cases pc with
  | start =>
      show (if d.Cached ip then _ else _ : Driver).myIp = d.myIp
      split_ifs <;> rfl
  | request tries => rfl
  | wait tries timeout => rfl
  | check tries timeout =>
      show (if d.MacKnown then _ else if _ then _ else if _ then _ else _ : Driver).myIp = d.myIp
      split_ifs <;> rfl

/-- The driver leaves the IP address. -/
theorem step_myIp (d : Driver) : d.step.myIp = d.myIp := by
  unfold Driver.step
  split
  · exact stepService_myIp d _ _
  · rfl
  · exact stepResolve_myIp d _ _ _
  · rfl

/-- The invariant: `dhcp_boot` has not begun, or the IP address is 0 until DHCP_BOUND. -/
def Unnamed (s : Client) : Prop :=
  (s.pcs = [.boot] ∧ s.driver.InMain ∧ s.driver.myIp = 0) ∨
    (.boot ∉ s.pcs ∧ (s.statics.state ≠ .bound → s.driver.myIp = 0))

namespace Unnamed

variable {s : Client} {rest : List ClientPc}

/-- `dhcp_callback` begins: only an ACK sets the IP address, and that is DHCP_BOUND. -/
theorem callback {slot : SlotId} {data : Int} {length : Nat}
    (hpcs : s.pcs = .callback slot data length :: rest) (hrest : .boot ∉ rest)
    (hzero : s.statics.state ≠ .bound → s.driver.myIp = 0) : Unnamed s.runClient := by
  have hreacts : Reacts s.statics (s.reacts slot data length) := dhcpCallback_reacts _ _ _ _
  unfold Client.runClient
  rw [hpcs]
  dsimp only
  generalize s.reacts slot data length = reaction at hreacts ⊢
  cases hreacts with
  | ignore => exact .inr ⟨List.not_mem_cons_of_ne_of_not_mem nofun hrest, hzero⟩
  | request d' offeredIp hselecting =>
      refine .inr ⟨List.not_mem_cons_of_ne_of_not_mem nofun hrest, fun _ => hzero ?_⟩
      rw [hselecting]
      nofun
  | setIp d' ip hbound =>
      exact .inr ⟨List.not_mem_cons_of_ne_of_not_mem nofun hrest, fun hne => absurd hbound hne⟩

/-- A step of `dhcp.c`. -/
theorem runClient (h : Unnamed s) : Unnamed s.runClient := by
  obtain ⟨hpcs, -, hmyIp⟩ | ⟨hboot, hzero⟩ := h
  · unfold Client.runClient
    rw [hpcs]
    exact .inr ⟨List.not_mem_cons_of_ne_of_not_mem nofun List.not_mem_nil, fun _ => hmyIp⟩
  · cases hpcs : s.pcs with
    | nil =>
        unfold Client.runClient
        rw [hpcs]
        exact .inr ⟨hboot, hzero⟩
    | cons pc rest =>
        rw [hpcs] at hboot
        have hrest : .boot ∉ rest := List.not_mem_of_not_mem_cons hboot
        cases pc with
        | boot => exact absurd List.mem_cons_self hboot
        | callback slot data length => exact callback hpcs hrest hzero
        | resolve sender =>
            unfold Client.runClient
            rw [hpcs]
            exact .inr ⟨List.not_mem_cons_of_ne_of_not_mem nofun hrest, hzero⟩
        | send sender =>
            unfold Client.runClient
            rw [hpcs]
            cases sender with
            | discover => exact .inr ⟨List.not_mem_cons_of_ne_of_not_mem nofun hrest, hzero⟩
            | request => exact .inr ⟨List.not_mem_cons_of_ne_of_not_mem nofun hrest, hzero⟩
        | loop =>
            unfold Client.runClient
            rw [hpcs]
            dsimp only
            split_ifs
            · exact .inr ⟨hpcs ▸ hboot, hzero⟩
            · exact .inr ⟨hpcs ▸ hboot, hzero⟩
        | finish =>
            unfold Client.runClient
            rw [hpcs]
            exact .inr ⟨hrest, hzero⟩

/-- A statement of the driver. -/
theorem runDriver (h : Unnamed s) (hruns : ¬ s.Runs) : Unnamed s.runDriver := by
  obtain ⟨-, hmain, -⟩ | ⟨hboot, hzero⟩ := h
  · exact absurd (.inl hmain) hruns
  · refine .inr ⟨?_, fun hne => (step_myIp s.driver).trans (hzero hne)⟩
    unfold Client.runDriver
    dsimp only
    split
    · exact List.not_mem_cons_of_ne_of_not_mem nofun hboot
    · exact hboot

/-- Every step keeps the invariant. -/
theorem step (h : Unnamed s) : Unnamed s.step := by
  have hran : Unnamed (if s.Runs then s.runClient else s.runDriver) := by
    split_ifs with hruns
    · exact h.runClient
    · exact h.runDriver hruns
  exact hran

end Unnamed

/-- The invariant holds in every cycle. -/
theorem unnamed (e : dhcp.Execution) (t : Nat) : Unnamed (e.state t) := by
  refine e.invariant (fun s hinit => ?_) (fun s input h _ => ?_) t
  · obtain ⟨hmain, hmyIp, -, -, -, hpcs⟩ := hinit
    exact .inl ⟨hpcs, hmain, hmyIp⟩
  · cases input with
    | run => exact h.step
    | arrive slot count raw => exact h

/-- The step that passes a frame calls `process_frame`. -/
theorem passed_step {s : Client} {raw : Slot} {rxlen : Int} (h : s.passed = some (raw, rxlen)) :
    ¬ s.driver.InMain ∧ ∃ d : Driver, d.myIp = s.driver.myIp ∧ (d.slots d.rxbuffer).raw = raw ∧
      s.step.driver = d.enterProcessFrame := by
  unfold Client.passed at h
  split at h
  case h_1 i rest hstack =>
      cases h
      have hmain : ¬ s.driver.InMain := by
        intro hmain
        rw [Driver.InMain, hstack] at hmain
        cases hmain
      have hcallback : ¬ s.driver.InCallback := by
        intro hcallback
        rw [Driver.InCallback, hstack] at hcallback
        cases hcallback
      refine ⟨hmain, { s.driver with stack := .service (.release i) :: rest }, rfl, rfl, ?_⟩
      show (if s.Runs then s.runClient else s.runDriver).driver = _
      rw [if_neg (fun hruns => hruns.elim hmain hcallback)]
      show s.driver.step = _
      unfold Driver.step
      rw [hstack]
      rfl
  case h_2 => cases h

/-- Until DHCP_BOUND, an answer to 255.255.255.255 is not delivered. -/
theorem answer_dropped {e : dhcp.Execution} {t : Nat} {raw : Slot} {rxlen : Int}
    {messageType : Byte} {xid : Word} (hstate : (e.state t).statics.state ≠ .bound)
    (hpassed : PassedAt e t raw rxlen) (hanswer : Answer messageType xid raw rxlen) :
    ¬ (e.state (t + 1)).driver.InCallback := by
  obtain ⟨hrun, hpassed⟩ := hpassed
  obtain ⟨hmain, d, hmyIp, hraw, hstep⟩ := passed_step hpassed
  have hzero : (e.state t).driver.myIp = 0 := by
    obtain ⟨-, hinMain, -⟩ | ⟨-, hzero⟩ := unnamed e t
    · exact absurd hinMain hmain
    · exact hzero hstate
  intro hcallback
  rw [e.step t, hrun] at hcallback
  change (e.state t).step.driver.InCallback at hcallback
  rw [hstep] at hcallback
  -- the frame was delivered to 0.0.0.0, and is sent to 255.255.255.255
  obtain ⟨_, _, _, _, _, hdeliver⟩ := deliver_of_inCallback hcallback
  have hdst : raw.word 38 = 0 := by
    rw [← hraw, (processFrame_dstIp hdeliver).2]
    exact hmyIp.trans hzero
  obtain ⟨_, _, _, -, hdatagram⟩ := hanswer.datagram
  have hbroadcast : raw.word 38 = BROADCAST := (processFrame_dstIp hdatagram).2
  rw [hdst] at hbroadcast
  cases hbroadcast

/-- DHCP never works over this stack. -/
theorem dhcp_never_works (e : dhcp.Execution) : ¬ Works e := by
  rintro ⟨-, hdelivers, t, _, raw, rxlen, -, hstate, hpassed, hanswer, -, -⟩
  exact answer_dropped hstate hpassed hanswer (hdelivers t .request raw rxlen hpassed hanswer)

/-- The driver resolves an address, and nothing has been received. -/
structure Silent (d : Driver) : Prop where
  ip : d.ip = false
  cachedMac : ∀ byte ∈ d.cachedMac, byte = 0
  stack : ∀ a ∈ d.stack, a = .service .irq ∨ ∃ ip pc, a = .resolve ip pc

namespace Silent

variable {d : Driver} {rest : List Activation}

/-- The cache is empty. -/
theorem not_macKnown (h : Silent d) : ¬ d.MacKnown := by
  rintro ⟨byte, hmem, hne⟩
  exact hne (h.cachedMac byte hmem)

/-- A statement of `microudp_arp_resolve`. -/
theorem stepResolve (h : Silent d)
    (hrest : ∀ b ∈ rest, b = .service .irq ∨ ∃ ip pc, b = .resolve ip pc) (ip : Word)
    (pc : Libnet.ResolvePc) : Silent (d.stepResolve ip rest pc) := by
  have hresolve : ∀ pc, ∀ b ∈ Activation.resolve ip pc :: rest,
      b = .service .irq ∨ ∃ ip pc, b = .resolve ip pc :=
    fun pc => List.forall_mem_cons.2 ⟨.inr ⟨ip, pc, rfl⟩, hrest⟩
  cases pc with
  | start =>
      show Silent (if d.Cached ip then _ else _)
      rw [if_neg fun hcached => h.not_macKnown hcached.2]
      exact ⟨h.ip, fun _ hmem => List.eq_of_mem_replicate hmem, hresolve _⟩
  | request tries => exact ⟨h.ip, h.cachedMac, hresolve _⟩
  | wait tries timeout => exact ⟨h.ip, h.cachedMac, List.forall_mem_cons.2 ⟨.inl rfl, hresolve _⟩⟩
  | check tries timeout =>
      show Silent (if d.MacKnown then _ else if _ then _ else if _ then _ else _)
      rw [if_neg h.not_macKnown]
      split_ifs
      · exact ⟨h.ip, h.cachedMac, hresolve _⟩
      · exact ⟨h.ip, h.cachedMac, hresolve _⟩
      · exact ⟨h.ip, h.cachedMac, hrest⟩

/-- A statement of the driver. -/
theorem step (h : Silent d) : Silent d.step := by
  unfold Driver.step
  cases hstack : d.stack with
  | nil => exact h
  | cons a rest =>
      have hrest : ∀ b ∈ rest, b = .service .irq ∨ ∃ ip pc, b = .resolve ip pc :=
        fun b hb => h.stack b (hstack ▸ List.mem_cons_of_mem a hb)
      obtain rfl | ⟨ip, pc, rfl⟩ := h.stack a (hstack ▸ List.mem_cons_self)
      · show Silent (if d.ip then _ else _)
        rw [if_neg (by rw [h.ip]; nofun)]
        exact ⟨h.ip, h.cachedMac, hrest⟩
      · exact h.stepResolve hrest ip pc

end Silent

/-- The invariant when nobody answers: the driver is silent, and `dhcp_callback` is never called. -/
structure Unanswered (s : Client) : Prop where
  silent : Silent s.driver
  myMac : s.myMac.length = 6
  pcs : ∀ pc ∈ s.pcs, ∀ slot data length, pc ≠ .callback slot data length

namespace Unanswered

variable {s : Client}

/-- Nothing is passed to `process_frame`. -/
theorem action_eq (h : Unanswered s) : s.action = .drop := by
  have hpassed : s.passed = none := by
    unfold Client.passed
    split
    case h_1 i rest hstack =>
        obtain hirq | ⟨_, _, hresolve⟩ := h.silent.stack _ (hstack ▸ List.mem_cons_self)
        · cases hirq
        · cases hresolve
    case h_2 => rfl
  rw [Client.action, hpassed]

/-- All that is sent are ARP requests. -/
theorem outgoing_length (h : Unanswered s) {o : Outgoing} (ho : s.outgoing = some o) :
    o.frame.length = 68 := by
  unfold Client.outgoing at ho
  split_ifs at ho
  · split at ho
    · rw [Libnet.microudpSend, if_pos h.silent.cachedMac] at ho
      cases ho
    · cases ho
  · split at ho
    · cases ho
      rfl
    · rw [h.action_eq] at ho
      cases ho

/-- The only message is DISCOVER. -/
theorem built_length (h : Unanswered s) {sender : Sender} {message : List Byte}
    (hbuilt : s.built = some (sender, message)) : message.length = SIZEOF_DHCP_MSG := by
  unfold Client.built at hbuilt
  split_ifs at hbuilt
  split at hbuilt
  · cases hbuilt
    exact length_discoverMsg _ h.myMac
  case h_2 slot data length rest hpcs =>
      exact absurd rfl (h.pcs _ (hpcs ▸ List.mem_cons_self) slot data length)
  · cases hbuilt

/-- A step of `dhcp.c`. -/
theorem runClient (h : Unanswered s) : Unanswered s.runClient := by
  unfold Client.runClient
  cases hpcs : s.pcs with
  | nil => exact h
  | cons pc rest =>
      have hall : ∀ b ∈ pc :: rest, ∀ slot data length, b ≠ .callback slot data length :=
        hpcs ▸ h.pcs
      obtain ⟨hpc, hrest⟩ := List.forall_mem_cons.1 hall
      cases pc with
      | boot =>
          exact ⟨⟨h.silent.ip, h.silent.cachedMac, h.silent.stack⟩, h.myMac,
            List.forall_mem_cons.2 ⟨nofun, hrest⟩⟩
      | callback slot data length => exact absurd rfl (hpc slot data length)
      | resolve sender =>
          exact ⟨⟨h.silent.ip, h.silent.cachedMac,
            List.forall_mem_cons.2 ⟨.inr ⟨_, _, rfl⟩, h.silent.stack⟩⟩, h.myMac,
            List.forall_mem_cons.2 ⟨nofun, hrest⟩⟩
      | send sender =>
          cases sender with
          | discover => exact ⟨h.silent, h.myMac, List.forall_mem_cons.2 ⟨nofun, hrest⟩⟩
          | request => exact ⟨h.silent, h.myMac, List.forall_mem_cons.2 ⟨nofun, hrest⟩⟩
      | loop =>
          dsimp only
          split_ifs
          · exact h
          · exact ⟨⟨h.silent.ip, h.silent.cachedMac,
              List.forall_mem_cons.2 ⟨.inl rfl, h.silent.stack⟩⟩, h.myMac, hall⟩
      | finish =>
          exact ⟨⟨h.silent.ip, h.silent.cachedMac,
            fun a ha => h.silent.stack a (List.mem_of_mem_tail ha)⟩, h.myMac, hrest⟩

/-- A step of the CPU. -/
theorem step (h : Unanswered s) : Unanswered s.step := by
  have hran : Unanswered (if s.Runs then s.runClient else s.runDriver) := by
    split_ifs
    · exact h.runClient
    · refine ⟨h.silent.step, h.myMac, ?_⟩
      unfold Client.runDriver
      rw [h.action_eq]
      exact h.pcs
  exact ⟨hran.silent, hran.myMac, hran.pcs⟩

end Unanswered

/-- The client of `ethernet_test/main.c` before `dhcp_boot`, in a network without a frame. -/
def quiet : Client where
  driver :=
    { myIp := 0
      cachedIp := BROADCAST
      cachedMac := List.replicate 6 0
      rxCallback := false
      rxlen := 0
      rxbuffer := .slot0
      stack := []
      slots := fun _ => ⟨.loaded, 0, fun _ => 0, 0⟩
      ip := false }
  myMac := [0x00, 0x13, 0x06, 0xe8, 0x53, 0xdf]
  txbuffer := fun _ => 0
  statics := .off
  rand := 0
  pcs := [.boot]

/-- The run in which nobody answers. -/
def unanswered : dhcp.Execution :=
  .ofInputs quiet (fun _ => .run) ⟨rfl, rfl, rfl, rfl, rfl, rfl⟩ fun _ => trivial

/-- The invariant holds in every cycle of that run. -/
theorem unanswered_state (t : Nat) : Unanswered (unanswered.state t) := by
  induction t with
  | zero =>
      refine ⟨⟨rfl, fun _ hmem => List.eq_of_mem_replicate hmem, nofun⟩, rfl, ?_⟩
      exact List.forall_mem_cons.2 ⟨nofun, nofun⟩
  | succ t ih => exact ih.step

/-- No frame that is sent in that run carries a message. -/
theorem unanswered_not_carries {t u : Nat} {sender : Sender} {message frame : List Byte}
    (hbuilt : BuiltAt unanswered t sender message) (hhanded : HandedAt unanswered u frame) :
    ¬ Carries frame message := by
  intro hcarries
  obtain ⟨-, o, ho, rfl⟩ := hhanded
  have hmessage := (unanswered_state t).built_length hbuilt.2
  have hframe := (unanswered_state u).outgoing_length ho
  have hlength : ((o.frame.drop 50).take message.length).length = message.length :=
    congrArg List.length hcarries
  rw [List.length_take, List.length_drop, hmessage, hframe] at hlength
  exact absurd hlength (by decide)

/-- When nobody answers the ARP requests for 255.255.255.255, DISCOVER is not sent. -/
theorem dhcp_unanswered : Transaction unanswered ∧ ¬ Works unanswered := by
  constructor
  · refine ⟨fun t => ⟨t, Nat.le_refl t, rfl⟩, ?_⟩
    intro t sender message u frame hbuilt _ hhanded hcarries
    exact absurd hcarries (unanswered_not_carries hbuilt hhanded)
  · intro hworks
    have hbuilt : BuiltAt unanswered 0 .discover (discoverMsg quiet.booted quiet.myMac) :=
      ⟨rfl, rfl⟩
    obtain ⟨u, frame, -, hhanded, hcarries, -⟩ := hworks.sends 0 _ _ hbuilt
    exact unanswered_not_carries hbuilt hhanded hcarries

end Soc.Dhcp
