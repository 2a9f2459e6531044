import Mathlib.Tactic.SplitIfs
import Soc.Dhcp.Options
import Soc.Library.Execution

/-!
# What configures the interface

The datagrams that `dhcp_callback` is given after `dhcp_discover`, in any number and with any
content. The calls into microudp return without another call of `dhcp_callback`, so a datagram is
one step. The main theorem is `right_ack`: the client goes from SELECTING to REQUESTING with an
OFFER and from there to BOUND with an ACK, which sets the IP address, and nothing else changes
anything.
-/

namespace Soc.Dhcp

open Library (Machine Traced)
open Libnet (Slot)

/-- A datagram: the memory around its payload, with the address and the length of that. -/
structure Datagram where
  mem : Slot
  data : Int
  length : Nat

namespace Datagram

/-- `dhcp->yiaddr`. -/
def yiaddr (m : Datagram) : Word := m.mem.word (m.data + 16)

end Datagram

/-- A datagram is a whole message of a type, from a server and for a transaction. -/
structure Acceptable (messageType : Byte) (xid : Word) (m : Datagram) : Prop where
  length : SIZEOF_DHCP_MSG ≤ m.length
  cookie : m.mem.word (m.data + 236) = MAGIC_COOKIE
  op : m.mem m.data = 2
  htype : m.mem (m.data + 1) = 1
  hlen : m.mem (m.data + 2) = 6
  xid : m.mem.word (m.data + 4) = xid
  option : m.mem (m.data + 240) = DHCP_OPTION_MESSAGE_TYPE ∧ m.mem (m.data + 241) = 1
  messageType : m.mem (m.data + 242) = messageType

/-- An OFFER in SELECTING. -/
def TakesOffer (d : Statics) (m : Datagram) : Prop :=
  Acceptable DHCP_OFFER d.xid m ∧ d.state = .selecting

/-- An ACK in REQUESTING. -/
def TakesAck (d : Statics) (m : Datagram) : Prop :=
  Acceptable DHCP_ACK d.xid m ∧ d.state = .requesting

/-- The client and the IP address of microudp. -/
structure Interface where
  statics : Statics
  ip : Word

namespace Interface

/-- What `dhcp_callback` does with a datagram. -/
def reacts (s : Interface) (m : Datagram) : Statics × Reaction :=
  (dhcpCallback m.mem m.data m.length s.statics).value

/-- The argument of `microudp_set_ip`, if a datagram leads to a call. -/
def setsIp (s : Interface) (m : Datagram) : Option Word :=
  match (s.reacts m).2 with
  | .setIp ip => some ip
  | _ => none

/-- The interface after a datagram. -/
def receive (s : Interface) (m : Datagram) : Interface :=
  match s.reacts m with
  | (statics, .ignore) => { s with statics := statics }
  | (statics, .request _) => { s with statics := { statics with state := .requesting } }
  | (statics, .setIp ip) => { statics := statics, ip := ip }

end Interface

/-- The client after `dhcp_discover`, and the datagrams it is given. -/
def session : Machine Interface Datagram where
  Initial s := s.statics.state = .selecting
  Allowed _ _ := True
  next := Interface.receive

/-- The three things `dhcp_callback` does with a datagram. -/
inductive Handles (d : Statics) (m : Datagram) : Statics × Reaction → Prop where
  | offer (d' : Statics) (h : TakesOffer d m) (hkept : Kept d d') :
      Handles d m (d', .request m.yiaddr)
  | ack (d' : Statics) (h : TakesAck d m) (hkept : Kept { d with state := .bound } d') :
      Handles d m (d', .setIp m.yiaddr)
  | ignore (hoffer : ¬ TakesOffer d m) (hack : ¬ TakesAck d m) : Handles d m (d, .ignore)

/-- A check that ignores the datagram if it fails. -/
theorem Handles.check {d : Statics} {m : Datagram} {p : Prop} [Decidable p]
    {result : Statics × Reaction} (hfails : ¬ p → Handles d m (d, .ignore))
    (hpasses : p → Handles d m result) : Handles d m (if p then result else (d, .ignore)) := by
  by_cases h : p
  · rw [if_pos h]
    exact hpasses h
  · rw [if_neg h]
    exact hfails h

/-- `dhcp_callback` does what the datagram calls for. -/
theorem reacts_handles (s : Interface) (m : Datagram) : Handles s.statics m (s.reacts m) := by
  have hfails : (∀ messageType, ¬ Acceptable messageType s.statics.xid m) →
      Handles s.statics m (s.statics, .ignore) :=
    fun hno => .ignore (fun h => hno _ h.1) (fun h => hno _ h.1)
  have hunfold : s.reacts m = (dhcpCallback m.mem m.data m.length s.statics).value := rfl
  rw [hunfold, dhcpCallback]
  simp only [Traced.value_bind, Traced.value_ite, Traced.value_pure, ne_eq, ite_not]
  by_cases hlength : m.length < SIZEOF_DHCP_MSG
  · rw [if_pos hlength]
    exact hfails fun _ h => absurd h.length (Nat.not_le_of_lt hlength)
  rw [if_neg hlength]
  refine .check (fun hno => hfails fun _ h => hno h.cookie) fun hcookie => ?_
  refine .check (fun hno => hfails fun _ h => hno h.op) fun hop => ?_
  refine .check (fun hno => hfails fun _ h => hno h.htype) fun hhtype => ?_
  refine .check (fun hno => hfails fun _ h => hno h.hlen) fun hhlen => ?_
  refine .check (fun hno => hfails fun _ h => hno h.xid) fun hxid => ?_
  refine .check (fun hno => hfails fun _ h => hno h.option.1) fun hoption => ?_
  refine .check (fun hno => hfails fun _ h => hno h.option.2) fun hone => ?_
  have haccepts : ∀ messageType, m.mem (m.data + 242) = messageType →
      Acceptable messageType s.statics.xid m := fun messageType htype =>
    ⟨Nat.le_of_not_lt hlength, hcookie, hop, hhtype, hhlen, hxid, ⟨hoption, hone⟩, htype⟩
  split_ifs with hoffer hack
  · exact .offer _ ⟨haccepts _ hoffer.1, hoffer.2⟩ (parseFrom_kept _ _ _ _)
  · exact .ack _ ⟨haccepts _ hack.1, hack.2⟩ ⟨rfl, (parseFrom_kept _ _ _ _).2⟩
  · exact .ignore (fun h => hoffer ⟨h.1.messageType, h.2⟩) (fun h => hack ⟨h.1.messageType, h.2⟩)

/-- What a datagram leads to: the call of `microudp_set_ip`, and the interface afterwards. -/
inductive Received (s : Interface) (m : Datagram) : Option Word → Interface → Prop where
  | offer (s' : Interface) (h : TakesOffer s.statics m) (hstate : s'.statics.state = .requesting)
      (hxid : s'.statics.xid = s.statics.xid) : Received s m none s'
  | ack (s' : Interface) (h : TakesAck s.statics m) (hstate : s'.statics.state = .bound)
      (hxid : s'.statics.xid = s.statics.xid) : Received s m (some m.yiaddr) s'
  | ignore (hoffer : ¬ TakesOffer s.statics m) (hack : ¬ TakesAck s.statics m) : Received s m none s

/-- A datagram is an OFFER, an ACK, or ignored. -/
theorem received (s : Interface) (m : Datagram) : Received s m (s.setsIp m) (s.receive m) := by
  have h := reacts_handles s m
  unfold Interface.setsIp Interface.receive
  generalize s.reacts m = reaction at h ⊢
  cases h with
  | offer d' h hkept => exact .offer _ h rfl hkept.2
  | ack d' h hkept => exact .ack _ h hkept.1 hkept.2
  | ignore hoffer hack => exact .ignore hoffer hack

/-- `microudp_set_ip` is called. -/
def CallsSetIp (e : session.Execution) (t : Nat) (ip : Word) : Prop :=
  (e.state t).setsIp (e.input t) = some ip

section Run

variable (e : session.Execution)

/-- A datagram of a run. -/
theorem received_at (t : Nat) :
    Received (e.state t) (e.input t) ((e.state t).setsIp (e.input t)) (e.state (t + 1)) := by
  rw [e.step t]
  exact received _ _

/-- The call of `microudp_set_ip` is that of an ACK. -/
theorem ack_of_callsSetIp {t : Nat} {ip : Word} (h : CallsSetIp e t ip) :
    ip = (e.input t).yiaddr ∧ TakesAck (e.state t).statics (e.input t) ∧
      (e.state (t + 1)).statics.state = .bound := by
  have hreceived := received_at e t
  rw [h] at hreceived
  generalize e.state (t + 1) = s' at hreceived ⊢
  cases hreceived with
  | ack _ hack hstate hxid => exact ⟨rfl, hack, hstate⟩

/-- Out of SELECTING, an OFFER of the transaction was received before. -/
theorem offer_before (t : Nat) (h : (e.state t).statics.state ≠ .selecting) :
    ∃ u < t, Acceptable DHCP_OFFER (e.state t).statics.xid (e.input u) := by
  induction t with
  | zero => exact absurd e.initial h
  | succ t ih =>
      have hreceived := received_at e t
      generalize (e.state t).setsIp (e.input t) = ip at hreceived
      generalize e.state (t + 1) = s' at hreceived h ⊢
      have hearlier : (e.state t).statics.state ≠ .selecting →
          ∃ u < t + 1, Acceptable DHCP_OFFER (e.state t).statics.xid (e.input u) := by
        intro hne
        obtain ⟨u, hu, hoffer⟩ := ih hne
        exact ⟨u, by omega, hoffer⟩
      cases hreceived with
      | offer _ hoffer hstate hxid => exact ⟨t, Nat.lt_succ_self t, hxid ▸ hoffer.1⟩
      | ack _ hack hstate hxid =>
          rw [hxid]
          exact hearlier (by rw [hack.2]; nofun)
      | ignore hoffer hack => exact hearlier h

/-- The client stays BOUND. -/
theorem stays_bound {t u : Nat} (hle : t ≤ u) (h : (e.state t).statics.state = .bound) :
    (e.state u).statics.state = .bound := by
  refine Machine.Execution.kept_until (Q := fun v => (e.state v).statics.state = .bound) hle h ?_
  intro v _ _ hv
  have hreceived := received_at e v
  generalize (e.state v).setsIp (e.input v) = ip at hreceived
  generalize e.state (v + 1) = s' at hreceived ⊢
  cases hreceived with
  | offer _ hoffer hstate hxid => exact absurd (hv.symm.trans hoffer.2) nofun
  | ack _ hack hstate hxid => exact hstate
  | ignore hoffer hack => exact hv

/-- After a call of `microudp_set_ip` there is no other. -/
theorem not_callsSetIp_after {t u : Nat} {ip ip' : Word} (h : CallsSetIp e t ip) (hlt : t < u) :
    ¬ CallsSetIp e u ip' := by
  intro h'
  have hbound := stays_bound e hlt (ack_of_callsSetIp e h).2.2
  obtain ⟨-, ⟨-, hrequesting⟩, -⟩ := ack_of_callsSetIp e h'
  exact absurd (hbound.symm.trans hrequesting) nofun

/-- Only the right ACK configures the interface. -/
structure ConfiguredByAck : Prop where
  moves : ∀ t, (e.state (t + 1)).statics.state = (e.state t).statics.state ∨
    ((e.state t).statics.state = .selecting ∧ (e.state (t + 1)).statics.state = .requesting) ∨
    ((e.state t).statics.state = .requesting ∧ (e.state (t + 1)).statics.state = .bound)
  once : ∀ t u ip ip', CallsSetIp e t ip → CallsSetIp e u ip' → t = u
  bound : ∀ t, (∃ ip, CallsSetIp e t ip) ↔
    (e.state t).statics.state ≠ .bound ∧ (e.state (t + 1)).statics.state = .bound
  ack : ∀ t ip, CallsSetIp e t ip → ip = (e.input t).yiaddr ∧
    Acceptable DHCP_ACK (e.state t).statics.xid (e.input t) ∧
    ∃ u < t, Acceptable DHCP_OFFER (e.state t).statics.xid (e.input u)
  kept : ∀ t, ¬ TakesOffer (e.state t).statics (e.input t) →
    ¬ TakesAck (e.state t).statics (e.input t) → e.state (t + 1) = e.state t

end Run

/-- Whatever is received after `dhcp_discover`, only the right ACK configures the interface. -/
theorem right_ack (e : session.Execution) : ConfiguredByAck e where
  moves t := by
    have hreceived := received_at e t
    generalize (e.state t).setsIp (e.input t) = ip at hreceived
    generalize e.state (t + 1) = s' at hreceived ⊢
    cases hreceived with
    | offer _ hoffer hstate hxid => exact .inr (.inl ⟨hoffer.2, hstate⟩)
    | ack _ hack hstate hxid => exact .inr (.inr ⟨hack.2, hstate⟩)
    | ignore hoffer hack => exact .inl rfl
  once t u ip ip' h h' := by
    obtain hlt | heq | hgt := Nat.lt_trichotomy t u
    · exact absurd h' (not_callsSetIp_after e h hlt)
    · exact heq
    · exact absurd h (not_callsSetIp_after e h' hgt)
  bound t := by
    constructor
    · rintro ⟨ip, h⟩
      obtain ⟨-, ⟨-, hrequesting⟩, hbound⟩ := ack_of_callsSetIp e h
      exact ⟨by rw [hrequesting]; nofun, hbound⟩
    · rintro ⟨hnot, hbound⟩
      have hreceived := received_at e t
      unfold CallsSetIp
      generalize (e.state t).setsIp (e.input t) = ip at hreceived ⊢
      generalize e.state (t + 1) = s' at hreceived hbound
      cases hreceived with
      | offer _ hoffer hstate hxid => exact absurd (hbound.symm.trans hstate) nofun
      | ack _ hack hstate hxid => exact ⟨_, rfl⟩
      | ignore hoffer hack => exact absurd hbound hnot
  ack t ip h := by
    obtain ⟨hip, ⟨hack, hrequesting⟩, -⟩ := ack_of_callsSetIp e h
    exact ⟨hip, hack, offer_before e t (by rw [hrequesting]; nofun)⟩
  kept t hoffer hack := by
    have hreceived := received_at e t
    generalize (e.state t).setsIp (e.input t) = ip at hreceived
    generalize e.state (t + 1) = s' at hreceived ⊢
    cases hreceived with
    | offer _ h _ _ => exact absurd h hoffer
    | ack _ h _ _ => exact absurd h hack
    | ignore _ _ => rfl

end Soc.Dhcp
