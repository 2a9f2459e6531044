import Soc.Jtag.Phase

/-!
# Every request of the host is performed once

Runs in which sys_clk keeps ticking, source words arrive and the slave answers, after any time. A
request goes through its phases one after the other, and each phase ends at the first event it waits
for. The main theorem is `performed_once`.
-/

namespace Soc.Jtag

open Library (Machine)

namespace Event

/-- An edge of sys_clk. -/
def IsEdge : Event → Prop
  | edge _ _ _ => True
  | _ => False

/-- An edge of sys_clk at which source words have arrived. -/
def Arrives : Event → Prop
  | edge arrivals _ _ => arrivals ≠ 0
  | _ => False

/-- An edge of sys_clk at which the slave answers. -/
def Acks : Event → Prop
  | edge _ ack _ => ack = true
  | _ => False

/-- The host sets a request. -/
def IsRequest : Event → Prop
  | request _ _ _ => True
  | _ => False

end Event

section Statement

variable (e : bridge.Execution)

/-- sys_clk keeps ticking, what is on its way arrives, and the slave answers. -/
structure Fair : Prop where
  clocked : ∀ t, ∃ u, t ≤ u ∧ (e.input u).IsEdge
  arrives : ∀ t, (e.state t).flight ≠ [] → ∃ u, t ≤ u ∧ (e.input u).Arrives
  answers : ∀ t, (e.state t).jtag.wbCycO = true → ∃ u, t ≤ u ∧ (e.input u).Acks

/-- The request that the host sets in step `t` is performed in the bus cycle from step `s` to step
`a`, and answered with `dat`. -/
structure Performed (t : Nat) (r : Source) (s a : Nat) (dat : Word) : Prop where
  after : t < s ∧ s ≤ a
  /-- The slave answers at the end of the bus cycle, and not before. -/
  acked : (∃ arrivals, e.input a = .edge arrivals true dat) ∧
    ∀ v, s ≤ v → v < a → ¬ (e.input v).Acks
  /-- The bus cycle carries the request. -/
  bus : ∀ v, s ≤ v → v ≤ a → (e.state v).jtag.wbAdrO = r.adr ∧ (e.state v).jtag.wbDatO = r.data ∧
    (e.state v).jtag.wbWeO = r.we
  /-- There is no other bus cycle up to the next request. -/
  only : ∀ v, t < v → (∀ u, t < u → u < v → ¬ (e.input u).IsRequest) →
    (e.state v).jtag.wbCycO = decide (s ≤ v ∧ v ≤ a) ∧
      (e.state v).jtag.wbStbO = decide (s ≤ v ∧ v ≤ a)
  /-- The probe shows the answer from the end of the bus cycle on, until the host clears the
  request. -/
  probe : ∀ v, t < v → (∀ u, t < u → u < v → e.input u ≠ .clear) →
    (e.state v).jtag.tx = if a < v then ⟨true, dat⟩ else .zero

/-- Nothing is performed before the first request, and each request is performed once. -/
structure ExactlyOnce : Prop where
  before : ∀ v, (∀ u, u < v → ¬ (e.input u).IsRequest) →
    (e.state v).jtag.wbCycO = false ∧ (e.state v).jtag.wbStbO = false
  performed : ∀ t we adr data, e.input t = .request we adr data →
    ∃ s a dat, Performed e t ⟨true, we, adr, data⟩ s a dat

end Statement

variable {e : bridge.Execution} {p q : Phase} {r : Source} {dat : Word} {t u v : Nat}

namespace Phase

/-- The events that can happen in a phase. -/
def Possible (p : Phase) : Event → Prop
  | .edge _ _ _ => True
  | .sample => True
  | .clear => ∃ r dat, p = answered r dat
  | .request _ _ _ => p = idle

/-- The registers are always those of some phase. -/
theorem exists_represents (e : bridge.Execution) (t : Nat) :
    ∃ p : Phase, p.Represents (e.state t) :=
  e.invariant (P := fun s => ∃ p : Phase, p.Represents s)
    (fun _ h => ⟨idle, represents_of_initial h⟩)
    (fun _ _ ⟨_, hp⟩ hallowed => ⟨_, hp.next hallowed⟩) t

/-- A step of a run. -/
theorem Represents.step (h : p.Represents (e.state t)) :
    p.Possible (e.input t) ∧ (p.next (e.input t)).Represents (e.state (t + 1)) := by
  have hallowed := e.allowed t
  constructor
  · cases hevent : e.input t with
    | edge arrivals ack dat => trivial
    | sample => trivial
    | clear =>
        rw [hevent] at hallowed
        exact h.answered_of_clear hallowed
    | request we adr data =>
        rw [hevent] at hallowed
        exact h.idle_of_request we adr data hallowed
  · rw [e.step t]
    exact h.next hallowed

/-- A phase ends at the first event it waits for. -/
theorem Represents.pass (h : p.Represents (e.state t)) {P : Event → Prop}
    (hstay : ∀ event, p.Possible event → ¬ P event → p.next event = p)
    (hex : ∃ u, t ≤ u ∧ P (e.input u)) :
    ∃ u, t ≤ u ∧ P (e.input u) ∧ (∀ v, t ≤ v → v < u → ¬ P (e.input v)) ∧
      (∀ v, t ≤ v → v ≤ u → p.Represents (e.state v)) ∧
      (p.next (e.input u)).Represents (e.state (u + 1)) := by
  obtain ⟨u, hle, hu, hfirst⟩ := Machine.Execution.first_of_exists hex
  have hthere : ∀ v, t ≤ v → v ≤ u → p.Represents (e.state v) := by
    intro v hfrom hto
    refine Machine.Execution.kept_until (Q := fun v => p.Represents (e.state v)) hfrom h ?_
    intro w hw hlt hrepresents
    obtain ⟨hpossible, hnext⟩ := hrepresents.step
    rwa [hstay _ hpossible (hfirst w hw (by omega))] at hnext
  exact ⟨u, hle, hu, hfirst, hthere, (hthere u hle (Nat.le_refl u)).step.2⟩

/-- The phases before the bus cycle of a request. -/
inductive Pending (r : Source) : Phase → Prop where
  | sent : Pending r (sent r)
  | arrived : Pending r (arrived r)
  | received : Pending r (received r)

/-- The phases after the bus cycle of a request, up to the next one. -/
inductive Done : Phase → Prop where
  | answered {r : Source} {dat : Word} : Done (answered r dat)
  | clearing {r : Source} {dat : Word} : Done (clearing r dat)
  | cleared {r : Source} {dat : Word} : Done (cleared r dat)
  | dropped {dat : Word} : Done (dropped dat)
  | idle : Done idle

/-- Only a request leads to another bus cycle. -/
theorem Done.next (h : Done p) {event : Event} (hevent : ¬ event.IsRequest) :
    Done (p.next event) := by
  cases event with
  | request we adr data => exact absurd trivial hevent
  | sample => exact h
  | clear => cases h <;> constructor
  | edge arrivals ack dat =>
      cases h with
      | clearing => cases arrivals <;> constructor
      | _ => constructor

/-- After the bus cycle there is no other one up to the next request. -/
theorem Done.kept (h : Done p) (hp : p.Represents (e.state t)) (hle : t ≤ u)
    (hquiet : ∀ v, t ≤ v → v < u → ¬ (e.input v).IsRequest) :
    ∃ q, Done q ∧ q.Represents (e.state u) := by
  refine Machine.Execution.kept_until (Q := fun v => ∃ q, Done q ∧ q.Represents (e.state v)) hle
    ⟨p, h, hp⟩ ?_
  rintro v hfrom hto ⟨q, hdone, hq⟩
  exact ⟨_, hdone.next (hquiet v hfrom hto), hq.step.2⟩

/-- Before the bus cycle, nothing is on the bus and the probe is 0. -/
theorem Pending.quiet (h : Pending r p) : p.bus = none ∧ p.tx = .zero := by
  cases h <;> exact ⟨rfl, rfl⟩

/-- After the bus cycle, nothing is on the bus. -/
theorem Done.quiet (h : Done p) : p.bus = none := by
  cases h <;> rfl

/-- A request waits for its arrival at `vw_rx_bus`. -/
theorem next_sent {event : Event} (h : (sent r).Possible event) (hwaits : ¬ event.Arrives) :
    (sent r).next event = sent r := by
  cases event with
  | edge arrivals ack dat => exact if_pos (Decidable.not_not.1 hwaits)
  | sample => rfl
  | clear => rfl
  | request we adr data => cases h

/-- A request waits for the next edges of sys_clk. -/
theorem next_of_not_edge {event : Event} (h : p.Possible event) (hwaits : ¬ event.IsEdge)
    (hidle : p ≠ idle) (hanswered : ∀ r dat, p ≠ answered r dat) : p.next event = p := by
  cases event with
  | edge arrivals ack dat => exact absurd trivial hwaits
  | sample => rfl
  | clear =>
      obtain ⟨r, dat, rfl⟩ := h
      exact absurd rfl (hanswered r dat)
  | request we adr data => exact absurd h hidle

/-- The bus cycle waits for the slave. -/
theorem next_busy {event : Event} (h : (busy r).Possible event) (hwaits : ¬ event.Acks) :
    (busy r).next event = busy r := by
  cases event with
  | edge arrivals ack dat => exact if_neg hwaits
  | sample => rfl
  | clear => rfl
  | request we adr data => cases h

/-- The answer stays until the host clears the request. -/
theorem next_answered {event : Event} (h : (answered r dat).Possible event)
    (hclear : event ≠ .clear) : (answered r dat).next event = answered r dat := by
  cases event with
  | edge arrivals ack dat => rfl
  | sample => rfl
  | clear => exact absurd rfl hclear
  | request we adr data => cases h

/-- A request reaches the bus. -/
theorem Represents.to_bus (h : (sent r).Represents (e.state t)) (hfair : Fair e) :
    ∃ s, t < s ∧ (busy r).Represents (e.state s) ∧
      ∀ v, t ≤ v → v < s → ∃ p, Pending r p ∧ p.Represents (e.state v) := by
  have hedge : ∀ event : Event, event.IsEdge → (arrived r).next event = received r ∧
      (received r).next event = busy r := by
    intro event hevent
    cases event with
    | edge arrivals ack dat => exact ⟨rfl, rfl⟩
    | sample => cases hevent
    | clear => cases hevent
    | request we adr data => cases hevent
  have hflight : (e.state t).flight ≠ [] := by
    rw [h.flight]
    exact List.cons_ne_nil _ _
  obtain ⟨u₁, hle₁, harrives, -, hsent, h₁⟩ :=
    h.pass (fun _ => next_sent) (hfair.arrives t hflight)
  have harrived : (sent r).next (e.input u₁) = arrived r := by
    cases hevent : e.input u₁ with
    | edge arrivals ack dat =>
        rw [hevent] at harrives
        exact if_neg harrives
    | sample | clear | request we adr data =>
        rw [hevent] at harrives
        cases harrives
  rw [harrived] at h₁
  obtain ⟨u₂, hle₂, hedge₂, -, harrived, h₂⟩ :=
    h₁.pass (fun _ hp hw => next_of_not_edge hp hw nofun nofun) (hfair.clocked (u₁ + 1))
  rw [(hedge _ hedge₂).1] at h₂
  obtain ⟨u₃, hle₃, hedge₃, -, hreceived, h₃⟩ :=
    h₂.pass (fun _ hp hw => next_of_not_edge hp hw nofun nofun) (hfair.clocked (u₂ + 1))
  rw [(hedge _ hedge₃).2] at h₃
  refine ⟨u₃ + 1, by omega, h₃, fun v hfrom hto => ?_⟩
  by_cases hv₁ : v ≤ u₁
  · exact ⟨_, .sent, hsent v hfrom hv₁⟩
  by_cases hv₂ : v ≤ u₂
  · exact ⟨_, .arrived, harrived v (by omega) hv₂⟩
  · exact ⟨_, .received, hreceived v (by omega) (by omega)⟩

/-- A bus cycle is answered. -/
theorem Represents.to_answer (h : (busy r).Represents (e.state t)) (hfair : Fair e) :
    ∃ a dat, t ≤ a ∧ (∃ arrivals, e.input a = .edge arrivals true dat) ∧
      (∀ v, t ≤ v → v < a → ¬ (e.input v).Acks) ∧
      (∀ v, t ≤ v → v ≤ a → (busy r).Represents (e.state v)) ∧
      (answered r dat).Represents (e.state (a + 1)) := by
  obtain ⟨a, hle, hacks, hfirst, hbusy, hnext⟩ :=
    h.pass (fun _ => next_busy) (hfair.answers t h.cyc)
  cases hevent : e.input a with
  | edge arrivals ack dat =>
      rw [hevent] at hacks hnext
      obtain rfl : ack = true := hacks
      exact ⟨a, dat, hle, ⟨arrivals, hevent⟩, hfirst, hbusy, hnext⟩
  | sample | clear | request we adr data =>
      rw [hevent] at hacks
      cases hacks

/-- An answer stays until the host clears the request. -/
theorem Represents.answer_kept (h : (answered r dat).Represents (e.state t)) (hle : t ≤ u)
    (hclear : ∀ v, t ≤ v → v < u → e.input v ≠ .clear) :
    (answered r dat).Represents (e.state u) := by
  refine Machine.Execution.kept_until (Q := fun v => (answered r dat).Represents (e.state v)) hle h
    fun v hfrom hto hv => ?_
  obtain ⟨hpossible, hnext⟩ := hv.step
  rwa [next_answered hpossible (hclear v hfrom hto)] at hnext

end Phase

open Phase (exists_represents)

/-- In every fair run, each request of the host is performed exactly once. -/
theorem performed_once (e : bridge.Execution) (hfair : Fair e) : ExactlyOnce e where
  before v hquiet := by
    have hzero : Phase.idle.Represents (e.state 0) := Phase.represents_of_initial e.initial
    obtain ⟨q, hdone, hq⟩ :=
      Phase.Done.idle.kept hzero (Nat.zero_le v) fun u _ hlt => hquiet u hlt
    rw [hq.cyc, hq.stb, hdone.quiet]
    exact ⟨rfl, rfl⟩
  performed t we adr data hevent := by
    obtain ⟨p, hp⟩ := exists_represents e t
    have hsent : (Phase.sent ⟨true, we, adr, data⟩).Represents (e.state (t + 1)) := by
      have hnext := hp.step.2
      rwa [hevent] at hnext
    obtain ⟨s, hs, hbusy, hpending⟩ := hsent.to_bus hfair
    obtain ⟨a, dat, ha, hacked, hfirst, hcycle, hanswered⟩ := hbusy.to_answer hfair
    refine ⟨s, a, dat, by omega, ⟨hacked, hfirst⟩, ?_, ?_, ?_⟩
    · exact fun v hfrom hto => (hcycle v hfrom hto).bus _ rfl
    · intro v hv hquiet
      by_cases hbefore : v < s
      · obtain ⟨q, hq, hrep⟩ := hpending v hv hbefore
        rw [hrep.cyc, hrep.stb, hq.quiet.1, decide_eq_false (by omega)]
        exact ⟨rfl, rfl⟩
      · by_cases hduring : v ≤ a
        · have hrep := hcycle v (by omega) hduring
          rw [hrep.cyc, hrep.stb, decide_eq_true (by omega)]
          exact ⟨rfl, rfl⟩
        · obtain ⟨q, hdone, hrep⟩ := Phase.Done.answered.kept hanswered (u := v) (by omega)
            fun u hfrom hlt => hquiet u (by omega) hlt
          rw [hrep.cyc, hrep.stb, hdone.quiet, decide_eq_false (by omega)]
          exact ⟨rfl, rfl⟩
    · intro v hv hclear
      by_cases hbefore : v < s
      · obtain ⟨q, hq, hrep⟩ := hpending v hv hbefore
        rw [hrep.tx, hq.quiet.2, if_neg (by omega)]
      · by_cases hduring : v ≤ a
        · rw [(hcycle v (by omega) hduring).tx, if_neg (by omega)]
          rfl
        · have hrep := hanswered.answer_kept (u := v) (by omega)
            fun u hfrom hlt => hclear u (by omega) hlt
          rw [hrep.tx, if_pos (by omega)]
          rfl

/-- The bridge at power-up. -/
def powerUp : Bridge := ⟨⟨0, 0, false, false, false, .zero, .zero⟩, .zero, [], .cleared, none⟩

/-- The host sees JBUS at 0 and asks for a word, and the slave answers at once. -/
def readWord : Nat → Event
  | 0 => .sample
  | 1 => .request false 0x40000010 0
  | _ => .edge 1 true 0x12345678

/-- What the host does is what the handshake says. -/
theorem readWord_allowed (t : Nat) :
    bridge.Allowed (Machine.Execution.states bridge powerUp readWord t) (readWord t) :=
  match t with
  | 0 => trivial
  | 1 => ⟨rfl, rfl⟩
  | _ + 2 => trivial

/-- The run in which the host asks for a word. -/
def readRun : bridge.Execution :=
  .ofInputs powerUp readWord ⟨rfl, rfl, rfl, rfl, rfl⟩ readWord_allowed

/-- From step 2 on there are only edges. -/
theorem readRun_fair : Fair readRun where
  clocked t := ⟨t + 2, Nat.le_add_right t 2, trivial⟩
  arrives t _ := ⟨t + 2, Nat.le_add_right t 2, Nat.one_ne_zero⟩
  answers t _ := ⟨t + 2, Nat.le_add_right t 2, rfl⟩

/-- The word is read once. -/
theorem performed_once_read : ∃ s a dat, Performed readRun 1 ⟨true, false, 0x40000010, 0⟩ s a dat :=
  (performed_once readRun readRun_fair).performed 1 _ _ _ rfl

end Soc.Jtag
