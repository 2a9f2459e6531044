import Soc.Jtag.Bridge

/-!
# The phases of a request

A request goes from the host to the registers of `jtag`, is performed on the bus and answered, and
is taken back again. The host only acts in two of these phases: it sets a request when JBUS is 0
everywhere, and JBUS to 0 when the request is answered, because only then it can have seen what it
waits for. So no source word is ever overtaken by another one.
-/

namespace Soc.Jtag

/-- Where the bridge is with a request: JBUS is 0 everywhere; the request is on its way, has arrived
at `vw_rx_bus` or in `rx`; the bus cycle is on; it is answered; the host has set JBUS to 0 again,
which is on its way, has arrived at `vw_rx_bus` or in `rx`. -/
inductive Phase where
  | idle
  | sent (r : Source)
  | arrived (r : Source)
  | received (r : Source)
  | busy (r : Source)
  | answered (r : Source) (dat : Word)
  | clearing (r : Source) (dat : Word)
  | cleared (r : Source) (dat : Word)
  | dropped (dat : Word)

namespace Phase

/-- The source words on their way. -/
def flight : Phase → List Source
  | sent r => [r]
  | clearing _ _ => [.zero]
  | _ => []

/-- The source word at `vw_rx_bus`. -/
def vwRxBus : Phase → Source
  | arrived r | received r | busy r | answered r _ | clearing r _ => r
  | _ => .zero

/-- The source word in `rx`. -/
def rx : Phase → Source
  | received r | busy r | answered r _ | clearing r _ | cleared r _ => r
  | _ => .zero

/-- The probe. -/
def tx : Phase → Probe
  | answered _ dat | clearing _ dat | cleared _ dat | dropped dat => ⟨true, dat⟩
  | _ => .zero

/-- The request of a bus cycle. -/
def bus : Phase → Option Source
  | busy r => some r
  | _ => none

/-- What the host has done last. -/
def host : Phase → HostPhase
  | sent _ | arrived _ | received _ | busy _ | answered _ _ => .requested
  | _ => .cleared

/-- The request of a phase is one. -/
def Valid : Phase → Prop
  | sent r | arrived r | received r | busy r | answered r _ | clearing r _ | cleared r _ =>
      r.request = true
  | _ => True

/-- The phase after an edge of sys_clk. -/
def edge (arrivals : Nat) (ack : Bool) (dat : Word) : Phase → Phase
  | sent r => if arrivals = 0 then sent r else arrived r
  | arrived r => received r
  | received r => busy r
  | busy r => if ack then answered r dat else busy r
  | clearing r d => if arrivals = 0 then clearing r d else cleared r d
  | cleared _ d => dropped d
  | dropped _ => idle
  | p => p

/-- The phase after an event. -/
def next (p : Phase) : Event → Phase
  | .edge arrivals ack dat => p.edge arrivals ack dat
  | .sample => p
  | .clear =>
      match p with
      | answered r d => clearing r d
      | p => p
  | .request we adr data => sent ⟨true, we, adr, data⟩

/-- The registers are those of a phase, and the host has seen what it waits for only in the phase in
which it may go on. -/
structure Represents (p : Phase) (s : Bridge) : Prop where
  valid : p.Valid
  flight : s.flight = p.flight
  vwRxBus : s.vwRxBus = p.vwRxBus
  rx : s.jtag.rx = p.rx
  tx : s.jtag.tx = p.tx
  cyc : s.jtag.wbCycO = p.bus.isSome
  stb : s.jtag.wbStbO = p.bus.isSome
  bus : ∀ r ∈ p.bus, s.jtag.wbAdrO = r.adr ∧ s.jtag.wbDatO = r.data ∧ s.jtag.wbWeO = r.we
  host : s.host = p.host
  zero : s.host = .cleared → s.seen = some .zero → p = idle
  notZero : s.host = .requested → ∀ probe, s.seen = some probe → probe ≠ .zero →
    ∃ r dat, p = answered r dat

variable {p : Phase} {s : Bridge} {arrivals : Nat} {ack : Bool} {dat : Word}

/-- The source words that are left after an edge, and those at `vw_rx_bus` and in `rx`. -/
theorem edge_wire (p : Phase) (arrivals : Nat) (ack : Bool) (dat : Word) :
    p.flight.drop arrivals = (p.edge arrivals ack dat).flight ∧
      (p.flight.take arrivals).getLast?.getD p.vwRxBus = (p.edge arrivals ack dat).vwRxBus ∧
      p.vwRxBus = (p.edge arrivals ack dat).rx := by
  cases p with
  | sent r | clearing r d =>
      cases arrivals with
      | zero => exact ⟨rfl, rfl, rfl⟩
      | succ n => simp [flight, vwRxBus, rx, edge]
  | busy r => cases ack <;> cases arrivals <;> exact ⟨rfl, rfl, rfl⟩
  | idle | arrived r | received r | answered r d | cleared r d | dropped d =>
      cases arrivals <;> exact ⟨rfl, rfl, rfl⟩

/-- An edge of sys_clk does not change what the host has done. -/
theorem host_edge (p : Phase) (arrivals : Nat) (ack : Bool) (dat : Word) :
    (p.edge arrivals ack dat).host = p.host := by
  cases p with
  | sent r | clearing r d => cases arrivals <;> rfl
  | busy r => cases ack <;> rfl
  | _ => rfl

/-- The request of a phase stays one. -/
theorem Valid.edge (h : p.Valid) (arrivals : Nat) (ack : Bool) (dat : Word) :
    (p.edge arrivals ack dat).Valid := by
  cases p with
  | sent r | clearing r d => cases arrivals <;> exact h
  | busy r => cases ack <;> exact h
  | idle | dropped d | cleared r d => trivial
  | arrived r | received r | answered r d => exact h

/-- The registers of `jtag` after an edge of sys_clk. -/
theorem Represents.edge_registers (h : p.Represents s) (arrivals : Nat) (ack : Bool) (dat : Word) :
    let j := s.jtag.next s.vwRxBus ack dat
    let q := p.edge arrivals ack dat
    j.tx = q.tx ∧ j.wbCycO = q.bus.isSome ∧ j.wbStbO = q.bus.isSome ∧
      ∀ r ∈ q.bus, j.wbAdrO = r.adr ∧ j.wbDatO = r.data ∧ j.wbWeO = r.we := by
  obtain ⟨hvalid, -, -, hrx, htx, hcyc, hstb, hbus, -, -, -⟩ := h
  unfold Registers.next
  dsimp only
  rw [hrx, hcyc, hstb]
  cases p with
  | busy r =>
      cases ack with
      | true => simp [Phase.bus, Phase.tx, Phase.edge]
      | false => exact ⟨htx, hcyc, hstb, hbus⟩
  | received r =>
      have hrequest : (Phase.received r).rx.request = true := hvalid
      have hack : s.jtag.tx.txAck = false := by
        rw [htx]
        rfl
      simp only [hrequest, hack]
      exact ⟨htx, rfl, rfl, fun r' hr' => by cases hr'; exact ⟨rfl, rfl, rfl⟩⟩
  | answered r d =>
      have hrequest : (Phase.answered r d).rx.request = true := hvalid
      have hack : s.jtag.tx.txAck = true := by
        rw [htx]
        rfl
      simp only [hrequest, hack]
      exact ⟨htx, hcyc, hstb, nofun⟩
  | clearing r d =>
      have hrequest : (Phase.clearing r d).rx.request = true := hvalid
      have hack : s.jtag.tx.txAck = true := by
        rw [htx]
        rfl
      simp only [hrequest, hack]
      cases arrivals <;> exact ⟨htx, hcyc, hstb, nofun⟩
  | cleared r d =>
      have hrequest : (Phase.cleared r d).rx.request = true := hvalid
      have hack : s.jtag.tx.txAck = true := by
        rw [htx]
        rfl
      simp only [hrequest, hack]
      exact ⟨htx, hcyc, hstb, nofun⟩
  | sent r => cases arrivals <;> exact ⟨rfl, rfl, rfl, nofun⟩
  | idle | arrived r | dropped d => exact ⟨rfl, rfl, rfl, nofun⟩

/-- An edge leaves the host where it may go on. -/
theorem Represents.edge (h : p.Represents s) (arrivals : Nat) (ack : Bool) (dat : Word) :
    (p.edge arrivals ack dat).Represents (s.next (.edge arrivals ack dat)) := by
  obtain ⟨htx, hcyc, hstb, hbus⟩ := h.edge_registers arrivals ack dat
  obtain ⟨hflight, hvwRxBus, hrx⟩ := edge_wire p arrivals ack dat
  refine ⟨h.valid.edge arrivals ack dat, ?_, ?_, ?_, htx, hcyc, hstb, hbus, ?_, ?_, ?_⟩
  · show s.flight.drop arrivals = _
    rw [h.flight, hflight]
  · show (s.flight.take arrivals).getLast?.getD s.vwRxBus = _
    rw [h.flight, h.vwRxBus, hvwRxBus]
  · show s.vwRxBus = _
    rw [h.vwRxBus, hrx]
  · rw [host_edge]
    exact h.host
  · intro hhost hseen
    rw [h.zero hhost hseen]
    rfl
  · intro hhost probe hseen hne
    obtain ⟨r, d, rfl⟩ := h.notZero hhost probe hseen hne
    exact ⟨r, d, rfl⟩

/-- What the host samples tells it the phase. -/
theorem Represents.sample (h : p.Represents s) : p.Represents (s.next .sample) := by
  have hhost := h.host
  have htx := h.tx
  refine ⟨h.valid, h.flight, h.vwRxBus, h.rx, htx, h.cyc, h.stb, h.bus, hhost, ?_, ?_⟩
  · intro hcleared hseen
    have hzero : p.tx = .zero := htx.symm.trans (Option.some.inj hseen)
    have hphase : p.host = .cleared := hhost.symm.trans hcleared
    cases p with
    | idle => rfl
    | clearing r d | cleared r d | dropped d => cases hzero
    | sent r | arrived r | received r | busy r | answered r d => cases hphase
  · intro hrequested probe hseen hne
    have hprobe : p.tx = probe := htx.symm.trans (Option.some.inj hseen)
    have hphase : p.host = .requested := hhost.symm.trans hrequested
    cases p with
    | answered r d => exact ⟨r, d, rfl⟩
    | sent r | arrived r | received r | busy r => exact absurd hprobe.symm hne
    | idle | clearing r d | cleared r d | dropped d => cases hphase

/-- The host only sets JBUS to 0 when the request is answered. -/
theorem Represents.answered_of_clear (h : p.Represents s) (hallowed : s.Allowed .clear) :
    ∃ r dat, p = answered r dat := by
  obtain ⟨hhost, probe, hseen, hne⟩ := hallowed
  exact h.notZero hhost probe hseen hne

/-- The host only sets a request when JBUS is 0 everywhere. -/
theorem Represents.idle_of_request (h : p.Represents s) (we : Bool) (adr data : Word)
    (hallowed : s.Allowed (.request we adr data)) : p = idle :=
  h.zero hallowed.1 hallowed.2

/-- Every event takes the registers to the next phase. -/
theorem Represents.next (h : p.Represents s) {event : Event} (hallowed : s.Allowed event) :
    (p.next event).Represents (s.next event) := by
  cases event with
  | edge arrivals ack dat => exact h.edge arrivals ack dat
  | sample => exact h.sample
  | clear =>
      obtain ⟨r, dat, rfl⟩ := h.answered_of_clear hallowed
      refine ⟨h.valid, ?_, h.vwRxBus, h.rx, h.tx, h.cyc, h.stb, h.bus, rfl, nofun, nofun⟩
      show s.flight ++ [.zero] = _
      rw [h.flight]
      rfl
  | request we adr data =>
      obtain rfl := h.idle_of_request we adr data hallowed
      refine ⟨rfl, ?_, h.vwRxBus, h.rx, h.tx, h.cyc, h.stb, h.bus, rfl, nofun, nofun⟩
      show s.flight ++ [_] = _
      rw [h.flight]
      rfl

/-- At power-up JBUS is 0 everywhere. -/
theorem represents_of_initial (h : s.Initial) : idle.Represents s := by
  obtain ⟨hjtag, hvwRxBus, hflight, hhost, hseen⟩ := h
  refine ⟨trivial, hflight, hvwRxBus, ?_, ?_, ?_, ?_, nofun, hhost, fun _ _ => rfl, ?_⟩
  · rw [hjtag]
    rfl
  · rw [hjtag]
    rfl
  · rw [hjtag]
    rfl
  · rw [hjtag]
    rfl
  · intro hrequested
    rw [hhost] at hrequested
    cases hrequested

end Phase

end Soc.Jtag
