import Soc.Minimac2.Phase

/-!
# Every transmit request is sent once

A run of the transmit path in which both clocks keep ticking. What the PHY sees is read off at
the edges of phy_tx_clk, one entry for each cycle such an edge begins. The main theorem is
`transmitted_once`: a request takes the path through its phases, whatever the order of the edges,
and each phase ends at the first edge of the clock it waits for.
-/

namespace Soc.Minimac2

open Library (Machine)

variable {csrAddr : BitVec 4}

section Statement

variable (e : (txPath csrAddr).Execution)

/-- Both clocks keep ticking. -/
structure Running : Prop where
  sys : ∀ t, ∃ u, t ≤ u ∧ (e.input u).sys.isSome = true
  phy : ∀ t, ∃ u, t ≤ u ∧ (e.input u).phy = true

/-- What the PHY sees in the cycles of phy_tx_clk that begin from step `t` to step `d`. -/
def seen (t d : Nat) : List (Option Nibble) :=
  ((List.range' t (d - t)).filter fun u => (e.input u).phy).map fun u => (e.state (u + 1)).tx.wire

/-- An edge of sys_clk at step `u` sees `irq_tx`. -/
def irqAt (u : Nat) : Bool := (e.state u).irqTx (e.input u)

/-- The value written to TXCOUNT at step `u`. -/
def requestAt (u : Nat) : Option (BitVec 11) := (e.input u).request csrAddr

/-- The frame of `n` bytes in a buffer. -/
def frame (n : BitVec 11) (txb : BitVec 11 → Byte) : List Nibble :=
  (List.range (2 * n.toNat)).map (nibble txb)

/-- From step `t` to step `d` nothing is transmitted, no interrupt comes and TXCOUNT reads 0. -/
structure Silent (t d : Nat) : Prop where
  seen : ∃ i, seen e t d = List.replicate i none
  phyTxEn : ∀ u, t ≤ u → u ≤ d → (e.state u).tx.phyTxEn = false
  irq : ∀ u, t ≤ u → u < d → irqAt e u = false
  txCount : ∀ u, t ≤ u → u ≤ d → (e.state u).ctlif.txCount = 0

/-- From step `t`, which writes `n` to TXCOUNT, to step `d` the frame in the buffer is transmitted,
in one burst. The last edge sees the only interrupt, and leaves TXCOUNT at 0. -/
structure Sent (t d : Nat) (n : BitVec 11) : Prop where
  seen : ∃ i j, seen e t d = List.replicate i none ++
    (frame n (e.state (t + 1)).txb).map some ++ List.replicate j none
  irq : ∀ u, t ≤ u → u < d → (irqAt e u = true ↔ u + 1 = d)
  txCount : (e.state d).ctlif.txCount = 0

/-- Nothing is transmitted before the first request, and each request is sent once, with silence up
to the next one. -/
structure ExactlyOnce : Prop where
  before : ∀ d, (∀ u, u < d → requestAt e u = none) → Silent e 0 d
  sent : ∀ t n, requestAt e t = some n → ∃ d, t < d ∧ Sent e t d n ∧
    ∀ d', d ≤ d' → (∀ u, d ≤ u → u < d' → requestAt e u = none) → Silent e d d'

end Statement

variable {e : (txPath csrAddr).Execution} {n : BitVec 11} {txb : BitVec 11 → Byte} {p q : Phase}
  {t d u : Nat}

/-- The PHY sees one entry for each edge of phy_tx_clk. -/
theorem mem_seen {x : Option Nibble} (h : x ∈ seen e t d) :
    ∃ u, t ≤ u ∧ u < d ∧ x = (e.state (u + 1)).tx.wire := by
  obtain ⟨u, hu, rfl⟩ := List.mem_map.1 h
  have hrange := List.mem_range'_1.1 (List.mem_filter.1 hu).1
  exact ⟨u, hrange.1, by omega, rfl⟩

/-- What the PHY sees in two stretches of a run. -/
theorem seen_append (htd : t ≤ d) (hdu : d ≤ u) : seen e t u = seen e t d ++ seen e d u := by
  unfold seen
  have hlength : u - t = (d - t) + (u - d) := by omega
  have hstart : t + 1 * (d - t) = d := by omega
  rw [hlength, ← List.range'_append, hstart, List.filter_append, List.map_append]

/-- Without an edge of phy_tx_clk the PHY sees nothing new. -/
theorem seen_eq_nil (h : ∀ u, t ≤ u → u < d → ¬ (e.input u).phy = true) : seen e t d = [] := by
  unfold seen
  rw [List.map_eq_nil_iff, List.filter_eq_nil_iff]
  intro u hu
  have hrange := List.mem_range'_1.1 hu
  exact h u hrange.1 (by omega)

/-- What the PHY sees of an edge of phy_tx_clk. -/
theorem seen_succ (h : (e.input u).phy = true) :
    seen e u (u + 1) = [(e.state (u + 1)).tx.wire] := by
  unfold seen
  rw [Nat.add_sub_cancel_left]
  show ((List.filter _ [u]).map _) = _
  rw [List.filter_cons_of_pos (p := fun u => (e.input u).phy) h]
  rfl

namespace Phase

/-- The registers always agree with some phase. -/
theorem exists_represents (e : (txPath csrAddr).Execution) (t : Nat) :
    ∃ n txb, ∃ p : Phase, p.Represents n txb (e.state t) := by
  refine e.invariant (P := fun s => ∃ n txb, ∃ p : Phase, p.Represents n txb s)
    (fun s hinit => ⟨0, s.txb, idle, represents_of_initial hinit _ _⟩) ?_ t
  rintro s x ⟨n, txb, p, h⟩ hallowed
  cases hrequest : x.request csrAddr with
  | none => exact ⟨n, txb, _, h.next hallowed (by rw [hrequest]; exact nofun)⟩
  | some m =>
      obtain ⟨rfl, -⟩ := h.of_request hallowed hrequest
      refine ⟨m, s.nextTxb x, _, (h.congr_idle m _).next hallowed fun m' hm' => ?_⟩
      rw [hrequest] at hm'
      exact ⟨Option.some.inj hm', rfl⟩

/-- A step in the middle of a transmission. -/
theorem Represents.step (h : p.Represents n txb (e.state t)) (hbusy : p ≠ idle) :
    (p.next n false (e.input t).sys.isSome (e.input t).phy).Represents n txb
      (e.state (t + 1)) := by
  have hnone : (e.input t).request csrAddr = none := by
    cases hrequest : (e.input t).request csrAddr with
    | none => rfl
    | some m => exact absurd (h.of_request (e.allowed t) hrequest).1 hbusy
  have hnext := h.next (e.allowed t) (by rw [hnone]; exact nofun)
  rw [hnone] at hnext
  rw [e.step t]
  exact hnext

/-- A step between transmissions. -/
theorem Represents.step_idle (h : idle.Represents n txb (e.state t))
    (hnone : requestAt e t = none) : idle.Represents n txb (e.state (t + 1)) := by
  have hnone' : (e.input t).request csrAddr = none := hnone
  have hnext := h.next (e.allowed t) (by rw [hnone']; exact nofun)
  rw [hnone'] at hnext
  rw [e.step t]
  exact hnext

/-- A request starts a transmission. -/
theorem Represents.step_request (h : p.Represents n txb (e.state t)) {m : BitVec 11}
    (hrequest : requestAt e t = some m) :
    loaded.Represents m (e.state (t + 1)).txb (e.state (t + 1)) := by
  obtain ⟨rfl, -⟩ := h.of_request (e.allowed t) hrequest
  have hrequest' : (e.input t).request csrAddr = some m := hrequest
  have hnext :=
    (h.congr_idle m ((e.state t).nextTxb (e.input t))).next (e.allowed t) fun m' hm' => by
    rw [hrequest'] at hm'
    exact ⟨Option.some.inj hm', rfl⟩
  rw [hrequest'] at hnext
  rw [e.step t]
  exact hnext

/-- The PHY sees nothing of a transmitter that rests. -/
theorem Represents.wire_eq_none {s : TxPath} (h : p.Represents n txb s)
    (hsending : ∀ k, p ≠ sending k) : s.tx.wire = none := by
  rw [Tx.wire, (h.rests hsending).2]
  rfl

/-- An interrupt comes at the end of a transmission only. -/
theorem Represents.irqAt_eq (h : p.Represents n txb (e.state t)) :
    irqAt e t = ((e.input t).sys.isSome && decide (p = toSoftware .level2)) :=
  h.irqTx_eq

/-- A phase lasts while its clock has no edge. -/
theorem Represents.stays (h : p.Represents n txb (e.state t)) (hbusy : p ≠ idle)
    (hstay : ∀ v, t ≤ v → v < u → p.next n false (e.input v).sys.isSome (e.input v).phy = p) :
    ∀ v, t ≤ v → v ≤ u → p.Represents n txb (e.state v) := by
  intro v hfrom hto
  refine Machine.Execution.kept_until (Q := fun w => p.Represents n txb (e.state w)) hfrom h ?_
  intro w hw hlt hrepresents
  have hstep := hrepresents.step hbusy
  rw [hstay w hw (by omega)] at hstep
  exact hstep

end Phase

/-- From step `t` to step `d` the PHY sees `out`, and no interrupt comes. -/
structure Passes (e : (txPath csrAddr).Execution) (t d : Nat) (out : List (Option Nibble)) :
    Prop where
  le : t ≤ d
  seen : seen e t d = out
  irq : ∀ u, t ≤ u → u < d → irqAt e u = false

/-- One stretch of a run after another. -/
theorem Passes.trans {out out' : List (Option Nibble)} (h : Passes e t d out)
    (h' : Passes e d u out') : Passes e t u (out ++ out') where
  le := Nat.le_trans h.le h'.le
  seen := by rw [seen_append h.le h'.le, h.seen, h'.seen]
  irq v hfrom hto := by
    by_cases hv : v < d
    · exact h.irq v hfrom hv
    · exact h'.irq v (Nat.le_of_not_lt hv) hto

namespace Phase

/-- A phase that waits for phy_tx_clk ends at the first edge of it, which the PHY sees. -/
theorem Represents.pass_phy (h : p.Represents n txb (e.state t)) (hrun : Running e)
    (hbusy : p ≠ idle) (hdone : p ≠ toSoftware .level2)
    (hstay : ∀ sys, p.next n false sys false = p) (hgo : ∀ sys, p.next n false sys true = q) :
    ∃ d, q.Represents n txb (e.state d) ∧ Passes e t d [(e.state d).tx.wire] := by
  obtain ⟨u, hle, htick, hfirst⟩ := Machine.Execution.first_from hrun.phy t
  have hthere := h.stays hbusy fun v hfrom hlt => by
    rw [Bool.eq_false_iff.2 (hfirst v hfrom hlt)]
    exact hstay _
  refine ⟨u + 1, ?_, Nat.le_succ_of_le hle, ?_, fun v hfrom hto => ?_⟩
  · have hstep := (hthere u hle (Nat.le_refl u)).step hbusy
    rw [htick, hgo] at hstep
    exact hstep
  · rw [seen_append hle (Nat.le_succ u), seen_eq_nil hfirst, seen_succ htick]
    rfl
  · rw [(hthere v hfrom (by omega)).irqAt_eq, decide_eq_false hdone, Bool.and_false]

/-- A phase that waits for sys_clk ends at the first edge of it. -/
theorem Represents.pass_sys (h : p.Represents n txb (e.state t)) (hrun : Running e)
    (hbusy : p ≠ idle) (hp : ∀ k, p ≠ sending k) (hq : ∀ k, q ≠ sending k)
    (hstay : ∀ phy, p.next n false false phy = p) (hgo : ∀ phy, p.next n false true phy = q) :
    ∃ u, t ≤ u ∧ q.Represents n txb (e.state (u + 1)) ∧
      (∀ x ∈ seen e t (u + 1), x = none) ∧
      (∀ v, t ≤ v → v < u + 1 → (irqAt e v = true ↔ p = toSoftware .level2 ∧ v = u)) := by
  obtain ⟨u, hle, htick, hfirst⟩ := Machine.Execution.first_from hrun.sys t
  have hthere := h.stays hbusy fun v hfrom hlt => by
    rw [Bool.eq_false_iff.2 (hfirst v hfrom hlt)]
    exact hstay _
  have hnext : q.Represents n txb (e.state (u + 1)) := by
    have hstep := (hthere u hle (Nat.le_refl u)).step hbusy
    rw [htick, hgo] at hstep
    exact hstep
  refine ⟨u, hle, hnext, fun x hx => ?_, fun v hfrom hto => ?_⟩
  · obtain ⟨v, hfrom, hto, rfl⟩ := mem_seen hx
    obtain hlt | rfl : v < u ∨ v = u := by omega
    · exact (hthere (v + 1) (by omega) hlt).wire_eq_none hp
    · exact hnext.wire_eq_none hq
  · rw [(hthere v hfrom (by omega)).irqAt_eq, Bool.and_eq_true, decide_eq_true_iff]
    obtain hlt | rfl : v < u ∨ v = u := by omega
    · have hne : v ≠ u := by omega
      simp [hfirst v hfrom hlt, hne]
    · simp [htick]

end Phase

/-- From step `t` to step `d` the PHY sees nothing, and no interrupt comes. -/
def Quiet (e : (txPath csrAddr).Execution) (t d : Nat) : Prop :=
  ∃ i, Passes e t d (List.replicate i none)

/-- One quiet stretch after another. -/
theorem Quiet.trans (h : Quiet e t d) (h' : Quiet e d u) : Quiet e t u := by
  obtain ⟨i, hi⟩ := h
  obtain ⟨j, hj⟩ := h'
  refine ⟨i + j, ?_⟩
  rw [← List.replicate_append_replicate]
  exact hi.trans hj

namespace Phase

/-- An edge of phy_tx_clk after which the PHY sees nothing. -/
theorem Represents.quiet_phy (h : p.Represents n txb (e.state t)) (hrun : Running e)
    (hbusy : p ≠ idle) (hdone : p ≠ toSoftware .level2)
    (hstay : ∀ sys, p.next n false sys false = p) (hgo : ∀ sys, p.next n false sys true = q)
    (hwire : ∀ s, q.Represents n txb s → s.tx.wire = none) :
    ∃ d, q.Represents n txb (e.state d) ∧ Quiet e t d := by
  obtain ⟨d, hq, hpasses⟩ := h.pass_phy hrun hbusy hdone hstay hgo
  rw [hwire _ hq] at hpasses
  exact ⟨d, hq, 1, hpasses⟩

/-- An edge of sys_clk that does not see the interrupt. -/
theorem Represents.quiet_sys (h : p.Represents n txb (e.state t)) (hrun : Running e)
    (hbusy : p ≠ idle) (hdone : p ≠ toSoftware .level2) (hp : ∀ k, p ≠ sending k)
    (hq : ∀ k, q ≠ sending k)
    (hstay : ∀ phy, p.next n false false phy = p) (hgo : ∀ phy, p.next n false true phy = q) :
    ∃ d, q.Represents n txb (e.state d) ∧ Quiet e t d := by
  obtain ⟨u, hle, hnext, hseen, hirq⟩ := h.pass_sys hrun hbusy hp hq hstay hgo
  refine ⟨u + 1, hnext, _, Nat.le_succ_of_le hle, List.eq_replicate_of_mem hseen,
    fun v hfrom hto => ?_⟩
  rw [← Bool.not_eq_true, hirq v hfrom hto]
  exact fun h => hdone h.1

/-- The pulse of `tx_start` reaches the transmitter. -/
theorem Represents.to_transmitter (h : loaded.Represents n txb (e.state t)) (hrun : Running e) :
    ∃ d, (sending 0).Represents n txb (e.state d) ∧ Quiet e t d := by
  obtain ⟨d₁, h₁, hquiet₁⟩ : ∃ d, (toTransmitter .toggled).Represents n txb (e.state d) ∧
      Quiet e t d :=
    h.quiet_sys hrun nofun nofun nofun nofun (fun _ => rfl) (fun _ => rfl)
  obtain ⟨d₂, h₂, hquiet₂⟩ : ∃ d, (toTransmitter .level1).Represents n txb (e.state d) ∧
      Quiet e d₁ d :=
    h₁.quiet_phy hrun nofun nofun (fun _ => rfl) (fun _ => rfl) fun _ hq => hq.wire_eq_none nofun
  obtain ⟨d₃, h₃, hquiet₃⟩ : ∃ d, (toTransmitter .level2).Represents n txb (e.state d) ∧
      Quiet e d₂ d :=
    h₂.quiet_phy hrun nofun nofun (fun _ => rfl) (fun _ => rfl) fun _ hq => hq.wire_eq_none nofun
  obtain ⟨d₄, h₄, hquiet₄⟩ : ∃ d, (sending 0).Represents n txb (e.state d) ∧ Quiet e d₃ d :=
    h₃.quiet_phy hrun nofun nofun (fun _ => rfl) (fun _ => rfl) fun _ hq => hq.transmits.wire
  exact ⟨d₄, h₄, ((hquiet₁.trans hquiet₂).trans hquiet₃).trans hquiet₄⟩

/-- The nibbles go out one by one. -/
theorem Represents.send (h : (sending 0).Represents n txb (e.state t)) (hrun : Running e) {k : Nat}
    (hk : k ≤ 2 * n.toNat) : ∃ d, (sending k).Represents n txb (e.state d) ∧
      Passes e t d ((List.range k).map fun j => some (nibble txb j)) := by
  induction k with
  | zero =>
      refine ⟨t, h, Nat.le_refl t, seen_eq_nil fun v hfrom hto => ?_, fun v hfrom hto => ?_⟩
      · exact absurd hfrom (Nat.not_le_of_lt hto)
      · exact absurd hfrom (Nat.not_le_of_lt hto)
  | succ k ih =>
      obtain ⟨d, hd, hpasses⟩ := ih (Nat.le_of_succ_le hk)
      have hnot : k ≠ 2 * n.toNat := Nat.ne_of_lt hk
      obtain ⟨d', hd', hpasses'⟩ := hd.pass_phy (q := sending (k + 1)) hrun nofun nofun
        (fun _ => rfl) (fun _ => if_neg hnot)
      have hwire : (e.state d').tx.wire = some (nibble txb k) :=
        hd'.transmits.wire.trans (if_neg (Nat.succ_ne_zero k))
      refine ⟨d', hd', ?_⟩
      rw [List.range_succ, List.map_append]
      rw [hwire] at hpasses'
      exact hpasses.trans hpasses'

/-- The pulse of `tx_done` reaches the software. -/
theorem Represents.to_software (h : (sending (2 * n.toNat)).Represents n txb (e.state t))
    (hrun : Running e) :
    ∃ d, (toSoftware .level2).Represents n txb (e.state d) ∧ Quiet e t d := by
  obtain ⟨d₁, h₁, hquiet₁⟩ : ∃ d, (toSoftware .toggled).Represents n txb (e.state d) ∧
      Quiet e t d :=
    h.quiet_phy hrun nofun nofun (fun _ => rfl) (fun _ => if_pos rfl)
      fun _ hq => hq.wire_eq_none nofun
  obtain ⟨d₂, h₂, hquiet₂⟩ : ∃ d, (toSoftware .level1).Represents n txb (e.state d) ∧
      Quiet e d₁ d :=
    h₁.quiet_sys hrun nofun nofun nofun nofun (fun _ => rfl) (fun _ => rfl)
  obtain ⟨d₃, h₃, hquiet₃⟩ : ∃ d, (toSoftware .level2).Represents n txb (e.state d) ∧
      Quiet e d₂ d :=
    h₂.quiet_sys hrun nofun nofun nofun nofun (fun _ => rfl) (fun _ => rfl)
  exact ⟨d₃, h₃, (hquiet₁.trans hquiet₂).trans hquiet₃⟩

/-- Nothing happens between transmissions. -/
theorem Represents.silent (h : idle.Represents n txb (e.state t))
    (hnone : ∀ u, t ≤ u → u < d → requestAt e u = none) : Silent e t d := by
  have hthere : ∀ v, t ≤ v → v ≤ d → idle.Represents n txb (e.state v) := by
    intro v hfrom hto
    refine Machine.Execution.kept_until (Q := fun w => idle.Represents n txb (e.state w)) hfrom h ?_
    exact fun w hw hlt hrepresents => hrepresents.step_idle (hnone w hw (by omega))
  constructor
  · refine ⟨_, List.eq_replicate_of_mem fun x hx => ?_⟩
    obtain ⟨v, hfrom, hto, rfl⟩ := mem_seen hx
    exact (hthere (v + 1) (by omega) hto).wire_eq_none nofun
  · exact fun v hfrom hto => ((hthere v hfrom hto).rests nofun).2
  · intro v hfrom hto
    rw [(hthere v hfrom (Nat.le_of_lt hto)).irqAt_eq, decide_eq_false nofun, Bool.and_false]
  · exact fun v hfrom hto => (hthere v hfrom hto).txCount

/-- A request is sent once. -/
theorem Represents.sent (h : p.Represents n txb (e.state t)) (hrun : Running e) {m : BitVec 11}
    (hrequest : requestAt e t = some m) : ∃ d txb', t < d ∧ Sent e t d m ∧
      idle.Represents m txb' (e.state d) := by
  have hloaded := h.step_request hrequest
  have hstart : Quiet e t (t + 1) := by
    obtain ⟨rfl, -⟩ := h.of_request (e.allowed t) hrequest
    refine ⟨_, Nat.le_succ t, List.eq_replicate_of_mem fun x hx => ?_, fun v hfrom hto => ?_⟩
    · obtain ⟨v, hfrom, hto, rfl⟩ := mem_seen hx
      obtain rfl : v = t := by omega
      exact hloaded.wire_eq_none nofun
    · obtain rfl : v = t := by omega
      rw [h.irqAt_eq, decide_eq_false nofun, Bool.and_false]
  obtain ⟨d₁, hsending, hquiet₁⟩ := hloaded.to_transmitter hrun
  obtain ⟨d₂, hend, hpasses⟩ := hsending.send hrun (Nat.le_refl _)
  obtain ⟨d₃, hdone, hquiet₃⟩ := hend.to_software hrun
  obtain ⟨u, hle, hidle, hseen, hirq⟩ := hdone.pass_sys (q := idle) hrun nofun nofun nofun
    (fun _ => rfl) (fun _ => rfl)
  obtain ⟨i, hbefore⟩ := hstart.trans hquiet₁
  obtain ⟨j, hafter⟩ := hquiet₃
  have hall := (hbefore.trans hpasses).trans hafter
  obtain ⟨k, hlast⟩ : ∃ k, seen e d₃ (u + 1) = List.replicate k none :=
    ⟨_, List.eq_replicate_of_mem hseen⟩
  refine ⟨u + 1, _, Nat.lt_succ_of_le (Nat.le_trans hall.le hle),
    ⟨⟨i, j + k, ?_⟩, fun v hfrom hto => ?_, hidle.txCount⟩, hidle⟩
  · have hframe : (frame m (e.state (t + 1)).txb).map some =
        (List.range (2 * m.toNat)).map fun k => some (nibble (e.state (t + 1)).txb k) :=
      List.map_map
    rw [seen_append hall.le (Nat.le_succ_of_le hle), hall.seen, hlast, hframe, List.append_assoc,
      List.replicate_append_replicate]
  · by_cases hv : v < d₃
    · have hne : v + 1 ≠ u + 1 := by omega
      rw [hall.irq v hfrom hv]
      exact iff_of_false nofun hne
    · rw [hirq v (Nat.le_of_not_lt hv) hto]
      exact ⟨fun h => congrArg _ h.2, fun h => ⟨rfl, Nat.succ.inj h⟩⟩

end Phase

/-- In every run in which both clocks keep ticking, each transmit request puts its frame on the wire
once, and nothing else is sent. -/
theorem transmitted_once (e : (txPath csrAddr).Execution) (hrun : Running e) : ExactlyOnce e where
  before d hnone := by
    have hinitial := Phase.represents_of_initial e.initial 0 (e.state 0).txb
    exact hinitial.silent fun u _ hlt => hnone u hlt
  sent t n hrequest := by
    obtain ⟨_, _, p, h⟩ := Phase.exists_represents e t
    obtain ⟨d, txb, hlt, hsent, hidle⟩ := h.sent hrun hrequest
    exact ⟨d, hlt, hsent, fun d' _ hnone => hidle.silent hnone⟩

/-- Both clocks tick at every step, and the first edge of sys_clk writes 1 to TXCOUNT. -/
def oneByte : Nat → TxEdge
  | 0 => ⟨some ⟨false, .store 0x2006 1, ⟨0, 0, 0, false, false⟩, []⟩, true⟩
  | _ + 1 => ⟨some ⟨false, .load 0, ⟨0, 0, 0, false, false⟩, []⟩, true⟩

/-- The transmit path at power-up, with a buffer full of 0xa5. -/
def txPowerUp : TxPath where
  ctlif := ⟨0, false, false, false, false, false, false, 0, 0, 0, 0, false⟩
  startLevel := false
  startSync := ⟨false, false, false⟩
  phyTxCountR := 0
  phyTxCount := 0
  tx := ⟨false, 0, 0, .idle⟩
  txbDat := 0
  txb _ := 0xa5
  doneLevel := false
  doneSync := ⟨false, false, false⟩
  outstanding := false

/-- The software keeps to its rule. -/
theorem one_byte_allowed (t : Nat) : (txPath 0x8).Allowed
    (Machine.Execution.states (txPath 0x8) txPowerUp oneByte t) (oneByte t) := by
  cases t with
  | zero => decide
  | succ t =>
      intro x hx
      obtain rfl := Option.some.inj hx
      exact ⟨nofun, fun _ _ => rfl, nofun⟩

/-- The run that sends this byte. -/
def oneByteRun : (txPath 0x8).Execution :=
  .ofInputs txPowerUp oneByte ⟨rfl, rfl, rfl, rfl, rfl, rfl, rfl, rfl⟩ one_byte_allowed

/-- Everything is sent once in this run: the byte, low nibble first. -/
theorem transmitted_once_byte : ExactlyOnce oneByteRun ∧
    seen oneByteRun 0 8 = [none, none, none, none, none, some 0x5, some 0xa, none] := by
  refine ⟨transmitted_once oneByteRun ⟨fun t => ⟨t, Nat.le_refl t, ?_⟩,
    fun t => ⟨t, Nat.le_refl t, ?_⟩⟩, by decide +kernel⟩
  · cases t <;> rfl
  · cases t <;> rfl

end Soc.Minimac2
