import Mathlib.Data.List.Induction
import Mathlib.Tactic.ByContra
import Soc.Library.ToggleSync

/-!
# The pulse synchroniser

`minimac2_psync`, as `minimac2_sync` uses it for every pulse between the system clock and the
clocks of the PHY. The two clocks are unrelated: their edges come in any order, and some of them
at the same moment.
-/

namespace Soc.Minimac2

open Library (Sampler)

/-- The registers of `minimac2_psync`: the level of the first clock, and the three of the second. -/
structure Psync where
  level : Bool
  sync : Sampler
  deriving DecidableEq

/-- The clock edges of one moment, and the value of `i` at an edge of `clk1`. -/
structure Edges where
  clk1 : Bool
  i : Bool
  clk2 : Bool
  deriving DecidableEq

/-- An input pulse: `i` is set at an edge of `clk1`. -/
def Edges.pulse (e : Edges) : Bool := e.clk1 && e.i

namespace Psync

/-- The `initial` block. -/
def initial : Psync := ⟨false, ⟨false, false, false⟩⟩

/-- The output. -/
def o (s : Psync) : Bool := s.sync.level2 ^^ s.sync.level3

/-- The registers after the edges of one moment. At simultaneous edges `level1` gets the old
level. -/
def clock (s : Psync) (e : Edges) : Psync where
  level := if e.clk1 then if e.i then !s.level else s.level else s.level
  sync := if e.clk2 then s.sync.next s.level else s.sync

/-- The registers after a list of moments. -/
def run (s : Psync) (events : List Edges) : Psync := events.foldl clock s

/-- The number of `clk2` edges at which `o` is 1. -/
def seen : Psync → List Edges → Nat
  | _, [] => 0
  | s, e :: events => (if e.clk2 then s.o.toNat else 0) + seen (s.clock e) events

/-- The number of stage boundaries whose two sides differ. -/
def inFlight (s : Psync) : Nat := s.sync.boundaries s.level

end Psync

/-- Two pulses that follow each other have an edge of `clk2` between their toggles: after the first,
and at the latest together with the second. -/
def Spaced (events : List Edges) : Prop :=
  ∀ before first between second after,
    events = before ++ first :: between ++ second :: after → first.pulse → second.pulse →
    (∀ e ∈ between, e.pulse = false) → ∃ e ∈ between ++ [second], e.clk2

/-- No edge of `clk2` has come since the last pulse. -/
def Unsampled (events : List Edges) : Prop :=
  ∃ before first between, events = before ++ first :: between ∧ first.pulse ∧
    ∀ e ∈ between, e.pulse = false ∧ e.clk2 = false

/-- The first moments of a spaced list are spaced. -/
theorem Spaced.of_append {past rest : List Edges} (h : Spaced (past ++ rest)) : Spaced past := by
  rintro before first between second after rfl
  exact h before first between second (after ++ rest) (by simp)

/-- Pulses that come together with edges of `clk2` are spaced. -/
theorem spaced_of_clk2 {events : List Edges} (h : ∀ e ∈ events, e.pulse → e.clk2) :
    Spaced events := by
  rintro before first between second after rfl - hsecond -
  exact ⟨second, by simp, h second (by simp) hsecond⟩

namespace Psync

variable {s : Psync} {e : Edges} {past rest : List Edges}

/-- A pulse toggles the level. -/
theorem clock_level : (s.clock e).level = (s.level ^^ e.pulse) := by
  rw [clock, Edges.pulse]
  cases e.clk1 <;> cases e.i <;> simp

/-- One more moment. -/
theorem run_concat : s.run (past ++ [e]) = (s.run past).clock e := by
  rw [run, List.foldl_append]
  rfl

/-- One more moment shows a pulse if `o` is 1 at its `clk2` edge. -/
theorem seen_concat : s.seen (past ++ [e]) =
    s.seen past + if e.clk2 then (s.run past).o.toNat else 0 := by
  induction past generalizing s with
  | nil => simp [seen, run]
  | cons first past ih =>
      simp only [List.cons_append, seen, ih, run, List.foldl_cons]
      omega

/-- The first boundary differs only while a pulse has not been sampled. -/
theorem unsampled_of_ne (h : (initial.run past).level ≠ (initial.run past).sync.level1) :
    Unsampled past := by
  induction past using List.reverseRecOn with
  | nil => exact absurd rfl h
  | append_singleton past e ih =>
      rw [run_concat, clock_level] at h
      cases hpulse : e.pulse with
      | true => exact ⟨past, e, [], rfl, hpulse, fun _ h => absurd h List.not_mem_nil⟩
      | false =>
          rw [hpulse, Bool.xor_false] at h
          cases hclk : e.clk2 with
          | true => simp [clock, hclk, Sampler.next] at h
          | false =>
              simp only [clock, hclk] at h
              obtain ⟨before, first, between, rfl, hfirst, hbetween⟩ := ih h
              refine ⟨before, first, between ++ [e], by simp, hfirst, fun x hx => ?_⟩
              rcases List.mem_append.1 hx with hx | hx
              · exact hbetween x hx
              · rw [List.mem_singleton.1 hx]
                exact ⟨hpulse, hclk⟩

/-- A pulse that has not been sampled is sampled before the next one. -/
theorem level1_eq_of_pulse (h : Spaced (past ++ [e])) (hpulse : e.pulse) (hclk : e.clk2 = false) :
    (initial.run past).sync.level1 = (initial.run past).level := by
  by_contra hne
  obtain ⟨before, first, between, rfl, hfirst, hbetween⟩ := unsampled_of_ne (Ne.symm hne)
  obtain ⟨x, hx, hxclk⟩ := h before first between e [] (by simp) hfirst hpulse
    fun x hx => (hbetween x hx).1
  rcases List.mem_append.1 hx with hx | hx
  · simp [(hbetween x hx).2] at hxclk
  · rw [List.mem_singleton.1 hx, hclk] at hxclk
    exact absurd hxclk Bool.false_ne_true

/-- One moment neither loses nor invents a pulse, if a toggle finds the first boundary free. -/
theorem inFlight_clock
    (h : e.pulse → e.clk2 = false → s.sync.level1 = s.level) :
    (if e.clk2 then s.o.toNat else 0) + (s.clock e).inFlight = s.inFlight + e.pulse.toNat := by
  have hout : s.o = s.sync.out := rfl
  rw [inFlight, clock_level, hout]
  cases hclk : e.clk2 with
  | false =>
      cases hpulse : e.pulse with
      | false => simp [clock, hclk, inFlight]
      | true => simpa [clock, hclk, inFlight] using Sampler.boundaries_not (h hpulse hclk)
  | true =>
      cases hpulse : e.pulse with
      | false => simpa [clock, hclk, inFlight] using Sampler.boundaries_next s.level s.sync
      | true => simpa [clock, hclk, inFlight] using Sampler.boundaries_not_next s.level s.sync

/-- At every moment of a spaced run the pulses seen and those in flight are the input pulses. -/
theorem pulses_conserved (h : Spaced (past ++ rest)) :
    initial.seen past + (initial.run past).inFlight = past.countP Edges.pulse := by
  have hpast := h.of_append
  clear h
  induction past using List.reverseRecOn with
  | nil => rfl
  | append_singleton past e ih =>
      have hstep := inFlight_clock (s := initial.run past) (level1_eq_of_pulse hpast)
      have hlast : [e].countP Edges.pulse = e.pulse.toNat := by
        cases hpulse : e.pulse <;> simp [hpulse]
      rw [seen_concat, run_concat, List.countP_append, hlast, ← ih hpast.of_append]
      omega

/-- Two pulses at edges of both clocks: the first has been seen, the second is in flight. -/
theorem pulses_conserved_two :
    let events : List Edges :=
      [⟨true, true, true⟩, ⟨false, false, true⟩, ⟨false, false, true⟩, ⟨true, true, true⟩]
    Spaced (events ++ []) ∧ initial.seen events = 1 ∧ (initial.run events).inFlight = 1 ∧
      initial.seen events + (initial.run events).inFlight = events.countP Edges.pulse := by
  intro events
  have hspaced : Spaced (events ++ []) := spaced_of_clk2 (by decide)
  exact ⟨hspaced, by decide, by decide, pulses_conserved hspaced⟩

end Psync

end Soc.Minimac2
