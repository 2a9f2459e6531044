import Mathlib.Tactic.Choose
import Soc.Conbus.Bus
import Soc.Library.Execution
import Soc.Library.RoundRobin

/-!
# The arbiter of the system bus

`conbus_arb5` as its case statement has it, with the grant in a register of three bits. It is the
round robin of `nextGnt`, so `arbiter_fair` follows from `Library.RoundRobin`: no master is
preempted, and while one waits every other is granted anew at most once.
-/

namespace Soc.Conbus

open Library (Machine)
open Library.RoundRobin (Passes ahead)

namespace Arb5

/-- `next_state`. -/
def nextState (req : BitVec 5) (state : BitVec 3) : BitVec 3 :=
  match state with
  | 0 =>
      if !req[0] then
        if req[1] then 1 else if req[2] then 2 else if req[3] then 3 else if req[4] then 4
        else state
      else state
  | 1 =>
      if !req[1] then
        if req[2] then 2 else if req[3] then 3 else if req[4] then 4 else if req[0] then 0
        else state
      else state
  | 2 =>
      if !req[2] then
        if req[3] then 3 else if req[4] then 4 else if req[0] then 0 else if req[1] then 1
        else state
      else state
  | 3 =>
      if !req[3] then
        if req[4] then 4 else if req[0] then 0 else if req[1] then 1 else if req[2] then 2
        else state
      else state
  | 4 =>
      if !req[4] then
        if req[0] then 0 else if req[1] then 1 else if req[2] then 2 else if req[3] then 3
        else state
      else state
  | _ => state

/-- The register after a clock edge. -/
def clock (sysRst : Bool) (req : BitVec 5) (state : BitVec 3) : BitVec 3 :=
  if sysRst then 0 else nextState req state

/-- The arbiter from a reset on, with any requests in every cycle. -/
def machine : Machine (BitVec 3) (BitVec 5) where
  Initial state := ∃ req before, state = clock true req before
  Allowed _ _ := True
  next state req := clock false req state

/-- The grant of a master. -/
def grant (m : Fin 5) : BitVec 3 := BitVec.ofNat 3 m

/-- The request line of a master. -/
def requests (req : BitVec 5) (m : Fin 5) : Bool := req[m]

/-- The case statement is the round robin of the bus. -/
theorem next_state_eq : ∀ (req : BitVec 5) (m : Fin 5),
    nextState req (grant m) = grant (nextGnt (requests req) m) := by
  decide

/-- The grants of two masters differ. -/
theorem grant_injective : ∀ m m' : Fin 5, grant m = grant m' → m = m' := by decide

/-- One step of the round robin passes the grant on. -/
theorem next_gnt_passes (req : BitVec 5) (m : Fin 5) :
    Passes (requests req) m (nextGnt (requests req) m) where
  holds := by revert req m; decide
  moves := by revert req m; decide
  nearest := by revert req m; decide

end Arb5

open Arb5

namespace Arbiter

variable (e : Arb5.machine.Execution)

/-- Master `m` requests the bus in cycle `t`. -/
def Requests (m : Fin 5) (t : Nat) : Prop := requests (e.input t) m = true

/-- Master `m` has the grant in cycle `t`. -/
def Granted (m : Fin 5) (t : Nat) : Prop := e.state t = grant m

/-- The clock edge after cycle `t` grants the bus anew to master `m`. -/
def Gains (m : Fin 5) (t : Nat) : Prop := ¬ Granted e m t ∧ Granted e m (t + 1)

/-- Master `m` requests the bus in all the cycles from `first` to `last` and has the grant in
none. -/
def Waits (m : Fin 5) (first last : Nat) : Prop :=
  ∀ t, first ≤ t → t ≤ last → Requests e m t ∧ ¬ Granted e m t

/-- A fair arbitration: the grant stays with a master that requests the bus, goes to a master that
requests it in that cycle, and while a master waits no other gains it twice. -/
structure Fair : Prop where
  holds : ∀ m t, Granted e m t → Requests e m t → Granted e m (t + 1)
  moves : ∀ t, e.state (t + 1) ≠ e.state t → ∃ m, Gains e m t ∧ Requests e m t
  overtakes : ∀ j first last, Waits e j first last → ∀ m t u, m ≠ j →
    Gains e m t → first ≤ t + 1 → t ≤ last → Gains e m u → first ≤ u + 1 → u ≤ last → t = u

variable {e}

/-- After reset there is always one master with the grant, and it is passed on round robin. -/
theorem exists_holder (e : Arb5.machine.Execution) : ∃ gnt : Nat → Fin 5,
    (∀ t, Granted e (gnt t) t) ∧ ∀ t, gnt (t + 1) = nextGnt (requests (e.input t)) (gnt t) := by
  have hholder : ∀ t, ∃ m, Granted e m t := e.invariant (P := fun state => ∃ m, state = grant m)
    (by rintro _ ⟨_, _, rfl⟩; exact ⟨0, rfl⟩)
    (by rintro _ req ⟨m, rfl⟩ _; exact ⟨_, next_state_eq req m⟩)
  choose gnt hgnt using hholder
  refine ⟨gnt, hgnt, fun t => grant_injective _ _ ?_⟩
  calc grant (gnt (t + 1)) = e.state (t + 1) := (hgnt (t + 1)).symm
    _ = nextState (e.input t) (grant (gnt t)) := by rw [e.step t, hgnt t]; rfl
    _ = _ := next_state_eq _ _

/-- While a master waits, another that has gained the grant does not gain it again. -/
theorem gains_once {j m : Fin 5} {first last t u : Nat} (hwaits : Waits e j first last)
    (hm : m ≠ j) (ht : Gains e m t) (hfirst : first ≤ t + 1) (htu : t < u) (hlast : u ≤ last) :
    ¬ Gains e m u := by
  rintro ⟨hother, hgain⟩
  obtain ⟨gnt, hgranted, hnext⟩ := exists_holder e
  have hiff : ∀ v m', Granted e m' v ↔ gnt v = m' := by
    intro v m'
    constructor
    · intro h
      exact grant_injective _ _ ((hgranted v).symm.trans h)
    · rintro rfl
      exact hgranted v
  have hpasses : ∀ v, Passes (requests (e.input v)) (gnt v) (gnt (v + 1)) := by
    intro v
    rw [hnext v]
    exact next_gnt_passes _ _
  have hreq : ∀ v, first ≤ v → v < u + 1 → requests (e.input v) j = true := fun v hv hvu =>
    (hwaits v hv (by omega)).1
  have hungranted : ∀ v, first ≤ v → v ≤ u + 1 → gnt v ≠ j := by
    intro v hv hvu hj
    by_cases hend : v = u + 1
    · subst hend
      exact hm (((hiff _ _).1 hgain).symm.trans hj)
    · exact (hwaits v hv (by omega)).2 ((hiff _ _).2 hj)
  have hmove : gnt (u + 1) ≠ gnt u := by
    intro heq
    exact hother ((hiff _ _).2 (heq.symm.trans ((hiff _ _).1 hgain)))
  have hagain := Library.RoundRobin.not_regained hpasses hreq hungranted hfirst htu
    (Nat.lt_succ_self u) hmove
  exact hagain (((hiff _ _).1 hgain).trans ((hiff _ _).1 ht.2).symm)

end Arbiter

/-- After reset the arbiter is fair whatever the masters request. -/
theorem arbiter_fair (e : Arb5.machine.Execution) : Arbiter.Fair e where
  holds m t hgnt hreq := by
    have hnext : e.state (t + 1) = nextState (e.input t) (e.state t) := e.step t
    rw [Arbiter.Granted, hnext, hgnt, next_state_eq, (next_gnt_passes _ m).holds hreq]
  moves t hmove := by
    obtain ⟨gnt, hgranted, hnext⟩ := Arbiter.exists_holder e
    have hne : gnt (t + 1) ≠ gnt t := by
      intro heq
      exact hmove (by rw [hgranted (t + 1), hgranted t, heq])
    refine ⟨gnt (t + 1), ⟨fun h => ?_, hgranted (t + 1)⟩, ?_⟩
    · exact hne (grant_injective _ _ (h.symm.trans (hgranted t)))
    · rw [hnext t] at hne ⊢
      exact (next_gnt_passes _ _).moves hne
  overtakes j first last hwaits m t u hm ht hfirst hlast hu hfirst' hlast' := by
    rcases Nat.lt_trichotomy t u with hlt | heq | hgt
    · exact absurd hu (Arbiter.gains_once hwaits hm ht hfirst hlt hlast')
    · exact heq
    · exact absurd ht (Arbiter.gains_once hwaits hm hu hfirst' hgt hlast)

end Soc.Conbus
