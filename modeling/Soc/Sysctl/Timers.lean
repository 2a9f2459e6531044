import Soc.Library.Countdown
import Soc.Sysctl.Core

/-!
# The two timers of the system controller

A timer that nobody stores to is a countdown of the distance from its counter to its compare
register, whatever happens to the other registers of the controller. `timer_interrupts` gives the
cycles of its interrupts; `stopped_inert_iff` says when a timer that is not enabled keeps still.
-/

namespace Soc

namespace Timer

/-- How far the counter is from the compare register. -/
def rest (t : Timer) : Nat := (t.compare - t.counter).toNat

/-- A timer matches when nothing is left. -/
theorem matched_iff (t : Timer) : t.matched = true ↔ t.rest = 0 := by
  rw [matched, beq_iff_eq, rest, ← BitVec.toNat_inj, BitVec.toNat_sub]
  have hcounter := t.counter.isLt
  have hcompare := t.compare.isLt
  omega

/-- Counting on brings the counter one nearer. -/
theorem rest_count {counter compare : Word} (h : (compare - counter).toNat ≠ 0) :
    (compare - (counter + 1)).toNat = (compare - counter).toNat - 1 := by
  have hcounter := counter.isLt
  have hcompare := compare.isLt
  have hone : (1 : Word).toNat = 1 := rfl
  simp only [BitVec.toNat_sub, BitVec.toNat_add, hone] at h ⊢
  omega

/-- The bit of the control register that software reads as the enable bit. -/
theorem bit_control (t : Timer) : bit t.control 0 = t.en := by
  rw [bit, control, BitVec.getLsbD_setWidth, BitVec.getLsbD_append]
  cases t.en <;> rfl

/-- No tick changes the mode or the compare register. -/
theorem tick_ar (t : Timer) : t.tick.ar = t.ar ∧ t.tick.compare = t.compare := ⟨rfl, rfl⟩

/-- The interrupt after a tick. -/
theorem tick_irq (t : Timer) : t.tick.irq = (t.en && t.matched) := rfl

/-- A tick disables a timer without restart that matches. -/
theorem tick_en (t : Timer) : t.tick.en = if !t.ar && t.matched then false else t.en := rfl

/-- The counter after a tick. -/
theorem tick_counter (t : Timer) : t.tick.counter =
    if t.ar && t.matched then 1 else if t.en && !t.matched then t.counter + 1 else t.counter := rfl

/-- An enabled timer comes nearer to its compare register with every tick before it matches. -/
theorem tick_rest {t : Timer} (hen : t.en = true) (hrest : t.rest ≠ 0) :
    t.tick.en = true ∧ t.tick.rest = t.rest - 1 := by
  have hmatched : t.matched = false := by
    rw [← Bool.not_eq_true, matched_iff]
    exact hrest
  refine ⟨by rw [tick_en, hmatched, Bool.and_false, if_neg Bool.false_ne_true, hen], ?_⟩
  have hcounter : t.tick.counter = t.counter + 1 := by
    rw [tick_counter, hmatched, hen, Bool.and_false]
    rfl
  rw [rest, hcounter, (tick_ar t).2]
  exact rest_count hrest

/-- A timer that matches with restart counts on from 1. -/
theorem tick_restart {t : Timer} (hen : t.en = true) (har : t.ar = true) (hrest : t.rest = 0) :
    t.tick.en = true ∧ t.tick.rest = (t.compare - 1).toNat := by
  rw [← matched_iff] at hrest
  refine ⟨by rw [tick_en, har, hen]; rfl, ?_⟩
  rw [rest, tick_counter, har, hrest]
  rfl

/-- A timer that matches without restart stops where it is. -/
theorem tick_stop {t : Timer} (har : t.ar = false) (hrest : t.rest = 0) :
    t.tick.en = false ∧ t.tick.rest = 0 := by
  rw [← matched_iff] at hrest
  have hcounter : t.tick.counter = t.counter := by
    rw [tick_counter, har, hrest, Bool.not_true, Bool.and_false]
    rfl
  refine ⟨by rw [tick_en, har, hrest]; rfl, ?_⟩
  rw [rest, hcounter, (tick_ar t).2]
  exact (matched_iff t).1 hrest

/-- A tick of a timer that is not enabled, which is loaded anew all the same. -/
theorem tick_of_not_enabled {t : Timer} (hen : t.en = false) :
    t.tick = { t with irq := false, counter := if t.ar && t.matched then 1 else t.counter } := by
  have hstays : t.tick.en = t.en := by
    rw [tick_en, hen]
    split <;> rfl
  have hcounter : t.tick.counter = if t.ar && t.matched then 1 else t.counter := by
    rw [tick_counter, hen]
    rfl
  have hirq : t.tick.irq = false := by
    rw [tick_irq, hen]
    rfl
  calc t.tick = ⟨t.tick.irq, t.tick.en, t.tick.ar, t.tick.counter, t.tick.compare⟩ := rfl
    _ = _ := by rw [hstays, hcounter, hirq, (tick_ar t).1, (tick_ar t).2]

/-- The interrupts and the end of a timer without restart: one interrupt, in cycle `fires`, from
which on software reads the enable bit as 0 and the counter stays at `compare`. -/
structure OneShot (timer : Nat → Timer) (compare : Word) (fires : Nat) : Prop where
  irq : ∀ t, 0 < t → ((timer t).irq = true ↔ t = fires)
  en : ∀ t, fires ≤ t → (timer t).en = false ∧ bit (timer t).control 0 = false
  counter : ∀ t, fires ≤ t → (timer t).counter = compare

/-- The interrupts of a timer with restart: in cycle `fires` and then in every `period`-th. -/
def Periodic (timer : Nat → Timer) (fires period : Nat) : Prop :=
  ∀ t, 0 < t → ((timer t).irq = true ↔ ∃ m, t = fires + m * period)

/-- Nothing happens to a timer in `n` edges: no change of its counter and its mode, and no rising
edge of its interrupt line. -/
structure Inert (timer : Nat → Timer) (n : Nat) : Prop where
  counter : ∀ t, t ≤ n → (timer t).counter = (timer 0).counter
  ar : ∀ t, t ≤ n → (timer t).ar = (timer 0).ar
  en : ∀ t, t ≤ n → (timer t).en = (timer 0).en
  irq : ∀ t, t < n → (timer t).irq = false → (timer (t + 1)).irq = false

section Runs

variable {timer : Nat → Timer}

/-- A timer without stores keeps its mode and its compare register. -/
theorem kept (htick : ∀ t, timer (t + 1) = (timer t).tick) (t : Nat) :
    (timer t).ar = (timer 0).ar ∧ (timer t).compare = (timer 0).compare := by
  induction t with
  | zero => exact ⟨rfl, rfl⟩
  | succ t ih =>
      rw [htick, (tick_ar _).1, (tick_ar _).2]
      exact ih

/-- A timer with restart never stops. -/
theorem restart_en (htick : ∀ t, timer (t + 1) = (timer t).tick) (hen : (timer 0).en = true)
    (har : (timer 0).ar = true) (t : Nat) : (timer t).en = true := by
  induction t with
  | zero => exact hen
  | succ t ih =>
      rw [htick]
      by_cases hrest : (timer t).rest = 0
      · exact (tick_restart ih ((kept htick t).1.trans har) hrest).1
      · exact (tick_rest ih hrest).1

/-- What a timer with restart does after it is enabled. -/
theorem restart (htick : ∀ t, timer (t + 1) = (timer t).tick) (hen : (timer 0).en = true)
    (har : (timer 0).ar = true) :
    Periodic timer ((timer 0).rest + 1) (((timer 0).compare - 1).toNat + 1) := by
  have henabled := restart_en htick hen har
  have hdown : ∀ t, (timer t).rest ≠ 0 → (timer (t + 1)).rest = (timer t).rest - 1 := by
    intro t hrest
    rw [htick, (tick_rest (henabled t) hrest).2]
  have hreload : ∀ t, (timer t).rest = 0 →
      (timer (t + 1)).rest = ((timer 0).compare - 1).toNat := by
    intro t hrest
    rw [htick, (tick_restart (henabled t) ((kept htick t).1.trans har) hrest).2, (kept htick t).2]
  rintro (_ | t) ht
  · exact absurd ht (Nat.lt_irrefl 0)
  · rw [htick, tick_irq, henabled t, Bool.true_and, matched_iff,
      @Library.Countdown.rest_eq_zero_iff (fun t => (timer t).rest) _ hdown hreload t]
    exact exists_congr fun m => by omega

/-- A timer without restart is enabled until it has matched, and what is left goes down. -/
theorem oneshot_before (htick : ∀ t, timer (t + 1) = (timer t).tick) (hen : (timer 0).en = true)
    {t : Nat} (ht : t ≤ (timer 0).rest) :
    (timer t).en = true ∧ (timer t).rest = (timer 0).rest - t := by
  induction t with
  | zero => exact ⟨hen, rfl⟩
  | succ t ih =>
      obtain ⟨hen', hrest⟩ := ih (by omega)
      obtain ⟨hen'', hrest'⟩ := tick_rest hen' (by omega)
      rw [htick]
      exact ⟨hen'', by omega⟩

/-- A timer without restart that has matched has stopped at its compare register. -/
theorem oneshot_after (htick : ∀ t, timer (t + 1) = (timer t).tick) (hen : (timer 0).en = true)
    (har : (timer 0).ar = false) {t : Nat} (ht : (timer 0).rest < t) :
    (timer t).en = false ∧ (timer t).rest = 0 := by
  induction t, ht using Nat.le_induction with
  | base =>
      obtain ⟨-, hrest⟩ := oneshot_before htick hen (Nat.le_refl _)
      rw [htick]
      exact tick_stop ((kept htick _).1.trans har) (by omega)
  | succ t ht ih =>
      rw [htick]
      exact tick_stop ((kept htick _).1.trans har) ih.2

/-- What a timer without restart does after it is enabled. -/
theorem oneshot (htick : ∀ t, timer (t + 1) = (timer t).tick) (hen : (timer 0).en = true)
    (har : (timer 0).ar = false) :
    OneShot timer (timer 0).compare ((timer 0).rest + 1) where
  irq := by
    rintro (_ | t) ht
    · exact absurd ht (Nat.lt_irrefl 0)
    · rw [htick, tick_irq, Bool.and_eq_true, matched_iff]
      rcases Nat.lt_or_ge (timer 0).rest t with hafter | hbefore
      · obtain ⟨hstopped, -⟩ := oneshot_after htick hen har hafter
        simp only [hstopped, Bool.false_eq_true, false_and, false_iff]
        omega
      · obtain ⟨henabled, hrest⟩ := oneshot_before htick hen hbefore
        simp only [henabled, true_and]
        omega
  en t ht := by
    obtain ⟨hstopped, -⟩ := oneshot_after htick hen har ht
    exact ⟨hstopped, (bit_control _).trans hstopped⟩
  counter t ht := by
    obtain ⟨-, hrest⟩ := oneshot_after htick hen har ht
    rw [← matched_iff, matched, beq_iff_eq] at hrest
    rw [hrest, (kept htick t).2]

/-- A timer that is not enabled stays as it is unless it restarts from a match other than at 1. -/
theorem stopped_kept {n : Nat} (htick : ∀ t, t < n → timer (t + 1) = (timer t).tick)
    (hen : ∀ t, t < n → (timer t).en = false)
    (h : ¬ ((timer 0).ar = true ∧ (timer 0).counter = (timer 0).compare ∧ (timer 0).counter ≠ 1))
    {t : Nat} (ht : t ≤ n) : ∃ irq, timer t = { timer 0 with irq := irq } := by
  induction t with
  | zero => exact ⟨_, rfl⟩
  | succ t ih =>
      obtain ⟨irq, hkept⟩ := ih (by omega)
      refine ⟨false, ?_⟩
      rw [htick t ht, tick_of_not_enabled (hen t ht), hkept]
      have hcounter : (if (timer 0).ar && (timer 0).matched then 1 else (timer 0).counter) =
          (timer 0).counter := by
        split
        · rename_i hload
          rw [Bool.and_eq_true, matched, beq_iff_eq] at hload
          by_contra hne
          exact h ⟨hload.1, hload.2, fun hone => hne hone.symm⟩
        · rfl
      exact congrArg (fun counter => ({ timer 0 with irq := false, counter := counter } : Timer))
        hcounter

/-- A timer that is not enabled is inert unless it restarts from a match other than at 1. -/
theorem inert_iff {n : Nat} (hn : 0 < n) (htick : ∀ t, t < n → timer (t + 1) = (timer t).tick)
    (hen : ∀ t, t < n → (timer t).en = false) : Inert timer n ↔
      ¬ ((timer 0).ar = true ∧ (timer 0).counter = (timer 0).compare ∧ (timer 0).counter ≠ 1) := by
  constructor
  · rintro hinert ⟨har, hmatched, hne⟩
    have hcounter := hinert.counter 1 hn
    have hload : (timer 0).matched = true := beq_iff_eq.2 hmatched
    rw [htick 0 hn, tick_counter, har, hload] at hcounter
    exact hne hcounter.symm
  · intro h
    have hkept := fun t ht => stopped_kept htick hen h (t := t) ht
    exact {
      counter := fun t ht => by obtain ⟨irq, hirq⟩ := hkept t ht; rw [hirq]
      ar := fun t ht => by obtain ⟨irq, hirq⟩ := hkept t ht; rw [hirq]
      en := fun t ht => by obtain ⟨irq, hirq⟩ := hkept t ht; rw [hirq]
      irq := fun t ht _ => by rw [htick t ht, tick_irq, hen t ht, Bool.false_and] }

end Runs

end Timer

namespace Sysctl

variable {noutputs : Nat}

/-- The controller in every cycle, from `start` on and with the CSR bus of each cycle. -/
def cycles (csrAddr : BitVec 4) (start : Sysctl noutputs) (bus : Nat → CsrBus) :
    Nat → Sysctl noutputs
  | 0 => start
  | t + 1 => (cycles csrAddr start bus t).clock csrAddr (bus t)

/-- One of the two timers. -/
def timer (s : Sysctl noutputs) : Fin 2 → Timer
  | 0 => s.timer0
  | 1 => s.timer1

/-- A store to the control, the compare or the counter register of a timer. -/
def writesTimer (csrAddr : BitVec 4) (bus : CsrBus) : Fin 2 → Bool
  | 0 => writes bus csrAddr 0b00100 || writes bus csrAddr 0b00101 || writes bus csrAddr 0b00110
  | 1 => writes bus csrAddr 0b01000 || writes bus csrAddr 0b01001 || writes bus csrAddr 0b01010

/-- A timer that is not stored to ticks, whatever else is on the bus. -/
theorem timer_clock {csrAddr : BitVec 4} {bus : CsrBus} {i : Fin 2}
    (h : writesTimer csrAddr bus i = false) (s : Sysctl noutputs) :
    (s.clock csrAddr bus).timer i = (s.timer i).tick := by
  match i with
  | 0 =>
      simp only [writesTimer, Bool.or_eq_false_iff] at h
      obtain ⟨⟨hcontrol, hcompare⟩, hcounter⟩ := h
      simp only [timer, clock, hcontrol, hcompare, hcounter, Timer.clock_of_no_store]
  | 1 =>
      simp only [writesTimer, Bool.or_eq_false_iff] at h
      obtain ⟨⟨hcontrol, hcompare⟩, hcounter⟩ := h
      simp only [timer, clock, hcontrol, hcompare, hcounter, Timer.clock_of_no_store]

/-- The interrupts of an enabled timer nobody stores to, `rest` cycles before its match. -/
theorem timer_interrupts (csrAddr : BitVec 4) (start : Sysctl noutputs) (bus : Nat → CsrBus)
    (i : Fin 2) (c k : Word) (hen : (start.timer i).en = true) (hc : (start.timer i).counter = c)
    (hk : (start.timer i).compare = k) (hbus : ∀ t, writesTimer csrAddr (bus t) i = false) :
    ((start.timer i).ar = false →
      Timer.OneShot (fun t => (cycles csrAddr start bus t).timer i) k ((k - c).toNat + 1)) ∧
    ((start.timer i).ar = true →
      Timer.Periodic (fun t => (cycles csrAddr start bus t).timer i) ((k - c).toNat + 1)
        ((k - 1).toNat + 1)) := by
  have htick : ∀ t, (cycles csrAddr start bus (t + 1)).timer i =
      ((cycles csrAddr start bus t).timer i).tick := fun t => timer_clock (hbus t) _
  have hrest : (start.timer i).rest = (k - c).toNat := by rw [Timer.rest, hc, hk]
  rw [← hrest, ← hk]
  exact ⟨@Timer.oneshot (fun t => (cycles csrAddr start bus t).timer i) htick hen,
    @Timer.restart (fun t => (cycles csrAddr start bus t).timer i) htick hen⟩

/-- The CSR bus while software sets timer 0 of the board's controller up, and is idle then. -/
def setsTimer0 (counter compare control : Word) : Nat → CsrBus
  | 0 => .store 0x406 counter
  | 1 => .store 0x405 compare
  | 2 => .store 0x404 control
  | _ => .load 0

/-- An idle bus does not store to a timer. -/
theorem writes_timer_idle (i : Fin 2) : writesTimer 1 (.load 0) i = false := by
  revert i
  decide

/-- The delay of a quarter of a second in `eth_reset_delay`. -/
theorem timer_interrupts_reset_delay :
    Timer.OneShot
      (fun t => (cycles 1 (cycles 1 (reset : Sysctl 8) (setsTimer0 0 12500000 1) 3)
        (fun _ => .load 0) t).timer 0) 12500000 12500001 :=
  (timer_interrupts 1 (cycles 1 reset (setsTimer0 0 12500000 1) 3) (fun _ => .load 0) 0 0 12500000
    rfl rfl rfl fun _ => writes_timer_idle 0).1 rfl

/-- The interrupt of the last restart may still be seen in the cycle one starts to count from. -/
theorem irq_before_start : ¬ ∀ (before bus : Nat → CsrBus) (n : Nat) (i : Fin 2) (c k : Word),
    ((cycles 1 (reset : Sysctl 8) before n).timer i).en = true →
    ((cycles 1 (reset : Sysctl 8) before n).timer i).ar = true →
    ((cycles 1 (reset : Sysctl 8) before n).timer i).counter = c →
    ((cycles 1 (reset : Sysctl 8) before n).timer i).compare = k →
    (∀ t, writesTimer 1 (bus t) i = false) →
    ∀ t, ((cycles 1 (cycles 1 (reset : Sysctl 8) before n) bus t).timer i).irq = true ↔
      ∃ m, t = (k - c).toNat + 1 + m * ((k - 1).toNat + 1) := by
  intro h
  obtain ⟨m, hm⟩ := (h (setsTimer0 1 1 3) (fun _ => .load 0) 4 0 1 1 rfl rfl rfl rfl
    (fun _ => writes_timer_idle 0) 0).1 rfl
  omega

/-- A timer that is not enabled and nobody stores to is inert unless it starts with restart at a
match other than at 1. -/
theorem stopped_inert_iff (csrAddr : BitVec 4) (start : Sysctl noutputs) (bus : Nat → CsrBus)
    (i : Fin 2) (n : Nat) (hn : 0 < n)
    (hen : ∀ t, t < n → ((cycles csrAddr start bus t).timer i).en = false)
    (hbus : ∀ t, t < n → writesTimer csrAddr (bus t) i = false) :
    Timer.Inert (fun t => (cycles csrAddr start bus t).timer i) n ↔
      ¬ ((start.timer i).ar = true ∧ (start.timer i).counter = (start.timer i).compare ∧
        (start.timer i).counter ≠ 1) := by
  have htick : ∀ t, t < n → (cycles csrAddr start bus (t + 1)).timer i =
      ((cycles csrAddr start bus t).timer i).tick := fun t ht => timer_clock (hbus t ht) _
  exact @Timer.inert_iff (fun t => (cycles csrAddr start bus t).timer i) n hn htick hen

/-- Timer 0 stopped with restart halfway keeps its counter. -/
theorem stopped_inert_halfway :
    Timer.Inert (fun t => (cycles 1 (cycles 1 (reset : Sysctl 8) (setsTimer0 3 7 2) 3)
      (fun _ => .load 0) t).timer 0) 2 :=
  (stopped_inert_iff 1 (cycles 1 reset (setsTimer0 3 7 2) 3) (fun _ => .load 0) 0 2 (by decide)
    (by decide) (fun _ _ => writes_timer_idle 0)).2 (by decide)

/-- A timer that is stopped with restart at its compare register loads its counter anew. -/
theorem stopped_restarts : ¬ ∀ (before bus : Nat → CsrBus) (m n : Nat) (i : Fin 2),
    (∀ t, t < n →
      ((cycles 1 (cycles 1 (reset : Sysctl 8) before m) bus t).timer i).en = false) →
    (∀ t, t < n → writesTimer 1 (bus t) i = false) →
    Timer.Inert (fun t => (cycles 1 (cycles 1 (reset : Sysctl 8) before m) bus t).timer i) n := by
  intro h
  have hinert := h (setsTimer0 5 5 2) (fun _ => .load 0) 3 1 0 (by decide)
    (fun _ _ => writes_timer_idle 0)
  exact absurd (hinert.counter 1 (Nat.le_refl 1)) (by decide)

end Sysctl

end Soc
