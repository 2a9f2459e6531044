import Soc.Lm32.Refinement

/-!
# The control registers of the LM32

What `isa` leaves to the outside: the interrupt enable with its two saved values, the interrupt mask
and the bases of the two vector tables. `privileged` is the instruction set with these registers. An
exception saves the interrupt enable and clears it, `eret` and `bret` restore it, and an interrupt
is taken only when it is set. So whoever has it cleared is not interrupted before an instruction
that restores or writes it.
-/

namespace Soc.Lm32

open Library (Machine)

/-- `LM32_CSR_IE`. -/
def CSR_IE : BitVec 5 := 0x0

/-- `LM32_CSR_IM`. -/
def CSR_IM : BitVec 5 := 0x1

/-- `LM32_CSR_IP`. -/
def CSR_IP : BitVec 5 := 0x2

/-- `LM32_CSR_EBA`. -/
def CSR_EBA : BitVec 5 := 0x7

/-- `LM32_CSR_DEBA`. -/
def CSR_DEBA : BitVec 5 := 0x9

/-- `LM32_EID_INTERRUPT`. -/
def EID_INTERRUPT : BitVec 3 := 0x6

/-- The control registers that only the program and its exceptions change. -/
structure ControlRegisters where
  ie : Bool
  eie : Bool
  bie : Bool
  im : Word
  eba : BitVec 24
  deba : BitVec 24

namespace ControlRegisters

variable (c : ControlRegisters)

/-- What `rcsr` reads. The pending interrupts and the other registers come from outside. -/
def read (csr : BitVec 5) : Option Word :=
  if csr = CSR_IE then
    some (0#29 ++ BitVec.ofBool c.bie ++ BitVec.ofBool c.eie ++ BitVec.ofBool c.ie)
  else if csr = CSR_IM then some c.im
  else if csr = CSR_EBA then some (c.eba ++ 0#8)
  else if csr = CSR_DEBA then some (c.deba ++ 0#8)
  else none

/-- What `wcsr` writes. -/
def write (csr : BitVec 5) (value : Word) : ControlRegisters where
  ie := if csr = CSR_IE then value.getLsbD 0 else c.ie
  eie := if csr = CSR_IE then value.getLsbD 1 else c.eie
  bie := if csr = CSR_IE then value.getLsbD 2 else c.bie
  im := if csr = CSR_IM then value else c.im
  eba := if csr = CSR_EBA then value.extractLsb' 8 24 else c.eba
  deba := if csr = CSR_DEBA then value.extractLsb' 8 24 else c.deba

/-- The control registers after an instruction. `eret` and `bret` are the branches to the addresses
that exceptions and breakpoints leave behind. -/
def execute (w : Word) (regs : Reg → Word) : ControlRegisters :=
  match kind w with
  | .b =>
      if reg0 w = EA_REG then { c with ie := c.eie }
      else if reg0 w = BA_REG then { c with ie := c.bie }
      else c
  | .wcsr => c.write (reg0 w) (regs (reg1 w))
  | _ => c

/-- The control registers after an exception. -/
def raise (nonDebug : Bool) : ControlRegisters :=
  if nonDebug then { c with eie := c.ie, ie := false } else { c with bie := c.ie, ie := false }

/-- An exception clears the interrupt enable. -/
@[simp] theorem raise_ie (nonDebug : Bool) : (c.raise nonDebug).ie = false := by
  cases nonDebug <;> rfl

/-- What an event at the instruction `w` does to the control registers, and what it needs of them.
If an instruction raises an exception, it has had its effect on them all the same. -/
def Permits (w : Option Word) (regs : Reg → Word) (e : Event) (after : ControlRegisters) : Prop :=
  match e with
  | .instruction csr _ _ =>
      ∀ i ∈ w, after = c.execute i regs ∧ (kind i = .rcsr → ∀ v ∈ c.read (reg0 i), csr = v)
  | .exception link vector _ =>
      (∀ i ∈ w, after = (c.execute i regs).raise (link == EA_REG)) ∧
        (vector.extractLsb' 3 24 = c.deba ∨
          link = EA_REG ∧ vector.extractLsb' 3 24 = c.eba) ∧
        (vector.extractLsb' 0 3 = EID_INTERRUPT → link = EA_REG ∧ c.ie = true ∧ c.im ≠ 0)
  | .unknown _ => True

end ControlRegisters

/-- The instruction set with its control registers. A step is an event and the control registers
after it. -/
def privileged (env : Outside) : Machine (Arch × ControlRegisters) (Event × ControlRegisters) where
  Initial a :=
    (isa env).Initial a.1 ∧ a.2.ie = false ∧ a.2.eie = false ∧ a.2.bie = false ∧ a.2.im = 0
  Allowed a e :=
    (isa env).Allowed a.1 e.1 ∧ a.2.Permits (env.imem a.1.pc) a.1.regs e.1 e.2
  next a e := ((isa env).next a.1 e.1, e.2)

/-- The event is an interrupt. -/
def Event.IsInterrupt (e : Event) : Prop :=
  match e with
  | .exception _ vector _ => vector.extractLsb' 0 3 = EID_INTERRUPT
  | _ => False

/-- The instruction may set the interrupt enable. -/
def Restores (w : Word) : Prop :=
  kind w = .b ∧ (reg0 w = EA_REG ∨ reg0 w = BA_REG) ∨ kind w = .wcsr ∧ reg0 w = CSR_IE

instance (w : Word) : Decidable (Restores w) := inferInstanceAs (Decidable (_ ∧ _ ∨ _ ∧ _))

/-- The next instruction of the program is known and does not set the interrupt enable. -/
def Masked (env : Outside) (a : Arch) : Prop := ∃ i ∈ env.imem a.pc, ¬ Restores i

instance (env : Outside) (a : Arch) : Decidable (Masked env a) := Option.decidableExistsMem _

variable {env : Outside} {c : ControlRegisters} {a : Arch × ControlRegisters}
  {e : Event × ControlRegisters}

/-- No other instruction changes the interrupt enable. -/
theorem ControlRegisters.execute_ie {w : Word} (h : ¬ Restores w) (regs : Reg → Word) :
    (c.execute w regs).ie = c.ie := by
  rw [Restores, not_or, not_and, not_and] at h
  obtain ⟨hreturn, hwrite⟩ := h
  rw [execute]
  cases hk : kind w with
  | b =>
      have hreg := hreturn hk
      rw [not_or] at hreg
      change (if reg0 w = EA_REG then _ else if reg0 w = BA_REG then _ else c).ie = c.ie
      rw [if_neg hreg.1, if_neg hreg.2]
  | wcsr => exact if_neg (hwrite hk)
  | alu _ _ | load _ _ | store _ | branch _ | bi | call | calli | raise | rcsr => rfl

/-- With interrupts disabled, an event of a known instruction that does not enable them is no
interrupt and leaves them disabled. -/
theorem privileged_masked (hallowed : (privileged env).Allowed a e) (hie : a.2.ie = false)
    (hmasked : Masked env a.1) : e.2.ie = false ∧ ¬ e.1.IsInterrupt := by
  obtain ⟨i, hknown, hkeeps⟩ := hmasked
  obtain ⟨hisa, hpermits⟩ := hallowed
  obtain ⟨event, after⟩ := e
  cases event with
  | instruction csr data busErrorSeen =>
      refine ⟨?_, fun h => h⟩
      rw [(hpermits i hknown).1, ControlRegisters.execute_ie hkeeps]
      exact hie
  | exception link vector busError =>
      obtain ⟨hafter, -, hinterrupt⟩ := hpermits
      refine ⟨?_, fun h => ?_⟩
      · rw [hafter i hknown, ControlRegisters.raise_ie]
      · exact absurd (hie.symm.trans (hinterrupt h).2.1) Bool.false_ne_true
  | unknown after => exact absurd (hisa.symm.trans hknown) (Option.some_ne_none i).symm

/-- Who has interrupts disabled is not interrupted before an instruction that enables them. -/
theorem privileged_undisturbed {events : List (Event × ControlRegisters)}
    (hrun : (privileged env).AllowedRun a events) (hie : a.2.ie = false)
    (hmasked : (privileged env).Always (fun a => Masked env a.1) a events) :
    ∀ e ∈ events, ¬ e.1.IsInterrupt := by
  induction events generalizing a with
  | nil => exact fun e he => absurd he List.not_mem_nil
  | cons first events ih =>
      obtain ⟨hnext, hnot⟩ := privileged_masked hrun.1 hie hmasked.1
      intro e he
      rcases List.mem_cons.1 he with rfl | he
      · exact hnot
      · exact ih hrun.2 hnext hmasked.2 e he

end Soc.Lm32
