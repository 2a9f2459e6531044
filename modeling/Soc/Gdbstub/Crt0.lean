import Soc.Gdbstub.Delivery
import Soc.Lm32.Isa

/-!
# The entry code of the stub

The exception handlers of `crt0.S` up to `clear_bss`, instruction by instruction, at the
addresses `linker.ld` gives them. `handle_exception` is compiled C code, and here a function
that keeps to the calling convention. An interrupt can come before every instruction while IE.IE
is set, which the exception has cleared.
-/

namespace Soc.Gdbstub

namespace Crt0

open Lm32

/-- `ORIGIN(rom)`, where `_start` is linked. -/
def rom : Word := 0x10000000

/-- `_debug_stack`. -/
def debugStack : Word := 0x10001ffc

/-- Where `handle_exception` is linked. -/
def handleException : Word := 0x10000788

/-- The address of an instruction of `crt0.S` by its number. -/
def label (k : Nat) : Word := after rom k

/-- `_breakpoint_handler`. -/
def BREAKPOINT_HANDLER : Nat := 8

/-- `save_all`. -/
def SAVE_ALL : Nat := 64

/-- `restore_gp`. -/
def RESTORE_GP : Nat := 116

/-- `e_restore_and_return`. -/
def E_RESTORE_AND_RETURN : Nat := 144

/-- `b_restore_and_return`. -/
def B_RESTORE_AND_RETURN : Nat := 158

/-- `clear_bss`. -/
def CLEAR_BSS : Nat := 172

/-- `_reset_handler`. -/
def resetHandler : List Instr :=
  [.xor 0 0 0, .wcsr .IE 0, .addi BA_REG 0 0, .bi (label BREAKPOINT_HANDLER),
    .addi 0 0 0, .addi 0 0 0, .addi 0 0 0, .addi 0 0 0]

/-- The handlers save the return register they find the PC in. -/
def handler (pc : Reg) (restore : Nat) : List Instr :=
  [.xor 0 0 0,
    .orhi 0 0 (debugStack.extractLsb' 16 16),
    .ori 0 0 (debugStack.extractLsb' 0 16),
    .sw 0 0 RA_REG,
    .calli (label SAVE_ALL),
    .sw SP 128 pc,
    .calli handleException,
    .bi (label restore)]

/-- `_breakpoint_handler`. -/
def breakpointHandler : List Instr := handler BA_REG B_RESTORE_AND_RETURN

/-- `_instruction_bus_error_handler`. -/
def instructionBusErrorHandler : List Instr := handler EA_REG E_RESTORE_AND_RETURN

/-- `_watchpoint_handler`. -/
def watchpointHandler : List Instr := handler BA_REG B_RESTORE_AND_RETURN

/-- `_data_bus_error_handler`. -/
def dataBusErrorHandler : List Instr := handler EA_REG E_RESTORE_AND_RETURN

/-- `_divide_by_zero_handler`. -/
def divideByZeroHandler : List Instr := handler EA_REG E_RESTORE_AND_RETURN

/-- `_interrupt_handler`. -/
def interruptHandler : List Instr := handler EA_REG E_RESTORE_AND_RETURN

/-- `_system_call_handler`. -/
def systemCallHandler : List Instr := handler EA_REG E_RESTORE_AND_RETURN

/-- `save_all`. -/
def saveAll : List Instr :=
  [.addi 0 0 (-156),
    .sw 0 4 1, .sw 0 8 2, .sw 0 12 3, .sw 0 16 4, .sw 0 20 5, .sw 0 24 6, .sw 0 28 7,
    .sw 0 32 8, .sw 0 36 9, .sw 0 40 10, .sw 0 44 11, .sw 0 48 12, .sw 0 52 13, .sw 0 56 14,
    .sw 0 60 15, .sw 0 64 16, .sw 0 68 17, .sw 0 72 18, .sw 0 76 19, .sw 0 80 20, .sw 0 84 21,
    .sw 0 88 22, .sw 0 92 23, .sw 0 96 24, .sw 0 100 25, .sw 0 104 26, .sw 0 108 27,
    .sw 0 112 SP,
    .sw 0 120 EA_REG,
    .sw 0 124 BA_REG,
    .rcsr 1 .EBA, .sw 0 136 1,
    .rcsr 1 .DEBA, .sw 0 140 1,
    .rcsr 1 .IE, .sw 0 144 1,
    .rcsr 1 .IM, .sw 0 148 1,
    .rcsr 1 .IP, .sw 0 152 1,
    -- the EID, from the address of the handler
    .andi 1 RA_REG 0xff, .srui 1 1 5, .sw 0 132 1,
    -- `sp` becomes the pointer to the frame; r0 is not 0 yet
    .sw 0 116 0, .lw SP 0 116,
    .xor 0 0 0,
    -- `ra` as the handler has saved it
    .lw 1 SP 156, .sw SP 116 1,
    .sw SP 0 0,
    .or 1 SP 0,
    .b RA_REG]

/-- `restore_gp`. -/
def restoreGp : List Instr :=
  [.lw 1 SP 4, .lw 2 SP 8, .lw 3 SP 12, .lw 4 SP 16, .lw 5 SP 20, .lw 6 SP 24, .lw 7 SP 28,
    .lw 8 SP 32, .lw 9 SP 36, .lw 10 SP 40, .lw 11 SP 44, .lw 12 SP 48, .lw 13 SP 52,
    .lw 14 SP 56, .lw 15 SP 60, .lw 16 SP 64, .lw 17 SP 68, .lw 18 SP 72, .lw 19 SP 76,
    .lw 20 SP 80, .lw 21 SP 84, .lw 22 SP 88, .lw 23 SP 92, .lw 24 SP 96, .lw 25 SP 100,
    .lw 26 SP 104, .lw 27 SP 108,
    .b RA_REG]

/-- `e_restore_and_return`. -/
def eRestoreAndReturn : List Instr :=
  [.calli (label RESTORE_GP),
    .lw RA_REG SP 116,
    .lw BA_REG SP 124,
    .lw EA_REG SP 136, .wcsr .EBA EA_REG,
    .lw EA_REG SP 140, .wcsr .DEBA EA_REG,
    .lw EA_REG SP 144, .wcsr .IE EA_REG,
    .lw EA_REG SP 148, .wcsr .IM EA_REG,
    .lw EA_REG SP 128,
    .lw SP SP 112,
    .b EA_REG]

/-- `b_restore_and_return`. -/
def bRestoreAndReturn : List Instr :=
  [.calli (label RESTORE_GP),
    .lw RA_REG SP 116,
    .lw EA_REG SP 120,
    .lw BA_REG SP 136, .wcsr .EBA BA_REG,
    .lw BA_REG SP 140, .wcsr .DEBA BA_REG,
    .lw BA_REG SP 144, .wcsr .IE BA_REG,
    .lw BA_REG SP 148, .wcsr .IM BA_REG,
    .lw BA_REG SP 128,
    .lw SP SP 112,
    .b BA_REG]

/-- The text of `crt0.S` up to `clear_bss`. -/
def crt0 : List Instr :=
  resetHandler ++ breakpointHandler ++ instructionBusErrorHandler ++ watchpointHandler ++
    dataBusErrorHandler ++ divideByZeroHandler ++ interruptHandler ++ systemCallHandler ++
    saveAll ++ restoreGp ++ eRestoreAndReturn ++ bRestoreAndReturn

/-- The instruction at an address. -/
def fetch (a : Word) : Option Instr := crt0[(a - rom).toNat / 4]?

/-- One step: an instruction of `crt0.S`, or all of `handle_exception`. The run ends at the return
to the application. -/
def next (handle : Cpu → Cpu) (c : Cpu) : Option Cpu :=
  if c.pc = handleException then some (handle c)
  else (fetch c.pc).bind fun i =>
    if i = .b EA_REG ∨ i = .b BA_REG then none else some (i.exec c)

/-- A step, or an interrupt that IM lets through and that is pending in `ip`. `service` is what the
application does about it, up to and including the `eret`. -/
def Interruptible (handle service : Cpu → Cpu) (c c' : Cpu) : Prop :=
  next handle c = some c' ∨
    ∃ ip remap, c.csrs.ie = true ∧ ip &&& c.csrs.im ≠ 0 ∧
      c' = service (Cpu.interrupt { c with csrs := { c.csrs with ip := ip } } remap)

/-- The C calling convention: a function returns to `ra`, and r11 to r28 are saved. `gdbstub.c` does
not write IE. -/
structure ObeysCallingConvention (handle : Cpu → Cpu) : Prop where
  returns : ∀ c, (handle c).pc = c.regs RA_REG
  saved : ∀ c r, 11 ≤ r → r ≤ SP → (handle c).regs r = c.regs r
  ie : ∀ c, (handle c).csrs.ie = c.csrs.ie

/-- The address of the handler of an exception. -/
def handlerAddress (eid : Nat) : Word := label (8 * eid)

section Text

variable (handle : Cpu → Cpu) {c : Cpu} {k : Nat} {i : Instr} {l : List Instr}

theorem label_sub (hk : k < 512) : (label k - rom).toNat / 4 = k := after_sub rom hk

/-- The instruction at a label. -/
theorem fetch_label (hk : k < 512) : fetch (label k) = crt0[k]? := by
  rw [fetch, label_sub hk]

/-- `handle_exception` is not part of `crt0.S`. -/
theorem label_ne (hk : k < 482) : label k ≠ handleException := by
  intro h
  have hplace := label_sub (k := k) (by omega)
  have hhandle : (handleException - rom).toNat / 4 = 482 := by decide
  rw [h, hhandle] at hplace
  omega

theorem label_add (j : Nat) : after (label k) j = label (k + j) := after_add rom k j

/-- A label is the target of a branch as it is. -/
theorem label_aligned : ∀ k < CLEAR_BSS, label k &&& ~~~3 = label k := by
  decide +kernel

/-- The next label. -/
theorem label_succ (k : Nat) : label k + 4 = label (k + 1) := label_add 1

/-- A call leaves the next label in `ra`. -/
theorem calli_regs (hpc : c.pc = label k) (target : Word) :
    ((Instr.calli target).exec c).regs = Function.update c.regs RA_REG (label (k + 1)) := by
  rw [← label_succ, ← hpc]
  rfl

/-- One instruction of `crt0.S`. -/
theorem next_instr (hpc : c.pc = label k) (hk : k < 482) (hi : crt0[k]? = some i)
    (hreturn : i ≠ .b EA_REG ∧ i ≠ .b BA_REG) : next handle c = some (i.exec c) := by
  rw [next, if_neg (hpc ▸ label_ne hk), hpc, fetch_label (by omega), hi, Option.bind_some,
    if_neg (not_or.2 hreturn)]

/-- A return to the application. -/
theorem next_return (hpc : c.pc = label k) (hk : k < 482)
    (hi : crt0[k]? = some (.b EA_REG) ∨ crt0[k]? = some (.b BA_REG)) : next handle c = none := by
  rw [next, if_neg (hpc ▸ label_ne hk), hpc, fetch_label (by omega)]
  obtain hi | hi := hi
  · rw [hi]
    rfl
  · rw [hi]
    rfl

/-- A quiet piece of `crt0.S`. -/
theorem runs_quiet (l : List Instr) {v : Bool} (hie : c.csrs.ie = v) (hpc : c.pc = label k)
    (hk : k + l.length ≤ 482) (hl : ∀ i ∈ l, i.Quiet)
    (htext : (crt0.drop k).take l.length = l) :
    Runs v (next handle) c (block l c) ∧ (block l c).pc = label (k + l.length) := by
  refine ⟨runs_block hl hie fun j hj c' hc' => ?_, ?_⟩
  · rw [hpc, label_add] at hc'
    have hstraight := (hl l[j] (List.getElem_mem hj)).straight
    refine next_instr handle hc' (by omega) ?_ ⟨fun h => ?_, fun h => ?_⟩
    case refine_2 => rw [h] at hstraight; exact hstraight
    case refine_3 => rw [h] at hstraight; exact hstraight
    have hget : ((crt0.drop k).take l.length)[j]? = l[j]? := congrArg (·[j]?) htext
    rw [List.getElem?_take, if_pos hj, List.getElem?_drop] at hget
    exact hget.trans (List.getElem?_eq_getElem hj)
  · rw [block_pc fun i hi => (hl i hi).straight, hpc, label_add]

end Text

end Crt0

end Soc.Gdbstub
