import Soc.Library.BitField
import Soc.Library.Machine
import Soc.Library.Slots
import Soc.Gdbstub.Command

/-!
# Hardware watchpoints over a session

What GDB asked for is a table of four slots, each empty or holding an address and a mode,
and `cmd_break` keeps the tables of the stub and the control fields of DC equal to it. The
addresses are another matter: `set_hw_watchpoint` writes every address to WP0, so the
watchpoint registers agree with the table in runs in which each insert finds slot 0 free.
-/

namespace Soc.Gdbstub

open Library (Machine)
open Library.BitField (mask place)
open Library.Slots (Table first)
open Lm32 (CSR_DC CSR_WP Debug)
open Lm32.Debug (dcField)

/-- A watchpoint GDB asked for. Bit 0 of the mode stands for loads, bit 1 for stores. -/
structure Watch where
  address : Word
  mode : BitVec 2
  deriving DecidableEq

/-- The mode each kind of watchpoint packet asks for: write, read, access. -/
def requestedMode (kind : Byte) : Option (BitVec 2) :=
  if kind = ascii '2' then some 2
  else if kind = ascii '3' then some 1
  else if kind = ascii '4' then some 3
  else none

/-- The `mode` of `cmd_break` is the requested one, moved to the first field of DC. -/
theorem watchMode_eq (kind : Byte) :
    watchMode kind = (requestedMode kind).map fun mode => (mode.setWidth 8 : Byte) <<< 2 := by
  unfold watchMode requestedMode
  split_ifs <;> rfl

/-- A watchpoint packet is for no breakpoint. -/
theorem kind_ne_breakpoint {kind : Byte} {mode : BitVec 2} (h : requestedMode kind = some mode) :
    kind ≠ ascii '1' := by
  rintro rfl
  cases h

namespace WpLoop

/-- The loop variables in iteration `i`. -/
def iteration (mode : BitVec 2) (i : Fin 4) : WpLoop :=
  ⟨i, wpBit i, place 32 (2 + i * 2) mode, mask 32 (2 + i * 2) 2⟩

/-- The variables of the first iteration. -/
theorem start_eq : ∀ mode : BitVec 2,
    start (mode.setWidth 8 <<< 2) = iteration mode 0 := by
  intro mode
  -- `char` is signed, but no mode reaches its sign bit
  have hmode : ∀ mode : BitVec 2,
      (mode.setWidth 8 <<< 2).signExtend 32 = place 32 2 mode := by decide
  simp only [start, iteration, hmode]
  rfl

/-- The variables of each further iteration. -/
theorem next_iteration (mode : BitVec 2) (i : Fin 3) :
    (iteration mode i.castSucc).next = iteration mode i.succ := by
  have hplace : ∀ (mode : BitVec 2) (i : Fin 3),
      place 32 (2 + i.castSucc * 2) mode <<< 2 = place 32 (2 + i.succ * 2) mode := by decide
  have hmask : ∀ i : Fin 3,
      mask 32 (2 + i.castSucc * 2) 2 <<< 2 = mask 32 (2 + i.succ * 2) 2 := by decide
  have hbit : ∀ i : Fin 3, wpBit i.castSucc <<< 1 = wpBit i.succ := by decide
  simp only [next, iteration, hplace, hmask, hbit]
  rfl

/-- The loop over four registers breaks in the first iteration with the property. -/
theorem find_four (p : WpLoop → Bool) (mode : BitVec 2) :
    find p 4 (start (mode.setWidth 8 <<< 2)) =
      (first fun i => p (iteration mode i)).map (iteration mode) := by
  have h0 : (iteration mode 0).next = iteration mode 1 := next_iteration mode 0
  have h1 : (iteration mode 1).next = iteration mode 2 := next_iteration mode 1
  have h2 : (iteration mode 2).next = iteration mode 3 := next_iteration mode 2
  have hrange : List.finRange 4 = [0, 1, 2, 3] := rfl
  rw [start_eq, first, hrange]
  simp only [find, h0, h1, h2, List.find?_cons, List.find?_nil]
  cases p (iteration mode 0) <;> cases p (iteration mode 1) <;> cases p (iteration mode 2) <;>
    cases p (iteration mode 3) <;> rfl

end WpLoop

/-- The stub's own tables and the control fields of DC hold the requests `t`. -/
structure Tracks (s : Stub) (t : Table 4 Watch) : Prop where
  enabled : ∀ i : Fin 4, test s.bpwpEnabled (wpBit i) = (t i).isSome
  address : ∀ (i : Fin 4) w, t i = some w → s.wpAddress i = w.address
  mode : ∀ i : Fin 4, dcField s.dc i = ((t i).map Watch.mode).getD 0
  control : ∀ i : Fin 4, s.debug.wpcC i = dcField s.dc i

section Tables

variable {s : Stub} {t : Table 4 Watch} {w : Watch} {i : Fin 4}

/-- Each watchpoint register has its own bit of `bpwp_enabled`. -/
theorem test_set_wpBit (v : Word) (i j : Fin 4) :
    test (v ||| wpBit i) (wpBit j) = (test v (wpBit j) || decide (j = i)) := by
  rw [wpBit, wpBit, test_set v (by omega)]
  simp [Fin.ext_iff]

/-- The same for clearing a bit. -/
theorem test_clear_wpBit (v : Word) (i j : Fin 4) :
    test (v &&& ~~~wpBit i) (wpBit j) = (test v (wpBit j) && !decide (j = i)) := by
  rw [wpBit, wpBit, test_clear v (by omega)]
  simp [Fin.ext_iff]

/-- Each watchpoint has its own field of DC. -/
theorem dcField_replace (v : Word) (mode : BitVec 2) (i j : Fin 4) :
    dcField (v &&& ~~~mask 32 (2 + i * 2) 2 ||| place 32 (2 + i * 2) mode) j =
      if j = i then mode else dcField v j := by
  by_cases hji : j = i
  · subst hji
    rw [if_pos rfl, dcField, Library.BitField.extract_replace_self (by omega)]
  · have hne : (j : Nat) ≠ i := fun h => hji (Fin.ext h)
    rw [if_neg hji, dcField, Library.BitField.extract_replace_of_disjoint (by omega)]
    rfl

/-- The same for clearing a field. -/
theorem dcField_clear (v : Word) (i j : Fin 4) :
    dcField (v &&& ~~~mask 32 (2 + i * 2) 2) j = if j = i then 0 else dcField v j := by
  rw [Library.BitField.clear_eq_replace, dcField_replace]

/-- Taking a slot keeps the tables equal to the requests. -/
theorem Tracks.put (h : Tracks s t) (i : Fin 4) (w : Watch) :
    Tracks (s.takeWatchpoint (.iteration w.mode i) w.address) (t.put i w) := by
  refine ⟨?_, ?_, ?_, ?_⟩
  · intro j
    simp only [Stub.takeWatchpoint, Stub.wcsr, WpLoop.iteration, test_set_wpBit, h.enabled j,
      Table.put, Function.update_apply]
    by_cases hji : j = i <;> simp [hji]
  · intro j w' hj
    simp only [Stub.takeWatchpoint, Stub.wcsr, WpLoop.iteration, Function.update_apply,
      Fin.val_inj]
    simp only [Table.put, Function.update_apply] at hj
    by_cases hji : j = i
    · simp only [hji, if_true, Option.some.injEq] at hj ⊢
      rw [hj]
    · simp only [hji, if_false] at hj ⊢
      exact h.address j w' hj
  · intro j
    simp only [Stub.takeWatchpoint, Stub.wcsr, WpLoop.iteration, dcField_replace, h.mode j,
      Table.put, Function.update_apply]
    by_cases hji : j = i <;> simp [hji]
  · intro j
    simp only [Stub.takeWatchpoint, Stub.wcsr, Debug.write_dc_wpcC]

/-- Giving a slot up keeps the tables equal to the requests. -/
theorem Tracks.erase (h : Tracks s t) (mode : BitVec 2) (i : Fin 4) :
    Tracks (s.dropWatchpoint (.iteration mode i)) (t.erase i) := by
  refine ⟨?_, ?_, ?_, ?_⟩
  · intro j
    simp only [Stub.dropWatchpoint, Stub.wcsr, WpLoop.iteration, test_clear_wpBit, h.enabled j,
      Table.erase, Function.update_apply]
    by_cases hji : j = i <;> simp [hji]
  · intro j w' hj
    simp only [Table.erase, Function.update_apply] at hj
    by_cases hji : j = i
    · simp [hji] at hj
    · simp only [hji, if_false] at hj
      exact h.address j w' hj
  · intro j
    simp only [Stub.dropWatchpoint, Stub.wcsr, WpLoop.iteration, dcField_clear, h.mode j,
      Table.erase, Function.update_apply]
    by_cases hji : j = i <;> simp [hji]
  · intro j
    simp only [Stub.dropWatchpoint, Stub.wcsr, Debug.write_dc_wpcC]

/-- The tables do not depend on the packet received. -/
theorem Tracks.receive (h : Tracks s t) (packet : Nat → Byte) : Tracks (s.receive packet) t :=
  ⟨h.enabled, h.address, h.mode, h.control⟩

/-- The tables do not depend on the reply. -/
theorem Tracks.reply (h : Tracks s t) (r : String) : Tracks (s.reply r) t :=
  ⟨h.enabled, h.address, h.mode, h.control⟩

/-- `set_hw_watchpoint` inserts into the first empty slot. -/
theorem Tracks.setHwWatchpoint (h : Tracks s t) (hcfg : s.cfg >>> 22 &&& 0xf = 4) (w : Watch) :
    s.setHwWatchpoint w.address ((w.mode.setWidth 8 : Byte) <<< 2) =
      match t.free with
      | some i => (true, s.takeWatchpoint (.iteration w.mode i) w.address)
      | none => (false, s) := by
  have hfree : (fun i => !test s.bpwpEnabled (WpLoop.iteration w.mode i).bit) =
      fun i => (t i).isNone := by
    funext i
    simp only [WpLoop.iteration, h.enabled i, Option.not_isSome]
  have hfind := WpLoop.find_four (fun l => !test s.bpwpEnabled l.bit) w.mode
  rw [hfree] at hfind
  simp only [Stub.setHwWatchpoint, hcfg]
  rw [show (4 : Word).toNat = 4 from rfl, hfind, Table.free]
  cases first fun i => (t i).isNone <;> rfl

/-- `disable_hw_watchpoint` removes the first entry with the given address and mode. -/
theorem Tracks.disableHwWatchpoint (h : Tracks s t) (w : Watch) :
    s.disableHwWatchpoint w.address ((w.mode.setWidth 8 : Byte) <<< 2) =
      match t.find w with
      | some i => (true, s.dropWatchpoint (.iteration w.mode i))
      | none => (false, s) := by
  have hwatches : (fun i => s.watches w.address (WpLoop.iteration w.mode i)) =
      fun i => t i == some w := by
    funext i
    have hmode := h.mode i
    have hfield : s.dc &&& mask 32 (2 + i * 2) 2 = place 32 (2 + i * 2) w.mode ↔
        dcField s.dc i = w.mode := Library.BitField.masked_eq_iff (by omega)
    rw [Bool.eq_iff_iff]
    simp only [Stub.watches, WpLoop.iteration, h.enabled i, Bool.and_eq_true, beq_iff_eq, hfield]
    cases hi : t i with
    | none => simp
    | some w' =>
        -- the field of DC is the mode of the entry, so the entry is compared as a whole
        obtain ⟨address', mode'⟩ := w'
        obtain ⟨address, mode⟩ := w
        simp only [hi, Option.map_some, Option.getD_some] at hmode
        simp [h.address i _ hi, hmode]
  simp only [Stub.disableHwWatchpoint, WpLoop.find_four, hwatches, Table.find]
  cases first fun i => t i == some w <;> rfl

end Tables

/-! ## Sessions -/

/-- A session: the stub, and the watchpoints GDB asked for. -/
structure Session where
  stub : Stub
  requested : Table 4 Watch

/-- The watchpoint a well-formed packet names. -/
def watchOf (packet : Nat → Byte) : Option Watch := do
  let address ← breakArgs packet
  let mode ← requestedMode (packet 1)
  pure ⟨address, mode⟩

/-- The packet asks for an insertion. -/
def Inserts (packet : Nat → Byte) : Prop := packet 0 = ascii 'Z'

instance (packet : Nat → Byte) : Decidable (Inserts packet) :=
  inferInstanceAs (Decidable (_ = _))

/-- The requests after a packet. -/
def Session.request (s : Session) (packet : Nat → Byte) : Table 4 Watch :=
  match watchOf packet with
  | some w => ((if Inserts packet then s.requested.insert w else s.requested.remove w)).getD
      s.requested
  | none => s.requested

/-- The stub handles a packet. -/
def Session.next (s : Session) (packet : Nat → Byte) : Session where
  stub := (s.stub.receive packet).cmdBreak
  requested := s.request packet

namespace Watchpoints

/-- Sessions of watchpoint packets from a cleared state, on a CPU with four watchpoints. -/
def machine : Machine Session (Nat → Byte) where
  Initial s := s.stub.bpwpEnabled = 0 ∧ s.stub.dc = 0 ∧ (∀ i, s.stub.debug.wpcC i = 0) ∧
    s.stub.cfg >>> 22 &&& 0xf = 4 ∧ ∀ i, s.requested i = none
  Allowed _ packet := (packet 0 = ascii 'Z' ∨ packet 0 = ascii 'z') ∧
    (requestedMode (packet 1)).isSome = true
  next := Session.next

instance (s : Session) (packet : Nat → Byte) : Decidable (machine.Allowed s packet) :=
  inferInstanceAs (Decidable (_ ∧ _))

end Watchpoints

/-- The first watchpoint register that is not in use. -/
def Stub.firstFree (s : Stub) : Option (Fin 4) :=
  first fun i => !test s.bpwpEnabled (wpBit i)

/-- An insertion that takes effect finds register 0 free, or it asks for the address register 0
watches while WP`i` holds that address already. -/
def LandsRight (s : Session) (packet : Nat → Byte) : Prop :=
  match watchOf packet, s.stub.firstFree with
  | some w, some i => Inserts packet →
      i = 0 ∨ s.stub.wpAddress 0 = w.address ∧ s.stub.debug.wp i = w.address
  | _, _ => True

instance (s : Session) (packet : Nat → Byte) : Decidable (LandsRight s packet) := by
  unfold LandsRight
  split <;> infer_instance

namespace Session

/-- What holds in every run: the stub's own tables are the requests. -/
structure Faithful (s : Session) : Prop where
  cfg : s.stub.cfg >>> 22 &&& 0xf = 4
  tracks : Tracks s.stub s.requested

/-- The watchpoint registers hold the requested addresses. -/
def Watching (s : Session) : Prop :=
  ∀ i w, s.requested i = some w → s.stub.debug.wp i = w.address

/-- For every slot in use, WP`i` holds its address and the field of DC the requested mode; the
fields of the other slots are zero. -/
def Agrees (s : Session) : Prop :=
  ∀ i : Fin 4,
    (test s.stub.bpwpEnabled (wpBit i) = true →
      s.stub.debug.wp i = s.stub.wpAddress i ∧
        ∃ w, s.requested i = some w ∧ s.stub.wpAddress i = w.address ∧
          s.stub.debug.wpcC i = w.mode) ∧
      (test s.stub.bpwpEnabled (wpBit i) = false → s.stub.debug.wpcC i = 0)

variable {s : Session} {packet : Nat → Byte} {w : Watch}

/-- A packet that is no well-formed watchpoint packet changes the reply only. -/
theorem next_malformed (hallowed : Watchpoints.machine.Allowed s packet)
    (hw : watchOf packet = none) :
    s.next packet = { s with stub := (s.stub.receive packet).reply "E22" } := by
  have hargs : breakArgs packet = none := by
    cases hargs : breakArgs packet with
    | none => rfl
    | some address =>
        obtain ⟨mode, hmode⟩ := Option.isSome_iff_exists.1 hallowed.2
        simp [watchOf, hargs, hmode] at hw
  simp only [next, request, hw, Stub.cmdBreak, Stub.receive, hargs]

/-- `cmd_break` on a well-formed watchpoint packet. -/
theorem cmdBreak_eq (hw : watchOf packet = some w) :
    (s.stub.receive packet).cmdBreak =
      let result :=
        if Inserts packet then
          (s.stub.receive packet).setHwWatchpoint w.address ((w.mode.setWidth 8 : Byte) <<< 2)
        else
          (s.stub.receive packet).disableHwWatchpoint w.address ((w.mode.setWidth 8 : Byte) <<< 2)
      result.2.reply (if result.1 then "OK" else "E28") := by
  obtain ⟨address, mode⟩ := w
  simp only [watchOf, Option.bind_eq_bind, Option.bind_eq_some_iff, Option.pure_def,
    Option.some.injEq, Watch.mk.injEq] at hw
  obtain ⟨_, hargs, _, hmode, rfl, rfl⟩ := hw
  have hkind := kind_ne_breakpoint hmode
  simp only [Stub.cmdBreak, Stub.receive_remcomInBuffer, hargs, hkind, if_false, watchMode_eq,
    hmode, Option.map_some]
  rfl

/-- An insertion goes to the first empty slot. -/
theorem Faithful.next_insert (h : s.Faithful) (hw : watchOf packet = some w)
    (hinsert : Inserts packet) :
    s.next packet =
      match s.requested.free with
      | some i =>
          ⟨((s.stub.receive packet).takeWatchpoint (.iteration w.mode i) w.address).reply "OK",
            s.requested.put i w⟩
      | none => ⟨(s.stub.receive packet).reply "E28", s.requested⟩ := by
  simp only [next, request, hw, hinsert, if_true, cmdBreak_eq hw,
    (h.tracks.receive packet).setHwWatchpoint h.cfg w, Table.insert]
  cases s.requested.free <;> rfl

/-- A removal empties the first slot with the given entry. -/
theorem Faithful.next_remove (h : s.Faithful) (hw : watchOf packet = some w)
    (hremove : ¬ Inserts packet) :
    s.next packet =
      match s.requested.find w with
      | some i =>
          ⟨((s.stub.receive packet).dropWatchpoint (.iteration w.mode i)).reply "OK",
            s.requested.erase i⟩
      | none => ⟨(s.stub.receive packet).reply "E28", s.requested⟩ := by
  simp only [next, request, hw, hremove, if_false, cmdBreak_eq hw,
    (h.tracks.receive packet).disableHwWatchpoint w, Table.remove]
  cases s.requested.find w <;> rfl

/-- Every packet keeps the stub's own tables equal to the requests. -/
theorem Faithful.next (h : s.Faithful) (hallowed : Watchpoints.machine.Allowed s packet) :
    (s.next packet).Faithful := by
  have htracks := h.tracks.receive packet
  cases hw : watchOf packet with
  | none =>
      rw [next_malformed hallowed hw]
      exact ⟨h.cfg, htracks.reply "E22"⟩
  | some w =>
      by_cases hinsert : Inserts packet
      · rw [h.next_insert hw hinsert]
        cases s.requested.free with
        | none => exact ⟨h.cfg, htracks.reply "E28"⟩
        | some i => exact ⟨h.cfg, (htracks.put i w).reply "OK"⟩
      · rw [h.next_remove hw hinsert]
        cases s.requested.find w with
        | none => exact ⟨h.cfg, htracks.reply "E28"⟩
        | some i => exact ⟨h.cfg, (htracks.erase w.mode i).reply "OK"⟩

/-- The register taken is the first empty slot. -/
theorem Faithful.firstFree (h : s.Faithful) : s.stub.firstFree = s.requested.free := by
  rw [Stub.firstFree, Table.free]
  congr 1
  funext i
  rw [h.tracks.enabled i, Option.not_isSome]

/-- What taking slot `i` leaves in the watchpoint registers. -/
theorem takeWatchpoint_wp (st : Stub) (l : WpLoop) (address : Word) (j : Fin 4) :
    (st.takeWatchpoint l address).debug.wp j = if j = 0 then address else st.debug.wp j := by
  have hzero : st.debug.write (CSR_WP 0) address = st.debug.write (CSR_WP (0 : Fin 4)) address :=
    rfl
  simp only [Stub.takeWatchpoint, Stub.wcsr, Debug.write_dc_wp, hzero, Debug.write_wp_wp]

/-- Inserting into slot `i` keeps the registers on the requested addresses exactly when it lands
right. -/
theorem Faithful.watching_put_iff (h : s.Faithful) (hwatch : s.Watching) {i : Fin 4}
    (hfree : s.requested.free = some i) (st : Stub)
    (hst : st.debug.wp = s.stub.debug.wp) :
    Watching ⟨st.takeWatchpoint (.iteration w.mode i) w.address, s.requested.put i w⟩ ↔
      i = 0 ∨ s.stub.wpAddress 0 = w.address ∧ s.stub.debug.wp i = w.address := by
  constructor
  · intro hafter
    by_cases hi : i = 0
    · exact .inl hi
    · -- WP`i` was not written, so it must have held the address before
      have hslot := hafter i w (by simp [Table.put])
      rw [takeWatchpoint_wp, if_neg hi, hst] at hslot
      -- Slot 0 is in use, and its entry is now compared with the new address.
      obtain ⟨w0, hw0⟩ := Option.isSome_iff_exists.1
        (Table.free_lt hfree (Fin.pos_iff_ne_zero.2 hi))
      have hzero := hafter 0 w0 (by simpa [Table.put, Function.update_apply, Ne.symm hi] using hw0)
      rw [takeWatchpoint_wp, if_pos rfl] at hzero
      exact .inr ⟨(h.tracks.address 0 w0 hw0).trans hzero.symm, hslot⟩
  · intro hlands j w' hj
    simp only [Table.put, Function.update_apply] at hj
    rw [takeWatchpoint_wp, hst]
    by_cases hji : j = i
    · subst hji
      simp only [if_true, Option.some.injEq] at hj
      subst hj
      obtain rfl | ⟨-, hslot⟩ := hlands
      · rfl
      · split_ifs
        · rfl
        · exact hslot
    · rw [if_neg hji] at hj
      by_cases hzero : j = 0
      · subst hzero
        rw [if_pos rfl]
        obtain rfl | ⟨haddress, -⟩ := hlands
        · exact absurd rfl hji
        · exact haddress.symm.trans (h.tracks.address 0 w' hj)
      · rw [if_neg hzero]
        exact hwatch j w' hj

/-- From a session that watches the requested addresses, a packet leads to one exactly when it
lands right. -/
theorem Faithful.watching_next_iff (h : s.Faithful) (hwatch : s.Watching)
    (hallowed : Watchpoints.machine.Allowed s packet) :
    (s.next packet).Watching ↔ LandsRight s packet := by
  unfold LandsRight
  cases hw : watchOf packet with
  | none =>
      rw [next_malformed hallowed hw]
      exact iff_of_true hwatch trivial
  | some w =>
      by_cases hinsert : Inserts packet
      · rw [h.next_insert hw hinsert, h.firstFree]
        cases hfree : s.requested.free with
        | none => exact iff_of_true hwatch trivial
        | some i =>
            have hput := h.watching_put_iff (w := w) hwatch hfree (s.stub.receive packet) rfl
            exact hput.trans ⟨fun hlands _ => hlands, fun hlands => hlands hinsert⟩
      · rw [h.next_remove hw hinsert]
        have hright : match some w, s.stub.firstFree with
            | some w, some i => Inserts packet →
                i = 0 ∨ s.stub.wpAddress 0 = w.address ∧ s.stub.debug.wp i = w.address
            | _, _ => True := by
          cases s.stub.firstFree with
          | none => trivial
          | some i => exact fun h => absurd h hinsert
        refine iff_of_true ?_ hright
        cases s.requested.find w with
        | none => exact hwatch
        | some i =>
            intro j w' hj
            simp only [Table.erase, Function.update_apply] at hj
            have hj' : s.requested j = some w' := by
              by_cases hji : j = i
              · simp [hji] at hj
              · simpa [hji] using hj
            have hwp : (s.stub.receive packet).debug.wp j = w'.address := hwatch j w' hj'
            simpa only [Stub.reply, Stub.dropWatchpoint, Stub.wcsr, Debug.write_dc_wp] using hwp

/-- With the stub's tables equal to the requests, the slots agree exactly when the watchpoint
registers hold the requested addresses. -/
theorem Faithful.agrees_iff (h : s.Faithful) : s.Agrees ↔ s.Watching := by
  constructor
  · intro hagrees i w hi
    have hused : test s.stub.bpwpEnabled (wpBit i) = true := by
      rw [h.tracks.enabled i, hi, Option.isSome_some]
    rw [((hagrees i).1 hused).1, h.tracks.address i w hi]
  · intro hwatch i
    have hfield := (h.tracks.control i).trans (h.tracks.mode i)
    rw [h.tracks.enabled i]
    cases hi : s.requested i with
    | none => exact ⟨fun hsome => by simp at hsome, fun _ => by simpa [hi] using hfield⟩
    | some w =>
        have haddress := h.tracks.address i w hi
        exact ⟨fun _ => ⟨(hwatch i w hi).trans haddress.symm, w, rfl, haddress,
          by simpa [hi] using hfield⟩, fun hnone => by simp at hnone⟩

/-- A session starts with the stub's tables equal to the requests, and nothing to watch. -/
theorem faithful_initial (h : Watchpoints.machine.Initial s) : s.Faithful ∧ s.Watching := by
  obtain ⟨henabled, hdc, hcontrol, hcfg, hrequested⟩ := h
  refine ⟨⟨hcfg, ⟨?_, ?_, ?_, ?_⟩⟩, ?_⟩
  · intro i
    rw [henabled, hrequested i]
    simp [test]
  · intro i w hi
    rw [hrequested i] at hi
    cases hi
  · intro i
    rw [hdc, hrequested i]
    simp [dcField]
  · intro i
    rw [hcontrol i, hdc]
    simp [dcField]
  · intro i w hi
    rw [hrequested i] at hi
    cases hi

/-- The replies `OK` and `E28` are told apart. -/
theorem replies_e28_iff (st : Stub) (ok : Bool) :
    (st.reply (if ok then "OK" else "E28")).Replies "E28" ↔ ok = false := by
  cases ok with
  | false => exact iff_of_true rfl rfl
  | true =>
      refine iff_of_false (fun h => ?_) Bool.noConfusion
      have hfirst : ascii 'O' = ascii 'E' := Option.some.inj (congrArg List.head? h)
      exact absurd hfirst (by decide)

/-- An insertion is refused exactly when all slots are in use, and then changes the reply only. -/
theorem Faithful.insert_refused_iff (h : s.Faithful) (hw : watchOf packet = some w)
    (hinsert : Inserts packet) :
    ((s.next packet).stub.Replies "E28" ↔ ∀ i : Fin 4, test s.stub.bpwpEnabled (wpBit i) = true) ∧
      ((s.next packet).stub.Replies "E28" →
        s.next packet = { s with stub := (s.stub.receive packet).reply "E28" }) := by
  have hall : (∀ i : Fin 4, test s.stub.bpwpEnabled (wpBit i) = true) ↔
      s.requested.free = none := by
    rw [Table.free_eq_none]
    exact forall_congr' fun i => by rw [h.tracks.enabled i]
  rw [h.next_insert hw hinsert, hall]
  cases s.requested.free with
  | none => exact ⟨iff_of_true ((replies_e28_iff _ false).2 rfl) rfl, fun _ => rfl⟩
  | some i =>
      have hok : ¬ (((s.stub.receive packet).takeWatchpoint (.iteration w.mode i)
          w.address).reply "OK").Replies "E28" := fun h => by
        cases (replies_e28_iff _ true).1 h
      exact ⟨iff_of_false hok (fun h => by cases h), fun h => absurd h hok⟩

end Session

namespace Watchpoints

/-- In a session, every slot agrees with its registers in all states exactly when every insertion
that takes effect lands right. In every session an insertion is refused exactly when all slots
are in use, and then changes nothing. -/
theorem watchpoints_agree_iff {s : Session} (h : machine.Initial s) {packets : List (Nat → Byte)}
    (hrun : machine.AllowedRun s packets) :
    (machine.Always Session.Agrees s packets ↔
        (machine.restrict LandsRight).AllowedRun s packets) ∧
      ∀ packet w, watchOf packet = some w → Inserts packet →
        let s := machine.run s packets
        ((s.next packet).stub.Replies "E28" ↔
            ∀ i : Fin 4, test s.stub.bpwpEnabled (wpBit i) = true) ∧
          ((s.next packet).stub.Replies "E28" →
            s.next packet = { s with stub := (s.stub.receive packet).reply "E28" }) := by
  obtain ⟨hfaithful, hwatch⟩ := Session.faithful_initial h
  have hinv : ∀ (s : Session) packet, s.Faithful → machine.Allowed s packet →
      (machine.next s packet).Faithful := fun _ _ h hallowed => h.next hallowed
  refine ⟨?_, fun packet w hw hinsert => ?_⟩
  · refine Machine.always_iff_restrict hinv ?_ hfaithful (hfaithful.agrees_iff.2 hwatch) hrun
    intro s packet hs hagrees hallowed
    have hnext := hs.watching_next_iff (hs.agrees_iff.1 hagrees) hallowed
    exact (hs.next hallowed).agrees_iff.trans hnext
  · exact (Machine.run_invariant hinv hfaithful hrun).insert_refused_iff hw hinsert

/-- The stub after reset: nothing in use, and nothing asked for. -/
def start : Session where
  stub :=
    { remcomInBuffer := fun _ => 0
      remcomOutBuffer := fun _ => 0
      bpAddress := fun _ => 0
      wpAddress := fun _ => 0
      bpwpEnabled := 0
      gdbConnected := true
      dc := 0
      cfg := 0x01100000
      debug := ⟨fun _ => 0, fun _ => false, fun _ => 0, fun _ => 0, false⟩
      written := fun _ => none
      mem := fun _ => 0
      registers := 0x10001f00
      scratchpad := 1 }
  requested := fun _ => none

/-- Two write watchpoints: the second one moves WP0 away from the address of the first. -/
def twoWatchpoints : List (Nat → Byte) :=
  [packet "Z2,1000,4", packet "Z2,2000,4"]

/-- After the two insertions slot 0 does not watch its address. -/
theorem first_watchpoint_moved :
    ¬ ∀ s packets, machine.Initial s → machine.AllowedRun s packets →
      (machine.run s packets).Agrees := by
  intro h
  have hagrees := h start twoWatchpoints ⟨rfl, rfl, fun _ => rfl, rfl, fun _ => rfl⟩ (by decide)
  have hslot := ((hagrees 0).1 (by decide)).1
  exact absurd hslot (by decide)

/-- One watchpoint lands right, and its slot agrees. -/
theorem watchpoints_agree_iff_one :
    machine.Always Session.Agrees start (twoWatchpoints.take 1) := by
  have hinit : machine.Initial start := ⟨rfl, rfl, fun _ => rfl, rfl, fun _ => rfl⟩
  exact (watchpoints_agree_iff hinit (by decide)).1.2 (by decide)

end Watchpoints

end Soc.Gdbstub
