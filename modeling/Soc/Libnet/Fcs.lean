import Soc.Library.TableCrc
import Soc.Libnet.RoundTrip

/-!
# The frame check sequence

`process_frame` compares the last four bytes of a frame with `crc32` of the others. The state of
`crc32` after all of them is then a constant, and an error within four consecutive bytes, of the
data or of the checksum, leads to another state (`Library.TableCrc`). So a frame of `send_packet`
passes the check, and none with such an error does (`fcs_checked`).
-/

namespace Soc.Libnet

open Libbase (Access crc32 crcBlocks_eq crcTail crcTable do1 readByte)
open Library (Traced)
open Library.TableCrc

/-- The check of `process_frame`. -/
def FcsRight (raw : Slot) (rxlen : Int) : Prop :=
  raw (rxlen - 1) ++ raw (rxlen - 2) ++ raw (rxlen - 3) ++ raw (rxlen - 4) =
    (crc32 raw 8 (.ofInt 32 (rxlen - 12))).value

/-- What `process_frame` does after the check. -/
def dispatch (g : Globals) (raw : Slot) (rxlen : Int) : Traced Access Action := do
  let ethertype ← readHalf raw 20
  if ethertype = ETHERTYPE_ARP then processArp g raw (rxlen - 4)
  else
    let ethertype ← readHalf raw 20
    if ethertype = ETHERTYPE_IP then processIp g raw (rxlen - 4)
    else return .drop

/-- A frame with a good checksum, and a frame with an error of up to four bytes in it: the first one
passes the check of `process_frame`, and nothing comes of the second. -/
structure FcsChecked (g : Globals) (slot : Slot) (rxlen : Int) : Prop where
  right : FcsRight slot rxlen
  passes : PreambleValid slot → (processFrame g slot rxlen).value = (dispatch g slot rxlen).value
  detects : ∀ (slot' : Slot) (first last : Int), 8 ≤ first → first ≤ last → last ≤ first + 4 →
    last ≤ rxlen → slot.Agrees slot' 0 first → slot.Agrees slot' last rxlen →
    ¬ slot.Agrees slot' first last → (processFrame g slot' rxlen).value = .drop

section Check

variable {g : Globals} {raw : Slot} {rxlen : Int}

/-- A frame that fails the check is dropped. -/
theorem processFrame_of_not_right (h : ¬ FcsRight raw rxlen) :
    (processFrame g raw rxlen).value = .drop := by
  unfold processFrame
  rw [Traced.value_bind]
  split
  · rfl
  · simp only [Traced.value_bind]
    split
    · rfl
    · rename_i hpass
      exact absurd (Decidable.not_not.1 hpass) h

/-- A frame that passes it is dispatched. -/
theorem processFrame_of_right (hpreamble : PreambleValid raw) (h : FcsRight raw rxlen) :
    (processFrame g raw rxlen).value = (dispatch g raw rxlen).value := by
  have hvalid : ¬ (!(preambleFrom raw 0 7).value) = true := by
    rw [preamble_value.2 hpreamble]
    decide
  refine Traced.value_passed hvalid ?_
  exact Traced.value_passed (not_not_intro h) rfl

end Check

section Crc

variable {mem : Slot}

/-- An entry of `crc_table`. -/
def crcEntry (i : Byte) : Word := crcTable.getD i.toNat 0

/-- The upper bytes of `crc_table` are all different. -/
theorem crcEntry_reversible : Reversible crcEntry :=
  reversible_of_unseen (by decide +kernel) (by decide +kernel)

/-- `DO1` is a step of the checksum. -/
theorem do1_value (s : Word × Int) :
    (do1 mem s).value = (step crcEntry s.1 (mem s.2), s.2 + 1) := by
  have hindex : ((s.1 ^^^ (mem s.2).setWidth 32) &&& 0xff).toNat =
      ((s.1 ^^^ (mem s.2).setWidth 32).extractLsb' 0 8).toNat := by
    rw [BitVec.toNat_and, BitVec.extractLsb'_toNat, Nat.shiftRight_zero]
    exact Nat.and_two_pow_sub_one_eq_mod _ 8
  have hshift : (s.1 ^^^ (mem s.2).setWidth 32) >>> 8 = s.1 >>> 8 := by
    rw [BitVec.ushiftRight_xor_distrib, setWidth_shift, BitVec.xor_zero]
  rw [do1, Traced.value_bind, step, shift, crcEntry, ← hindex, hshift]
  rfl

/-- A loop of `crc32` is a fold over its bytes. -/
theorem crcTail_value (len : Nat) (s : Word × Int) :
    (crcTail mem len s).value.1 = fold crcEntry s.1 (mem.slice s.2 len) := by
  induction len generalizing s with
  | zero => rfl
  | succ len ih =>
      rw [crcTail, Traced.value_bind, do1_value, ih]
      rfl

/-- `crc32` as a fold. -/
theorem crc32_value (buffer : Int) (len : Word) :
    (crc32 mem buffer len).value =
      fold crcEntry 0xffffffff (mem.slice buffer len.toNat) ^^^ 0xffffffff := by
  rw [crc32]
  simp only [Traced.value_bind, Traced.value_touch, Traced.value_pure, crcBlocks_eq, crcTail_value]

/-- The four bytes of the checksum as a word. -/
theorem word_slice (offset : Int) : word (mem.slice offset 4) =
    mem (offset + 3) ++ mem (offset + 2) ++ mem (offset + 1) ++ mem offset := by
  have h2 : offset + 1 + 1 = offset + 2 := by omega
  have h3 : offset + 2 + 1 = offset + 3 := by omega
  simp only [Slot.slice, h2, h3]
  exact word_four _ _ _ _

/-- The check looks at the state after all the bytes, those of the checksum included. -/
theorem fcsRight_iff {n : Nat} (hn : n < 4294967296) : FcsRight mem (12 + n) ↔
    fold crcEntry 0xffffffff (mem.slice 8 (n + 4)) = (shift crcEntry)^[4] 0xffffffff := by
  have hlength : (BitVec.ofInt 32 ((12 : Int) + n - 12)).toNat = n := by
    rw [BitVec.toNat_ofInt]
    omega
  have h1 : (12 : Int) + n - 1 = 8 + n + 3 := by omega
  have h2 : (12 : Int) + n - 2 = 8 + n + 2 := by omega
  have h3 : (12 : Int) + n - 3 = 8 + n + 1 := by omega
  have h4 : (12 : Int) + n - 4 = 8 + n := by omega
  have hiterate : (shift crcEntry)^[4]
      (fold crcEntry 0xffffffff (mem.slice 8 n) ^^^ word (mem.slice (8 + n) 4)) =
        (shift crcEntry)^[4] 0xffffffff ↔
      fold crcEntry 0xffffffff (mem.slice 8 n) ^^^ word (mem.slice (8 + n) 4) = 0xffffffff :=
    ((shift_injective crcEntry_reversible).iterate 4).eq_iff
  have hstate : fold crcEntry 0xffffffff (mem.slice 8 (n + 4)) = (shift crcEntry)^[4]
      (fold crcEntry 0xffffffff (mem.slice 8 n) ^^^ word (mem.slice (8 + n) 4)) := by
    have hfour : (mem.slice (8 + n) 4).length = 4 := Slot.length_slice 4
    rw [Slot.slice_add, fold_append, fold_eq_iterate (Nat.le_of_eq hfour), hfour]
  rw [FcsRight, crc32_value, hlength, h1, h2, h3, h4, ← word_slice, hstate, hiterate]
  constructor
  · intro h
    rw [h, ← BitVec.xor_assoc, BitVec.xor_self, BitVec.zero_xor]
  · intro h
    exact (BitVec.xor_right_inj (fold crcEntry 0xffffffff (mem.slice 8 n))).1 (by
      rw [h, ← BitVec.xor_assoc, BitVec.xor_self, BitVec.zero_xor])

end Crc

/-- An error within four consecutive bytes of a frame with a good checksum makes it fail the
check. -/
theorem not_right_of_error {raw raw' : Slot} {first last rxlen : Int} (hlow : 12 ≤ rxlen)
    (hhigh : rxlen < 4294967296) (hright : FcsRight raw rxlen) (hfirst : 8 ≤ first)
    (hle : first ≤ last) (hwindow : last ≤ first + 4) (hlast : last ≤ rxlen)
    (hbefore : raw.Agrees raw' 0 first) (hafter : raw.Agrees raw' last rxlen)
    (herror : ¬ raw.Agrees raw' first last) : ¬ FcsRight raw' rxlen := by
  intro hright'
  obtain ⟨n, rfl⟩ : ∃ n : Nat, rxlen = 12 + n := ⟨(rxlen - 12).toNat, by omega⟩
  obtain ⟨before, rfl⟩ : ∃ before : Nat, first = 8 + before := ⟨(first - 8).toNat, by omega⟩
  obtain ⟨window, rfl⟩ : ∃ window : Nat, last = 8 + before + window :=
    ⟨(last - (8 + before)).toNat, by omega⟩
  obtain ⟨after, hn⟩ : ∃ after, n + 4 = before + window + after :=
    ⟨n + 4 - (before + window), by omega⟩
  have hslice : ∀ mem : Slot, mem.slice 8 (n + 4) =
      mem.slice 8 before ++ mem.slice (8 + before) window ++
        mem.slice (8 + before + window) after := by
    intro mem
    rw [hn, Slot.slice_add, Slot.slice_add, Int.natCast_add, ← Int.add_assoc]
  have hbefore' : raw'.slice 8 before = raw.slice 8 before :=
    ((hbefore.mono (by decide) (Int.le_refl _)).slice).symm
  have hafter' : raw'.slice (8 + before + window) after = raw.slice (8 + before + window) after :=
    ((hafter.mono (Int.le_refl _) (by omega)).slice).symm
  rw [fcsRight_iff (by omega), hslice] at hright hright'
  rw [hbefore', hafter', ← hright] at hright'
  have hsame := fold_window crcEntry_reversible
    ((Slot.length_slice window).trans (Slot.length_slice window).symm)
    (Nat.le_trans (Nat.le_of_eq (Slot.length_slice window)) (by omega)) hright'
  exact herror (Slot.agrees_of_slice hsame.symm)

/-- What `send_packet` completes passes the check of `process_frame` when it is received unchanged,
and is dropped when up to four consecutive bytes from the destination on have changed. -/
theorem fcs_checked (g : Globals) (o : Outgoing) (hlow : 8 ≤ o.txlen)
    (hhigh : o.txlen + 4 < 2147483648) (slot : Slot)
    (hreceived : (sendPacket o).raw.Agrees slot 0 (sendPacket o).txlen) :
    FcsChecked g slot (sendPacket o).txlen := by
  have hright : FcsRight slot (sendPacket o).txlen := fcs_received hlow hhigh hreceived rfl
  refine ⟨hright, fun hpreamble => processFrame_of_right hpreamble hright, ?_⟩
  intro slot' first last hfirst hle hwindow hlast hbefore hafter herror
  have hrxlen : ((sendPacket o).txlen : Int) = o.txlen + 4 := rfl
  exact processFrame_of_not_right (not_right_of_error (by omega) (by omega) hright hfirst hle
    hwindow hlast hbefore hafter herror)

/-- The ARP request of 192.168.0.42 for 192.168.0.14. -/
def request : Outgoing :=
  arpRequest (fun _ => 0) [0x00, 0x13, 0x06, 0xe8, 0x53, 0xdf] 0xc0a8002a 0xc0a8000e

/-- The check of an ARP request at another node. -/
theorem fcs_checked_request : FcsChecked ⟨0xc0a8000e, 0, true⟩ (sendPacket request).raw 72 :=
  fcs_checked _ request (by decide) (by decide) _ fun _ _ _ => rfl

end Soc.Libnet
