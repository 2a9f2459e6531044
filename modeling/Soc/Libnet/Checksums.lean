import Soc.Library.OnesComplement
import Soc.Libnet.RoundTrip

/-!
# The checksums of a datagram

`ip_checksum` adds half words in 32 bits and brings the overflows around at the end, in two stages
for the UDP checksum. What it computes is the one's complement of `Library.OnesComplement`, so a
receiver that adds everything up finds 0xffff in every frame of `microudp_send`
(`send_checksums_verify`).
-/

namespace Soc.Libnet

open Library.OnesComplement

/-- The half words of some bytes, an odd last byte padded with 0. -/
def halves : List Byte → List Nat
  | [] => []
  | [high] => [(high ++ (0 : Byte)).toNat]
  | high :: low :: bytes => (high ++ low).toNat :: halves bytes

/-- The checksums of a frame with `length` bytes of payload, as a receiver tests them. -/
structure ChecksumsVerify (frame : Slot) (length : Nat) : Prop where
  ip : sum 0xffff (halves (frame.slice 22 20)) = 0xffff
  udp : sum 0xffff (halves (frame.slice 34 8 ++ [0, frame 31] ++ frame.slice 46 2 ++
    frame.slice 42 (SIZEOF_UDP_HEADER + length))) = 0xffff
  udp_ne_zero : frame.half 48 ≠ 0

/-- Half words are below 65536. -/
theorem halves_le {bytes : List Byte} : ∀ word ∈ halves bytes, word ≤ 0xffff := by
  induction bytes using halves.induct with
  | case1 => intro word h; cases h
  | case2 high =>
      intro word h
      rw [halves, List.mem_singleton] at h
      exact h ▸ Nat.le_of_lt_succ (BitVec.isLt _)
  | case3 high low bytes ih =>
      intro word h
      rw [halves, List.mem_cons] at h
      rcases h with rfl | h
      · exact Nat.le_of_lt_succ (BitVec.isLt _)
      · exact ih word h

/-- Bytes behind an even number of others. -/
theorem halves_append {bytes : List Byte} (h : bytes.length % 2 = 0) (bytes' : List Byte) :
    halves (bytes ++ bytes') = halves bytes ++ halves bytes' := by
  induction bytes using halves.induct with
  | case1 => rfl
  | case2 high => exact absurd h (by simp)
  | case3 high low bytes ih =>
      have heven : bytes.length % 2 = 0 := by
        rw [List.length_cons, List.length_cons] at h
        omega
      rw [List.cons_append, List.cons_append, halves, ih heven, halves, List.cons_append]

/-- A byte 0 behind an odd number of others is the padding. -/
theorem halves_padded {bytes : List Byte} (h : bytes.length % 2 = 1) :
    halves (bytes ++ [0]) = halves bytes := by
  induction bytes using halves.induct with
  | case1 => exact absurd h (by simp)
  | case2 high => rfl
  | case3 high low bytes ih =>
      have hodd : bytes.length % 2 = 1 := by
        rw [List.length_cons, List.length_cons] at h
        omega
      rw [List.cons_append, List.cons_append, halves, ih hodd, halves]

/-- A list stands at the start of the buffer that holds it. -/
theorem Slot.holds_slotOf (bytes : List Byte) : (slotOf bytes).Holds 0 bytes := by
  intro k hk
  show bytes.getD (0 + (k : Int)).toNat 0 = _
  rw [Int.zero_add, Int.toNat_natCast, List.getD_eq_getElem _ _ hk]

/-- The sum of the half words from an offset on. -/
def totalAt (raw : Slot) (offset : Int) (n : Nat) : Nat := total (halves (raw.slice offset n))

section Totals

variable {raw raw' : Slot} {offset : Int}

/-- Two ranges one behind the other. -/
theorem total_at_add {m : Nat} (h : m % 2 = 0) (n : Nat) :
    totalAt raw offset (m + n) = totalAt raw offset m + totalAt raw (offset + m) n := by
  rw [totalAt, Slot.slice_add, halves_append (by rw [Slot.length_slice]; exact h), total_append]
  rfl

/-- A range starts with a half word. -/
theorem total_at_half (n : Nat) :
    totalAt raw offset (2 + n) = (raw.half offset).toNat + totalAt raw (offset + 2) n := by
  rw [total_at_add rfl]
  rfl

/-- The sum over a range where buffers agree. -/
theorem total_at_congr {n : Nat} (h : raw.Agrees raw' offset (offset + n)) :
    totalAt raw offset n = totalAt raw' offset n := by
  rw [totalAt, totalAt, h.slice]

/-- Storing a half word where there was 0 adds it to the sum. -/
theorem total_at_put {m n : Nat} (h : m % 2 = 0) (hzero : raw.half (offset + m) = 0)
    (value : BitVec 16) :
    totalAt (raw.put (offset + m) (bytes16 value)) offset (m + (2 + n)) =
      totalAt raw offset (m + (2 + n)) + value.toNat := by
  have hhalf : (raw.put (offset + m) (bytes16 value)).half (offset + m) = value :=
    Slot.holds_put.half
  have hbefore : totalAt (raw.put (offset + m) (bytes16 value)) offset m = totalAt raw offset m :=
    total_at_congr fun i _ hlast => Slot.put_outside (.inl hlast)
  have hafter : totalAt (raw.put (offset + m) (bytes16 value)) (offset + m + 2) n =
      totalAt raw (offset + m + 2) n :=
    total_at_congr fun i hfirst _ => Slot.put_outside (.inr hfirst)
  rw [total_at_add h, total_at_add h, total_at_half, total_at_half, hhalf, hzero, hbefore, hafter]
  show _ = _ + (0 + _) + _
  omega

/-- An odd range and its padding. -/
theorem total_at_padded {n : Nat} (h : n % 2 = 1) (hzero : raw (offset + n) = 0) :
    totalAt raw offset (n + 1) = totalAt raw offset n := by
  have hpad : raw.slice (offset + n) 1 = [0] := by rw [Slot.slice, hzero]; rfl
  rw [totalAt, Slot.slice_add, hpad, halves_padded (by rw [Slot.length_slice]; exact h), totalAt]

/-- The half word of two bytes as the first loop of `ip_checksum` makes it. -/
theorem half_setWidth (high low : Byte) :
    (high.setWidth 32 <<< 8 ||| low.setWidth 32 : Word) = (high ++ low).setWidth 32 := by
  apply BitVec.eq_of_getLsbD_eq
  intro i hi
  simp only [BitVec.getLsbD_or, BitVec.getLsbD_shiftLeft, BitVec.getLsbD_setWidth,
    BitVec.getLsbD_append, hi, decide_true, Bool.true_and]
  by_cases hlow : i < 8
  · simp only [hlow, decide_true, Bool.not_true, Bool.false_and, Bool.false_or, if_true]
  · have hhigh : i - 8 < 32 := by omega
    have hnone : low.getLsbD i = false := BitVec.getLsbD_of_ge low i (Nat.le_of_not_lt hlow)
    simp [hlow, hhigh, hnone]

/-- The first loop of `ip_checksum` adds the half words, as long as they fit a word. -/
theorem toNat_addHalves {n : Nat} {r : Word} (h : r.toNat + 65535 * n < 4294967296) :
    (addHalves raw offset n r).toNat = r.toNat + totalAt raw offset (2 * n) := by
  induction n generalizing offset r with
  | zero => rfl
  | succ n ih =>
      have hhalf : ((raw offset).setWidth 32 <<< 8 ||| (raw (offset + 1)).setWidth 32 : Word) =
          (raw.half offset).setWidth 32 := half_setWidth _ _
      have hlt := (raw.half offset).isLt
      have hsum :
          (r + (raw.half offset).setWidth 32).toNat = r.toNat + (raw.half offset).toNat := by
        rw [BitVec.toNat_add, BitVec.toNat_setWidth]
        omega
      have hlength : 2 * (n + 1) = 2 + 2 * n := by omega
      rw [addHalves, hhalf, ih (by omega), hsum, hlength, total_at_half, Nat.add_assoc]

/-- The second loop of `ip_checksum` brings the overflows around. -/
theorem toNat_addOverflows (r : Word) : (addOverflows r).toNat = residue 0xffff r.toNat := by
  induction r using addOverflows.induct with
  | case1 r h =>
      rw [addOverflows, if_pos h]
      rw [overflows_eq_zero_iff] at h
      exact (residue_of_le (Nat.le_of_lt_succ h)).symm
  | case2 r h ih =>
      rw [addOverflows, if_neg h, ih, toNat_overflows]
      exact residue_carry 0xffff r.toNat

/-- The sum that `ip_checksum` has before it is complemented. -/
theorem toNat_sum {length : Nat} {r : Word} (h : r.toNat + 65535 * (length / 2) < 4294967296) :
    (addOverflows (addHalves raw offset (length / 2) r)).toNat =
      residue 0xffff (r.toNat + totalAt raw offset (2 * (length / 2))) := by
  rw [toNat_addOverflows, toNat_addHalves h]

/-- `ip_checksum` of a part. -/
theorem toNat_ipChecksum_running {length : Nat} {r : Word}
    (h : r.toNat + 65535 * (length / 2) < 4294967296) :
    (ipChecksum r raw offset length false).toNat =
      residue 0xffff (r.toNat + totalAt raw offset (2 * (length / 2))) := by
  have hle := residue_le (m := 0xffff) (by decide)
    (r.toNat + totalAt raw offset (2 * (length / 2)))
  rw [ipChecksum, if_neg Bool.false_ne_true, BitVec.toNat_setWidth, toNat_sum h]
  exact Nat.mod_eq_of_lt (Nat.lt_succ_of_le hle)

/-- `ip_checksum` of the whole. -/
theorem toNat_ipChecksum_complete {length : Nat} {r : Word}
    (h : r.toNat + 65535 * (length / 2) < 4294967296) :
    (ipChecksum r raw offset length true).toNat =
      complement 0xffff (r.toNat + totalAt raw offset (2 * (length / 2))) := by
  have hle := residue_le (m := 0xffff) (by decide)
    (r.toNat + totalAt raw offset (2 * (length / 2)))
  have hsum := @toNat_sum raw offset length r h
  have hmask : (~~~addOverflows (addHalves raw offset (length / 2) r) &&& (0xffff : Word)).toNat =
      0xffff - residue 0xffff (r.toNat + totalAt raw offset (2 * (length / 2))) := by
    rw [BitVec.toNat_and, BitVec.toNat_not, hsum]
    refine (Nat.and_two_pow_sub_one_eq_mod _ 16).trans ?_
    omega
  have hzero : ~~~addOverflows (addHalves raw offset (length / 2) r) &&& (0xffff : Word) = 0 ↔
      0xffff - residue 0xffff (r.toNat + totalAt raw offset (2 * (length / 2))) = 0 := by
    rw [← hmask, ← BitVec.toNat_inj]
    rfl
  rw [ipChecksum, if_pos rfl, complement, BitVec.toNat_setWidth]
  by_cases hfull : 0xffff - residue 0xffff (r.toNat + totalAt raw offset (2 * (length / 2))) = 0
  · rw [if_pos (hzero.2 hfull), if_pos hfull]
    rfl
  · rw [if_neg (fun h => hfull (hzero.1 h)), if_neg hfull, hmask]
    exact Nat.mod_eq_of_lt (by omega)

end Totals

namespace Send

variable {s : Send} {raw : Slot}

/-- `send_packet` leaves the headers and the payload. -/
theorem sent_agrees (s : Send) (raw : Slot) :
    (sendPacket (s.outgoing raw)).raw.Agrees (s.outgoing raw).raw 0 (s.length + 58) :=
  (sendPacket_agrees _).mono (Int.le_refl 0) (Int.ofNat_le.2 s.length_add_le_txlen)

/-- The IP header that is sent. -/
theorem routed_agrees (s : Send) (raw : Slot) :
    (sendPacket (s.outgoing raw)).raw.Agrees (s.routed raw) 0 42 := by
  intro i hfirst hlast
  have hudp : (s.routed raw).put 42 s.udpHeader i = s.routed raw i := Slot.put_outside (.inl hlast)
  have hpadded : s.padded raw i = s.routed raw i := by
    unfold padded
    split_ifs
    · exact (Slot.put_outside (.inl (by omega))).trans hudp
    · exact hudp
  rw [s.sent_agrees raw i hfirst (by omega)]
  exact (Slot.put_outside (.inl (by omega))).trans hpadded

/-- The IP checksum verifies. -/
theorem ip_verifies (s : Send) (raw : Slot) :
    sum 0xffff (halves ((sendPacket (s.outgoing raw)).raw.slice 22 20)) = 0xffff := by
  have hholds : ((s.addressed raw).put 22 (ipHeader s.length s.myIp s.cachedIp)).Holds 22 _ :=
    Slot.holds_put
  have hzero : ((s.addressed raw).put 22 (ipHeader s.length s.myIp s.cachedIp)).half
      (22 + (10 : Nat)) = 0 := hholds.append.1.append.1.append.2.half
  have htotal : totalAt (sendPacket (s.outgoing raw)).raw 22 20 =
      totalAt ((s.addressed raw).put 22 (ipHeader s.length s.myIp s.cachedIp)) 22 20 +
        (ipChecksum 0 ((s.addressed raw).put 22 (ipHeader s.length s.myIp s.cachedIp)) 22 20
          true).toNat :=
    (total_at_congr ((s.routed_agrees raw).mono (by decide) (by decide))).trans
      (total_at_put (m := 10) (n := 8) rfl hzero _)
  rw [sum_eq_residue (by decide) halves_le]
  show residue 0xffff (totalAt _ 22 20) = 0xffff
  rw [htotal, toNat_ipChecksum_complete (by decide)]
  show residue 0xffff (_ + complement 0xffff (0 + totalAt _ 22 20)) = 0xffff
  rw [Nat.zero_add, residue_add_complement (by decide)]

/-- The pseudo header, as it stands in the frame. -/
theorem pseudo_sent (s : Send) (raw : Slot) :
    (sendPacket (s.outgoing raw)).raw.slice 34 8 ++ [0, (sendPacket (s.outgoing raw)).raw 31] ++
      (sendPacket (s.outgoing raw)).raw.slice 46 2 =
      pseudoHeader s.length s.myIp s.cachedIp := by
  have hsent : ∀ {offset : Int} {bytes : List Byte}, (s.outgoing raw).raw.Holds offset bytes →
      0 ≤ offset → offset + bytes.length ≤ 48 →
      (sendPacket (s.outgoing raw)).raw.Holds offset bytes := fun h hfirst hlast =>
    h.congr (s.sent_agrees raw).symm hfirst (by omega)
  obtain ⟨hip, hsrc, hdst⟩ := @holds_ip s raw
  have hproto := hsent hip (by decide) (by simp) 9 (by simp)
  have hsrc := (hsent hsrc (by decide) (by simp)).slice
  have hdst := (hsent hdst (by decide) (by simp)).slice
  have hudp := (hsent (@holds_udp s raw) (by decide) (by simp)).append.2.slice
  rw [length_bytes32] at hsrc hdst
  rw [length_bytes16] at hudp
  have haddresses : (sendPacket (s.outgoing raw)).raw.slice 34 8 =
      bytes32 s.myIp ++ bytes32 s.cachedIp :=
    (Slot.slice_add _ 34 4 4).trans (congrArg₂ (· ++ ·) hsrc hdst)
  have hlength : (sendPacket (s.outgoing raw)).raw.slice 46 2 =
      bytes16 (.ofNat 16 (s.length + SIZEOF_UDP_HEADER)) := hudp
  have hbyte : (sendPacket (s.outgoing raw)).raw 31 = IP_PROTO_UDP := hproto
  rw [haddresses, hlength, hbyte]
  rfl

/-- The padded payload, as it is added up and as it is sent. -/
theorem total_padded (s : Send) (raw : Slot) :
    totalAt (s.padded raw) 42 (2 * ((SIZEOF_UDP_HEADER + (s.length + s.length % 2)) / 2)) =
      totalAt (s.padded raw) 42 (SIZEOF_UDP_HEADER + s.length) := by
  have hheader : SIZEOF_UDP_HEADER = 8 := rfl
  by_cases hodd : s.length % 2 = 1
  · have hlength : 2 * ((SIZEOF_UDP_HEADER + (s.length + s.length % 2)) / 2) =
        SIZEOF_UDP_HEADER + s.length + 1 := by omega
    rw [hlength]
    refine total_at_padded (by omega) ?_
    have hoffset : (42 : Int) + (SIZEOF_UDP_HEADER + s.length : Nat) = 50 + s.length := by omega
    have hpad : (s.padded raw).Holds (50 + s.length) [0] := by
      unfold padded
      rw [if_pos hodd]
      exact Slot.holds_put
    rw [hoffset]
    exact hpad.head
  · have hlength : 2 * ((SIZEOF_UDP_HEADER + (s.length + s.length % 2)) / 2) =
        SIZEOF_UDP_HEADER + s.length := by omega
    rw [hlength]

/-- The first stage of the UDP checksum is the sum of the pseudo header. -/
theorem toNat_pseudo (s : Send) :
    (ipChecksum 0 (slotOf (pseudoHeader s.length s.myIp s.cachedIp)) 0 12 false).toNat =
      residue 0xffff (total (halves (pseudoHeader s.length s.myIp s.cachedIp))) := by
  have hslice : (slotOf (pseudoHeader s.length s.myIp s.cachedIp)).slice 0 12 =
      pseudoHeader s.length s.myIp s.cachedIp := (Slot.holds_slotOf _).slice
  rw [toNat_ipChecksum_running (by decide)]
  show residue 0xffff (0 + total (halves (Slot.slice _ 0 12))) = _
  rw [hslice, Nat.zero_add]

/-- The UDP checksum is the complement of the pseudo header and the datagram. -/
theorem toNat_checksum (s : Send) (raw : Slot) (hlength : s.length ≤ 1470) :
    (s.checksum raw).toNat = complement 0xffff
      (residue 0xffff (total (halves (pseudoHeader s.length s.myIp s.cachedIp))) +
        totalAt (s.padded raw) 42 (SIZEOF_UDP_HEADER + s.length)) := by
  have hheader : SIZEOF_UDP_HEADER = 8 := rfl
  have hle := residue_le (m := 0xffff) (by decide)
    (total (halves (pseudoHeader s.length s.myIp s.cachedIp)))
  have hword : ((ipChecksum 0 (slotOf (pseudoHeader s.length s.myIp s.cachedIp)) 0 12
      false).setWidth 32).toNat =
      residue 0xffff (total (halves (pseudoHeader s.length s.myIp s.cachedIp))) := by
    rw [BitVec.toNat_setWidth, s.toNat_pseudo]
    exact Nat.mod_eq_of_lt (by omega)
  rw [← s.total_padded raw, ← hword]
  refine toNat_ipChecksum_complete ?_
  show (BitVec.setWidth 32 (ipChecksum 0 (slotOf _) 0 12 false)).toNat + _ < _
  rw [hword]
  omega

/-- The UDP checksum verifies, and it is not 0. -/
theorem udp_verifies (s : Send) (raw : Slot) (hlength : s.length ≤ 1470) :
    sum 0xffff (halves (pseudoHeader s.length s.myIp s.cachedIp ++
      (sendPacket (s.outgoing raw)).raw.slice 42 (SIZEOF_UDP_HEADER + s.length))) = 0xffff ∧
    (sendPacket (s.outgoing raw)).raw.half 48 ≠ 0 := by
  have hheader : SIZEOF_UDP_HEADER = 8 := rfl
  have hchecksum := s.toNat_checksum raw hlength
  constructor
  · have hzero : (s.padded raw).half (42 + (6 : Nat)) = 0 := (@holds_padded s raw).append.2.half
    have htotal : totalAt (sendPacket (s.outgoing raw)).raw 42 (SIZEOF_UDP_HEADER + s.length) =
        totalAt (s.padded raw) 42 (SIZEOF_UDP_HEADER + s.length) + (s.checksum raw).toNat := by
      have hsplit : SIZEOF_UDP_HEADER + s.length = 6 + (2 + s.length) := by omega
      rw [hsplit, ← total_at_put rfl hzero]
      exact total_at_congr ((s.sent_agrees raw).mono (by decide) (by omega))
    have hlength12 : (pseudoHeader s.length s.myIp s.cachedIp).length = 12 := rfl
    rw [sum_eq_residue (by decide) halves_le, halves_append (by rw [hlength12]), total_append]
    show residue 0xffff (_ + totalAt _ 42 _) = 0xffff
    rw [htotal, hchecksum, ← residue_residue_add, ← Nat.add_assoc,
      residue_add_complement (by decide)]
  · have hhalf : (sendPacket (s.outgoing raw)).raw.half 48 = s.checksum raw := by
      refine Slot.Holds.half (Slot.Holds.congr ?_ (s.sent_agrees raw).symm (by decide) ?_)
      · exact Slot.holds_put
      · rw [length_bytes16]
        omega
    intro hzero
    rw [hhalf] at hzero
    rw [hzero] at hchecksum
    exact absurd hchecksum.symm (Nat.pos_iff_ne_zero.1 (complement_pos (by decide) _))

end Send

/-- In the frame of every datagram that `microudp_send` sends the IP and the UDP checksum verify. -/
theorem send_checksums_verify (s : Send) (raw : Slot) (hlength : s.length ≤ 1470) {o : Outgoing}
    (h : s.run raw = some o) : ChecksumsVerify (sendPacket o).raw s.length := by
  have hknown : s.Known := by
    by_contra hunknown
    rw [s.run_of_unknown raw hunknown] at h
    cases h
  rw [s.run_of_known raw hknown] at h
  cases h
  obtain ⟨hudp, hne⟩ := s.udp_verifies raw hlength
  exact ⟨s.ip_verifies raw, by rw [s.pseudo_sent raw]; exact hudp, hne⟩

/-- The checksums of the short datagram, whose payload is odd. -/
theorem send_checksums_verify_short : ∃ o, short.run (fun _ => 0x61) = some o ∧
    ChecksumsVerify (sendPacket o).raw 3 :=
  ⟨_, short.run_of_known _ ⟨2, by decide, by decide⟩,
    send_checksums_verify short _ (by decide) (short.run_of_known _ ⟨2, by decide, by decide⟩)⟩

end Soc.Libnet
