import Mathlib.Tactic.SplitIfs
import Soc.Minimac2.Transmitter

/-!
# The phases of a transmission

A transmission is a chain of phases, each of which waits for an edge of one clock: the write of
TXCOUNT becomes a pulse, the pulse crosses to phy_tx_clk, the nibbles go out one by one, and the
pulse of `tx_done` crosses back. `Represents` says which registers hold what in each phase, and
`Represents.next` that the clocks move the registers as the phase moves.
-/

namespace Soc.Minimac2

open Library (Sampler Flight)

/-- Where a transmission is. -/
inductive Phase where
  | idle
  /-- TXCOUNT has been written. -/
  | loaded
  /-- The pulse of `tx_start` is on its way. -/
  | toTransmitter (flight : Flight)
  /-- So many nibbles have gone out. -/
  | sending (k : Nat)
  /-- The pulse of `tx_done` is on its way. -/
  | toSoftware (flight : Flight)
  deriving DecidableEq

/-- A nibble of the frame in the buffer, low nibbles first. -/
def nibble (txb : BitVec 11 → Byte) (k : Nat) : Nibble :=
  if k % 2 = 0 then (txb (.ofNat 11 (k / 2))).extractLsb' 0 4
  else (txb (.ofNat 11 (k / 2))).extractLsb' 4 4

namespace Phase

/-- The phase after an edge of sys_clk, of phy_tx_clk or of both, for a frame of `n` bytes. -/
def next (n : BitVec 11) (request sys phy : Bool) : Phase → Phase
  | idle => if request then loaded else idle
  | loaded => if sys then toTransmitter .toggled else loaded
  | toTransmitter flight =>
      if phy then flight.next.elim (sending 0) toTransmitter else toTransmitter flight
  | sending k =>
      if phy then if k = 2 * n.toNat then toSoftware .toggled else sending (k + 1) else sending k
  | toSoftware flight => if sys then flight.next.elim idle toSoftware else toSoftware flight

/-- The flight of the pulse of `tx_start`. -/
def startFlight : Phase → Option Flight
  | toTransmitter flight => some flight
  | _ => none

/-- The flight of the pulse of `tx_done`. -/
def doneFlight : Phase → Option Flight
  | toSoftware flight => some flight
  | _ => none

end Phase

/-- `minimac2_tx` between two transmissions. -/
def Tx.Rests (tx : Tx) : Prop := tx.state = .idle ∧ tx.phyTxEn = false

/-- The transmitter after `k` nibbles of a frame. The byte counter runs ahead of the buffer, so in
the second half of a byte it already has the number of the next one. -/
structure Sending (n : BitVec 11) (txb : BitVec 11 → Byte) (s : TxPath) (k : Nat) : Prop where
  le : k ≤ 2 * n.toNat
  phyTxCountR : s.phyTxCountR = n
  phyTxCount : s.phyTxCount = n
  state : s.tx.state =
    if k = 2 * n.toNat then .terminate else if k % 2 = 0 then .sendLo else .sendHi
  byteCount : k < 2 * n.toNat → s.tx.byteCount = .ofNat 11 ((k + 1) / 2)
  txbDat : k < 2 * n.toNat → s.txbDat = txb (.ofNat 11 (k / 2))
  wire : s.tx.wire = if k = 0 then none else some (nibble txb (k - 1))

/-- The registers of phy_tx_clk in a phase. The copies of the count arrive no later than the
pulse. -/
def Transmits (n : BitVec 11) (txb : BitVec 11 → Byte) (s : TxPath) : Phase → Prop
  | .toTransmitter .level1 => s.tx.Rests ∧ s.tx.byteCount = 0 ∧ s.phyTxCountR = n
  | .toTransmitter .level2 =>
      s.tx.Rests ∧ s.tx.byteCount = 0 ∧ s.phyTxCountR = n ∧ s.phyTxCount = n
  | .sending k => Sending n txb s k
  | _ => s.tx.Rests

namespace Phase

/-- The registers agree with the phase of the transmission of `n` bytes from the buffer `txb`. -/
structure Represents (n : BitVec 11) (txb : BitVec 11 → Byte) (p : Phase) (s : TxPath) : Prop where
  count : p ≠ .idle → n ≠ 0
  txCount : s.ctlif.txCount = if p = .idle then 0 else n
  txRemainingR : p ≠ .idle → s.ctlif.txRemainingR = decide (p ≠ .loaded)
  startSync : s.startSync = .holding s.startLevel p.startFlight
  doneSync : s.doneSync = .holding s.doneLevel p.doneFlight
  buffer : p ≠ .idle → s.txb = txb
  transmits : Transmits n txb s p
  outstanding : s.outstanding = decide (p ≠ .idle)

variable {n : BitVec 11} {txb : BitVec 11 → Byte} {p : Phase} {s : TxPath}

/-- Between transmissions the count and the buffer do not matter. -/
theorem Represents.congr_idle (h : idle.Represents n txb s) (n' : BitVec 11)
    (txb' : BitVec 11 → Byte) : idle.Represents n' txb' s where
  count hidle := absurd rfl hidle
  txCount := h.txCount
  txRemainingR hidle := absurd rfl hidle
  startSync := h.startSync
  doneSync := h.doneSync
  buffer hidle := absurd rfl hidle
  transmits := h.transmits
  outstanding := h.outstanding

/-- The pulse of `tx_start` begins when TXCOUNT has been written. -/
theorem Represents.txStart_eq (h : p.Represents n txb s) :
    s.ctlif.txStart = decide (p = .loaded) := by
  unfold Ctlif.txStart Ctlif.txRemaining
  rw [h.txCount]
  by_cases hidle : p = .idle
  · subst hidle
    rfl
  · rw [if_neg hidle, h.txRemainingR hidle]
    have hcount : n ≠ 0#11 := h.count hidle
    simp [hcount]

/-- The transmitter sees the pulse of `tx_start` in the last stage of its flight. -/
theorem Represents.startSync_out (h : p.Represents n txb s) :
    s.startSync.out = decide (p = .toTransmitter .level2) := by
  rw [h.startSync, Sampler.out_holding]
  cases p with
  | toTransmitter flight => simp [startFlight]
  | idle | loaded | sending | toSoftware => rfl

/-- The software sees the pulse of `tx_done` in the last stage of its flight. -/
theorem Represents.doneSync_out (h : p.Represents n txb s) :
    s.doneSync.out = decide (p = .toSoftware .level2) := by
  rw [h.doneSync, Sampler.out_holding]
  cases p with
  | toSoftware flight => simp [doneFlight]
  | idle | loaded | sending | toTransmitter => rfl

end Phase

variable {csrAddr : BitVec 4} {n : BitVec 11} {txb : BitVec 11 → Byte} {p : Phase} {s : TxPath}
  {e : TxEdge} {k : Nat}

/-- A resting transmitter waits for the pulse. -/
theorem Tx.Rests.ctl (h : s.tx.Rests) : s.ctl =
    ⟨false, false, true, false, false, if s.startSync.out then .sendLo else .idle⟩ := by
  unfold TxPath.ctl Tx.ctl
  rw [h.1]
  rfl

namespace Sending

/-- The first half of a byte. -/
theorem ctl_lo (h : Sending n txb s k) (hlt : k < 2 * n.toNat) (heven : k % 2 = 0) :
    s.ctl = ⟨true, false, false, true, false, .sendHi⟩ := by
  unfold TxPath.ctl Tx.ctl
  rw [h.state, if_neg (by omega), if_pos heven]
  rfl

/-- The byte counter meets the count in the second half of the last byte. -/
theorem byteCount_eq_iff (h : Sending n txb s k) (hlt : k < 2 * n.toNat) (hodd : k % 2 = 1) :
    (s.tx.byteCount == s.phyTxCount) = decide (k + 1 = 2 * n.toNat) := by
  have hn : n.toNat < 2048 := n.isLt
  have hsmall : (k + 1) / 2 < 2048 := by omega
  rw [h.byteCount hlt, h.phyTxCount, Bool.beq_eq_decide_eq]
  refine decide_eq_decide.2 ⟨fun heq => ?_, fun heq => ?_⟩
  · have hnat := congrArg BitVec.toNat heq
    rw [BitVec.toNat_ofNat, Nat.mod_eq_of_lt hsmall] at hnat
    omega
  · apply BitVec.eq_of_toNat_eq
    rw [BitVec.toNat_ofNat, Nat.mod_eq_of_lt hsmall]
    omega

/-- The second half of a byte. -/
theorem ctl_hi (h : Sending n txb s k) (hlt : k < 2 * n.toNat) (hodd : k % 2 = 1) :
    s.ctl = ⟨true, true, false, false, false,
      if k + 1 = 2 * n.toNat then .terminate else .sendLo⟩ := by
  unfold TxPath.ctl Tx.ctl
  rw [h.byteCount_eq_iff hlt hodd, h.state, if_neg (by omega), if_neg (by omega)]
  simp [txCtl]

/-- The end of a frame. -/
theorem ctl_end (h : Sending n txb s k) (hend : k = 2 * n.toNat) :
    s.ctl = ⟨false, false, true, false, true, .idle⟩ := by
  unfold TxPath.ctl Tx.ctl
  rw [h.state, if_pos hend]
  rfl

end Sending

/-- The transmitter after an edge of its clock. -/
theorem next_tx (hphy : e.phy = true) : (s.next csrAddr e).tx =
    { phyTxEn := s.ctl.phyTxEnR
      phyTxData :=
        if s.ctl.phyTxDataSel then s.txbDat.extractLsb' 4 4 else s.txbDat.extractLsb' 0 4
      byteCount :=
        if s.ctl.byteCountReset then 0
        else if s.ctl.byteCountInc then s.tx.byteCount + 1
        else s.tx.byteCount
      state := s.ctl.nextState } :=
  if_pos hphy

/-- The byte the buffer shows after an edge of phy_tx_clk. -/
theorem next_txbDat (hphy : e.phy = true) :
    (s.next csrAddr e).txbDat = s.txb s.tx.byteCount :=
  if_pos hphy

/-- The first copy of the count after an edge of phy_tx_clk. -/
theorem next_phyTxCountR (csrAddr : BitVec 4) (hphy : e.phy = true) :
    (s.next csrAddr e).phyTxCountR = s.ctlif.txCount :=
  if_pos hphy

/-- The second copy of the count after an edge of phy_tx_clk. -/
theorem next_phyTxCount (hphy : e.phy = true) :
    (s.next csrAddr e).phyTxCount = s.phyTxCountR :=
  if_pos hphy

/-- A resting transmitter that sees no pulse rests on, with its byte counter at 0. -/
theorem Tx.Rests.next (csrAddr : BitVec 4) (h : s.tx.Rests) (hphy : e.phy = true)
    (hout : s.startSync.out = false) :
    (s.next csrAddr e).tx.Rests ∧ (s.next csrAddr e).tx.byteCount = 0 := by
  rw [next_tx hphy, h.ctl, hout]
  exact ⟨⟨rfl, rfl⟩, rfl⟩

/-- A nibble goes out. -/
theorem Sending.next (h : Sending n txb s k) (hlt : k < 2 * n.toNat) (hphy : e.phy = true)
    (htxCount : s.ctlif.txCount = n) (hbuffer : s.txb = txb) :
    Sending n txb (s.next csrAddr e) (k + 1) := by
  have hcountR : (s.next csrAddr e).phyTxCountR = n :=
    (next_phyTxCountR csrAddr hphy).trans htxCount
  have hcount : (s.next csrAddr e).phyTxCount = n := (next_phyTxCount hphy).trans h.phyTxCountR
  have hdat : (s.next csrAddr e).txbDat = txb (.ofNat 11 ((k + 1) / 2)) := by
    rw [next_txbDat hphy, hbuffer, h.byteCount hlt]
  have hsent : k + 1 ≠ 0 := Nat.succ_ne_zero k
  have htx := @next_tx csrAddr s e hphy
  obtain heven | hodd : k % 2 = 0 ∨ k % 2 = 1 := by omega
  · rw [h.ctl_lo hlt heven] at htx
    have hnotend : k + 1 ≠ 2 * n.toNat := by omega
    have hodd' : (k + 1) % 2 ≠ 0 := by omega
    refine ⟨hlt, hcountR, hcount, ?_, fun _ => ?_, fun _ => hdat, ?_⟩
    · rw [htx, if_neg hnotend, if_neg hodd']
    · rw [htx]
      show s.tx.byteCount + 1 = _
      rw [h.byteCount hlt, show (k + 1 + 1) / 2 = (k + 1) / 2 + 1 by omega,
        BitVec.ofNat_add]
      rfl
    · rw [htx, if_neg hsent, Nat.add_sub_cancel, nibble, if_pos heven, ← h.txbDat hlt]
      rfl
  · rw [h.ctl_hi hlt hodd] at htx
    have heven' : (k + 1) % 2 = 0 := by omega
    have hodd' : k % 2 ≠ 0 := by omega
    refine ⟨hlt, hcountR, hcount, ?_, fun _ => ?_, fun _ => hdat, ?_⟩
    · rw [htx, if_pos heven']
    · rw [htx]
      show s.tx.byteCount = _
      rw [h.byteCount hlt, show (k + 1 + 1) / 2 = (k + 1) / 2 by omega]
    · rw [htx, if_neg hsent, Nat.add_sub_cancel, nibble, if_neg hodd', ← h.txbDat hlt]
      rfl

/-- After the last nibble the transmitter rests. -/
theorem Sending.rests_of_end (h : Sending n txb s k) (hend : k = 2 * n.toNat)
    (hphy : e.phy = true) : (s.next csrAddr e).tx.Rests := by
  rw [next_tx hphy, h.ctl_end hend]
  exact ⟨rfl, rfl⟩

/-- The pulse makes a resting transmitter send the first byte. -/
theorem Tx.Rests.sending (h : s.tx.Rests) (hphy : e.phy = true) (hout : s.startSync.out = true)
    (hbyteCount : s.tx.byteCount = 0) (hcountR : s.phyTxCountR = n) (hn : n ≠ 0)
    (htxCount : s.ctlif.txCount = n) (hbuffer : s.txb = txb) :
    Sending n txb (s.next csrAddr e) 0 := by
  have hpos : 0 ≠ 2 * n.toNat := by
    intro hzero
    have hnat : n.toNat = 0 := by omega
    exact hn (BitVec.eq_of_toNat_eq hnat)
  have htx := @next_tx csrAddr s e hphy
  rw [h.ctl, hout] at htx
  refine ⟨Nat.zero_le _, (next_phyTxCountR csrAddr hphy).trans htxCount,
    (next_phyTxCount hphy).trans hcountR, ?_, fun _ => ?_, fun _ => ?_, ?_⟩
  · rw [htx, if_neg hpos]
    rfl
  · rw [htx]
    rfl
  · rw [next_txbDat hphy, hbuffer, hbyteCount]
    rfl
  · rw [htx]
    rfl

namespace Phase

/-- The transmitter rests unless it sends. -/
theorem Represents.rests (h : p.Represents n txb s) (hsending : ∀ k, p ≠ .sending k) :
    s.tx.Rests := by
  have htransmits := h.transmits
  match p, hsending with
  | .idle, _ | .loaded, _ | .toTransmitter .toggled, _ | .toSoftware _, _ => exact htransmits
  | .toTransmitter .level1, _ | .toTransmitter .level2, _ => exact htransmits.1
  | .sending k, hsending => exact absurd rfl (hsending k)

/-- The transmitter is done at the end of the frame. -/
theorem Represents.txDone_eq (h : p.Represents n txb s) :
    s.ctl.txDone = decide (p = .sending (2 * n.toNat)) := by
  by_cases hsending : ∃ k, p = .sending k
  · obtain ⟨k, rfl⟩ := hsending
    have hk : Sending n txb s k := h.transmits
    by_cases hend : k = 2 * n.toNat
    · rw [hk.ctl_end hend, hend]
      exact (decide_eq_true rfl).symm
    · have hlt : k < 2 * n.toNat := Nat.lt_of_le_of_ne hk.le hend
      have hnot : Phase.sending k ≠ .sending (2 * n.toNat) :=
        fun heq => hend (Phase.sending.inj heq)
      rw [decide_eq_false hnot]
      obtain heven | hodd : k % 2 = 0 ∨ k % 2 = 1 := by omega
      · rw [hk.ctl_lo hlt heven]
      · rw [hk.ctl_hi hlt hodd]
  · have hnot : ∀ k, p ≠ .sending k := fun k hk => hsending ⟨k, hk⟩
    rw [(h.rests hnot).ctl, decide_eq_false (hnot _)]

/-- The registers of phy_tx_clk after an edge of that clock. -/
theorem Represents.next_transmits (h : p.Represents n txb s) (hphy : e.phy = true)
    (request sys : Bool) :
    Transmits n txb (s.next csrAddr e) (p.next n request sys true) := by
  have hout := h.startSync_out
  cases p with
  | idle =>
      have hrests := (Tx.Rests.next csrAddr h.transmits hphy hout).1
      cases request <;> exact hrests
  | loaded =>
      have hrests := (Tx.Rests.next csrAddr h.transmits hphy hout).1
      cases sys <;> exact hrests
  | toTransmitter flight =>
      have hcountR := (next_phyTxCountR csrAddr hphy).trans h.txCount
      cases flight with
      | toggled =>
          obtain ⟨hrests, hbyteCount⟩ := Tx.Rests.next csrAddr h.transmits hphy hout
          exact ⟨hrests, hbyteCount, hcountR⟩
      | level1 =>
          obtain ⟨hrests, -, hfirst⟩ := h.transmits
          obtain ⟨hrests, hbyteCount⟩ := hrests.next csrAddr hphy hout
          exact ⟨hrests, hbyteCount, hcountR, (next_phyTxCount hphy).trans hfirst⟩
      | level2 =>
          obtain ⟨hrests, hbyteCount, hfirst, -⟩ := h.transmits
          exact hrests.sending hphy hout hbyteCount hfirst (h.count nofun) h.txCount
            (h.buffer nofun)
  | sending k =>
      have hk : Sending n txb s k := h.transmits
      show Transmits n txb _ (if k = 2 * n.toNat then toSoftware .toggled else sending (k + 1))
      split_ifs with hend
      · exact hk.rests_of_end hend hphy
      · exact hk.next (Nat.lt_of_le_of_ne hk.le hend) hphy h.txCount (h.buffer nofun)
  | toSoftware flight =>
      have hrests := (Tx.Rests.next csrAddr h.transmits hphy hout).1
      cases sys with
      | false => exact hrests
      | true => cases flight <;> exact hrests

/-- The registers of phy_tx_clk without an edge of that clock. -/
theorem Represents.next_transmits_same (h : p.Represents n txb s) (hphy : e.phy = false)
    (request sys : Bool) :
    Transmits n txb (s.next csrAddr e) (p.next n request sys false) := by
  have hnot : ¬ e.phy = true := Bool.eq_false_iff.1 hphy
  have htx : (s.next csrAddr e).tx = s.tx := if_neg hnot
  have hdat : (s.next csrAddr e).txbDat = s.txbDat := if_neg hnot
  have hcountR : (s.next csrAddr e).phyTxCountR = s.phyTxCountR := if_neg hnot
  have hcount : (s.next csrAddr e).phyTxCount = s.phyTxCount := if_neg hnot
  have htransmits := h.transmits
  cases p with
  | idle =>
      have hrests : (s.next csrAddr e).tx.Rests := htx ▸ htransmits
      cases request <;> exact hrests
  | loaded =>
      have hrests : (s.next csrAddr e).tx.Rests := htx ▸ htransmits
      cases sys <;> exact hrests
  | toTransmitter flight =>
      cases flight with
      | toggled => exact (htx ▸ htransmits : (s.next csrAddr e).tx.Rests)
      | level1 =>
          show _ ∧ _ ∧ _
          rw [htx, hcountR]
          exact htransmits
      | level2 =>
          show _ ∧ _ ∧ _ ∧ _
          rw [htx, hcountR, hcount]
          exact htransmits
  | sending k =>
      obtain ⟨hle, hcountR', hcount', hstate, hbyteCount, htxbDat, hwire⟩ := htransmits
      exact ⟨hle, hcountR.trans hcountR', hcount.trans hcount', htx ▸ hstate, htx ▸ hbyteCount,
        hdat ▸ htxbDat, htx ▸ hwire⟩
  | toSoftware flight =>
      have hrests : (s.next csrAddr e).tx.Rests := htx ▸ htransmits
      cases sys with
      | false => exact hrests
      | true => cases flight <;> exact hrests

/-- When a phase leads to rest. -/
theorem next_eq_idle_iff {request sys phy : Bool} : p.next n request sys phy = idle ↔
    (p = idle ∧ request = false) ∨ (p = toSoftware .level2 ∧ sys = true) := by
  cases p with
  | idle => cases request <;> simp [next]
  | loaded => cases sys <;> simp [next]
  | toTransmitter flight => cases phy <;> cases flight <;> simp [next, Flight.next]
  | sending k =>
      rw [next]
      split_ifs <;> simp
  | toSoftware flight => cases sys <;> cases flight <;> simp [next, Flight.next]

/-- When a phase waits for the pulse of `tx_start` to begin. -/
theorem next_eq_loaded_iff {request sys phy : Bool} : p.next n request sys phy = loaded ↔
    (p = idle ∧ request = true) ∨ (p = loaded ∧ sys = false) := by
  cases p with
  | idle => cases request <;> simp [next]
  | loaded => cases sys <;> simp [next]
  | toTransmitter flight => cases phy <;> cases flight <;> simp [next, Flight.next]
  | sending k =>
      rw [next]
      split_ifs <;> simp
  | toSoftware flight => cases sys <;> cases flight <;> simp [next, Flight.next]

/-- The flight of the pulse of `tx_start` begins at an edge of sys_clk, and goes on at edges of
phy_tx_clk. -/
theorem startFlight_next {request sys phy : Bool} : (p.next n request sys phy).startFlight =
    if sys && decide (p = loaded) then some .toggled
    else if phy then p.startFlight.bind Flight.next else p.startFlight := by
  cases p with
  | idle => cases request <;> simp [next, startFlight]
  | loaded => cases sys <;> simp [next, startFlight]
  | toTransmitter flight => cases phy <;> cases flight <;> simp [next, startFlight, Flight.next]
  | sending k =>
      -- a transmitter that sends has seen the pulse
      have hnone : ((sending k).next n request sys phy).startFlight = none := by
        rw [next]
        split_ifs <;> rfl
      rw [hnone]
      simp [startFlight]
  | toSoftware flight => cases sys <;> cases flight <;> simp [next, startFlight, Flight.next]

/-- The flight of the pulse of `tx_done` begins at an edge of phy_tx_clk, and goes on at edges of
sys_clk. -/
theorem doneFlight_next {request sys phy : Bool} : (p.next n request sys phy).doneFlight =
    if phy && decide (p = sending (2 * n.toNat)) then some .toggled
    else if sys then p.doneFlight.bind Flight.next else p.doneFlight := by
  cases p with
  | idle => cases request <;> simp [next, doneFlight]
  | loaded => cases sys <;> simp [next, doneFlight]
  | toTransmitter flight => cases phy <;> cases flight <;> simp [next, doneFlight, Flight.next]
  | sending k =>
      cases phy with
      | false => simp [next, doneFlight]
      | true =>
          by_cases hk : k = 2 * n.toNat
          · simp [next, doneFlight, hk]
          · simp [next, doneFlight, hk]
  | toSoftware flight => cases sys <;> cases flight <;> simp [next, doneFlight, Flight.next]

/-- A write of TXCOUNT comes with an edge of sys_clk, and finds no transmission. -/
theorem Represents.of_request (h : p.Represents n txb s) (hallowed : s.Allowed csrAddr e)
    {m : BitVec 11} (hrequest : e.request csrAddr = some m) :
    p = idle ∧ m ≠ 0 ∧ ∃ x, e.sys = some x ∧ x.request csrAddr = some m := by
  obtain ⟨x, hsys, hx⟩ := Option.bind_eq_some_iff.1 hrequest
  obtain ⟨hm, houtstanding⟩ := (hallowed x hsys).request m hx
  rw [h.outstanding, decide_eq_false_iff_not, Decidable.not_not] at houtstanding
  exact ⟨houtstanding, hm, x, hsys, hx⟩

/-- The control interface after an edge of sys_clk. -/
theorem next_ctlif {x : TxSysEdge} (hsys : e.sys = some x) : (s.next csrAddr e).ctlif =
    if x.sysRst then s.ctlif.reset (s.ctlifIn x)
    else s.ctlif.clock (s.ctlifIn x) csrAddr x.bus := by
  show s.nextCtlif csrAddr e = _
  unfold TxPath.nextCtlif
  rw [hsys]

/-- TXCOUNT after an edge of sys_clk. -/
theorem next_txCount {x : TxSysEdge} (hsys : e.sys = some x) :
    (s.next csrAddr e).ctlif.txCount =
      if x.sysRst || s.doneSync.out then 0 else (x.request csrAddr).getD s.ctlif.txCount := by
  rw [next_ctlif hsys]
  unfold TxSysEdge.request
  cases x.sysRst with
  | true => rfl
  | false =>
      show (if s.doneSync.out then 0 else if x.bus.writes csrAddr 6 then _ else _) = _
      cases s.doneSync.out with
      | true => rfl
      | false => cases x.bus.writes csrAddr 6 <;> rfl

/-- `tx_remaining_r` after an edge of sys_clk. -/
theorem next_txRemainingR {x : TxSysEdge} (hsys : e.sys = some x) :
    (s.next csrAddr e).ctlif.txRemainingR = s.ctlif.txRemaining := by
  rw [next_ctlif hsys]
  cases x.sysRst <;> rfl

/-- The control interface without an edge of sys_clk. -/
theorem next_ctlif_same (hsys : e.sys = none) : (s.next csrAddr e).ctlif = s.ctlif := by
  show s.nextCtlif csrAddr e = _
  unfold TxPath.nextCtlif
  rw [hsys]

/-- Without an edge of sys_clk nothing is written. -/
theorem request_eq_none (hsys : e.sys = none) : e.request csrAddr = none := by
  rw [TxEdge.request, hsys]
  rfl

/-- TXCOUNT is 0 exactly between transmissions. -/
theorem Represents.next_txCount_eq (h : p.Represents n txb s) (hallowed : s.Allowed csrAddr e)
    (hrequest : ∀ m ∈ e.request csrAddr, n = m) : (s.next csrAddr e).ctlif.txCount =
      if p.next n (e.request csrAddr).isSome e.sys.isSome e.phy = idle then 0 else n := by
  cases hsys : e.sys with
  | none =>
      rw [next_ctlif_same hsys, h.txCount, request_eq_none hsys]
      exact if_congr (by rw [next_eq_idle_iff]; simp) rfl rfl
  | some x =>
      rw [next_txCount hsys]
      have hsame : e.request csrAddr = x.request csrAddr := by
        rw [TxEdge.request, hsys]
        rfl
      cases hrst : x.sysRst with
      | true =>
          have hidle := (hallowed x hsys).reset hrst
          rw [h.outstanding, decide_eq_false_iff_not, Decidable.not_not] at hidle
          have hnone : x.request csrAddr = none := by
            rw [TxSysEdge.request, hrst]
            rfl
          rw [hsame, hnone, Option.isSome_none, if_pos (next_eq_idle_iff.2 (.inl ⟨hidle, rfl⟩))]
          rfl
      | false =>
          rw [h.doneSync_out, Bool.false_or, Option.isSome_some]
          by_cases hdone : p = toSoftware .level2
          · rw [if_pos (decide_eq_true hdone), if_pos (next_eq_idle_iff.2 (.inr ⟨hdone, rfl⟩))]
          · rw [if_neg (by simpa using hdone)]
            cases hwritten : e.request csrAddr with
            | none =>
                rw [← hsame, hwritten, Option.getD_none, h.txCount]
                exact if_congr (by rw [next_eq_idle_iff]; simp [hdone]) rfl rfl
            | some m =>
                rw [← hsame, hwritten, Option.getD_some, ← hrequest m hwritten, if_neg]
                rw [next_eq_idle_iff]
                simp [hdone]

/-- `tx_remaining_r` follows TXCOUNT. -/
theorem Represents.next_txRemainingR_eq (h : p.Represents n txb s)
    (hbusy : p.next n (e.request csrAddr).isSome e.sys.isSome e.phy ≠ idle) :
    (s.next csrAddr e).ctlif.txRemainingR =
      decide (p.next n (e.request csrAddr).isSome e.sys.isSome e.phy ≠ loaded) := by
  rw [Ne, next_eq_idle_iff] at hbusy
  simp only [ne_eq, next_eq_loaded_iff]
  cases hsys : e.sys with
  | none =>
      rw [request_eq_none hsys] at hbusy ⊢
      have hidle : p ≠ idle := by simpa [hsys] using hbusy
      rw [next_ctlif_same hsys, h.txRemainingR hidle]
      simp
  | some x =>
      rw [next_txRemainingR hsys, Ctlif.txRemaining, h.txCount]
      by_cases hidle : p = idle
      · have hrequest : e.request csrAddr ≠ none := by simpa [hidle] using hbusy
        simp [hidle, Option.isSome_iff_ne_none.2 hrequest]
      · have hcount : n ≠ 0#11 := h.count hidle
        simp [hidle, hcount]

/-- The software keeps the buffer during a transmission. -/
theorem Represents.next_txb_eq (h : p.Represents n txb s) (hallowed : s.Allowed csrAddr e)
    (hidle : p ≠ idle)
    (hbusy : p.next n (e.request csrAddr).isSome e.sys.isSome e.phy ≠ idle) :
    s.nextTxb e = txb := by
  rw [Ne, next_eq_idle_iff] at hbusy
  unfold TxPath.nextTxb
  cases hsys : e.sys with
  | none => exact h.buffer hidle
  | some x =>
      have hdone : p ≠ toSoftware .level2 := by
        intro hdone
        exact hbusy (.inr ⟨hdone, by rw [hsys]; rfl⟩)
      have hirq : Ctlif.irqTx (s.ctlifIn x) = false := h.doneSync_out.trans (decide_eq_false hdone)
      have houtstanding : s.outstanding = true := h.outstanding.trans (decide_eq_true hidle)
      have hstores := (hallowed x hsys).stores houtstanding hirq
      show x.stores.foldl _ s.txb = txb
      rw [hstores]
      exact h.buffer hidle

/-- The interrupt comes with the edge that ends the transmission. -/
theorem Represents.irqTx_eq (h : p.Represents n txb s) :
    s.irqTx e = (e.sys.isSome && decide (p = toSoftware .level2)) := by
  unfold TxPath.irqTx
  cases e.sys with
  | none => rfl
  | some x => exact h.doneSync_out

/-- A transmission is outstanding until the interrupt. -/
theorem Represents.next_outstanding (h : p.Represents n txb s) (hallowed : s.Allowed csrAddr e) :
    (s.next csrAddr e).outstanding =
      decide (p.next n (e.request csrAddr).isSome e.sys.isSome e.phy ≠ idle) := by
  show ((e.request csrAddr).isSome || (s.outstanding && !s.irqTx e)) = _
  rw [h.outstanding, h.irqTx_eq]
  simp only [ne_eq, next_eq_idle_iff]
  cases hrequest : e.request csrAddr with
  | none => by_cases hidle : p = idle <;> cases e.sys.isSome <;> simp [hidle]
  | some m =>
      obtain ⟨rfl, -⟩ := h.of_request hallowed hrequest
      simp

/-- The clocks move the registers as the phase moves. -/
theorem Represents.next (h : p.Represents n txb s) (hallowed : s.Allowed csrAddr e)
    (hrequest : ∀ m ∈ e.request csrAddr, n = m ∧ txb = s.nextTxb e) :
    (p.next n (e.request csrAddr).isSome e.sys.isSome e.phy).Represents n txb
      (s.next csrAddr e) where
  count hbusy := by
    by_cases hidle : p = idle
    · rw [Ne, next_eq_idle_iff] at hbusy
      cases hwritten : e.request csrAddr with
      | none => exact absurd (.inl ⟨hidle, by rw [hwritten]; rfl⟩) hbusy
      | some m =>
          rw [(hrequest m hwritten).1]
          exact (h.of_request hallowed hwritten).2.1
    · exact h.count hidle
  txCount := h.next_txCount_eq hallowed fun m hm => (hrequest m hm).1
  txRemainingR := h.next_txRemainingR_eq
  startSync := by
    rw [startFlight_next, ← h.txStart_eq]
    refine Sampler.holding_step h.startSync fun htoggle => ?_
    have hloaded : p = loaded := by
      rw [h.txStart_eq, Bool.and_eq_true, decide_eq_true_iff] at htoggle
      exact htoggle.2
    rw [hloaded]
    rfl
  doneSync := by
    rw [doneFlight_next, ← h.txDone_eq]
    refine Sampler.holding_step h.doneSync fun htoggle => ?_
    have hend : p = sending (2 * n.toNat) := by
      rw [h.txDone_eq, Bool.and_eq_true, decide_eq_true_iff] at htoggle
      exact htoggle.2
    rw [hend]
    rfl
  buffer hbusy := by
    by_cases hidle : p = idle
    · cases hwritten : e.request csrAddr with
      | none =>
          rw [Ne, next_eq_idle_iff, hwritten] at hbusy
          exact absurd (.inl ⟨hidle, rfl⟩) hbusy
      | some m => exact (hrequest m hwritten).2.symm
    · exact h.next_txb_eq hallowed hidle hbusy
  transmits := by
    cases hphy : e.phy with
    | false => exact h.next_transmits_same hphy _ _
    | true => exact h.next_transmits hphy _ _
  outstanding := h.next_outstanding hallowed

/-- At power-up there is no transmission. -/
theorem represents_of_initial (h : s.Initial) (n : BitVec 11) (txb : BitVec 11 → Byte) :
    idle.Represents n txb s := by
  obtain ⟨htxCount, hstartLevel, hstartSync, hstate, hphyTxEn, hdoneLevel, hdoneSync, hquiet⟩ := h
  refine ⟨fun hidle => absurd rfl hidle, htxCount, fun hidle => absurd rfl hidle, ?_, ?_,
    fun hidle => absurd rfl hidle, ⟨hstate, hphyTxEn⟩, hquiet⟩
  · rw [hstartSync, hstartLevel]
    rfl
  · rw [hdoneSync, hdoneLevel]
    rfl

end Phase

end Soc.Minimac2
