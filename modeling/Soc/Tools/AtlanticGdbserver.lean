import Mathlib.Data.List.Basic
import Soc.Csr
import Soc.Library.Machine

/-!
# The relay of the debugger

`handle_client` of `atlantic_gdbserver` carries bytes between the TCP connection of GDB and the JTAG
UART. Its steps are the calls it makes, whose results are the inputs. What
`jtagatlantic_write` accepts is not looked at, and after a partial `send` the loop starts at the
front of the buffer again. The streams are intact as long as neither makes a difference
(`intact_of_whole`).
-/

namespace Soc.Tools.AtlanticGdbserver

open Library (Machine)

/-- `WSAEWOULDBLOCK`. -/
def WSAEWOULDBLOCK : Int := 10035

/-- The call `handle_client` makes next. -/
inductive Pc where
  | openLink
  | firstFlush
  | recv
  | write
  | read
  | send
  | flush
  | returned
  deriving DecidableEq

/-- What `handle_client` reports before it gives up. -/
inductive Report where
  | openLink
  | firstFlush
  | reading (error : Int)
  | writing (error : Int)
  | flush
  deriving DecidableEq

/-- The text of a report. -/
def Report.text : Report → String
  | .openLink => "Unable to open JTAG Atlantic link.\n"
  | .firstFlush => "\n\nError on JTAG Link flush\n\nExiting\n"
  | .reading error => s!"\n\nError reading socket: {error}\n"
  | .writing error => s!"\n\nError writing to socket: {error}\n"
  | .flush => "\n\nError on JTAG Link flush\n\n"

/-- The variables of `handle_client`, what it has reported, how many bytes the last
`jtagatlantic_read` returned, and all the bytes that went through each of the four calls. -/
structure State where
  pc : Pc
  temp : List Byte
  len : Int
  nError : Int
  reports : List Report
  got : Nat
  fromTcp : List Byte
  toLink : List Byte
  fromLink : List Byte
  toTcp : List Byte
  deriving DecidableEq

/-- The result of a call: of `recv` with `WSAGetLastError`, of `jtagatlantic_write` as the number of
bytes it accepts, and of `recv` and `jtagatlantic_read` with the bytes they store. -/
inductive Input where
  | opened (link : Bool)
  | flushed (result : Int)
  | received (len : Int) (data : List Byte) (error : Int)
  | wrote (accepted : Nat)
  | got (len : Int) (data : List Byte)
  | sent (result : Int)

namespace State

/-- The test of `nError`. -/
def failed (s : State) : Bool := s.nError ≠ WSAEWOULDBLOCK && s.nError ≠ 0

/-- The link could be opened or not. -/
def opened (s : State) (link : Bool) : State :=
  if link then { s with pc := .firstFlush }
  else { s with pc := .returned, reports := s.reports ++ [.openLink] }

/-- `jtagatlantic_flush`, before the loop and at its end. -/
def flushed (s : State) (result : Int) (report : Report) : State :=
  if result ≠ 0 then { s with pc := .returned, reports := s.reports ++ [report] }
  else { s with pc := .recv }

/-- `recv`, and the test of its error. -/
def received (s : State) (len : Int) (data : List Byte) (error : Int) : State :=
  let s := { s with
    temp := data ++ s.temp.drop data.length, len, nError := error, fromTcp := s.fromTcp ++ data }
  if s.failed then { s with pc := .returned, reports := s.reports ++ [.reading s.nError] }
  else if s.len > 0 then { s with pc := .write, temp := s.temp.set s.len.toNat 0 }
  else { s with pc := .read }

/-- `jtagatlantic_write`, whose result is not used. -/
def wrote (s : State) (accepted : Nat) : State :=
  { s with pc := .read, toLink := s.toLink ++ s.temp.take accepted }

/-- `jtagatlantic_read`. -/
def read (s : State) (len : Int) (data : List Byte) : State :=
  let s := { s with
    temp := data ++ s.temp.drop data.length, len, got := data.length,
    fromLink := s.fromLink ++ data }
  if s.len > 0 then { s with pc := .send, temp := s.temp.set s.len.toNat 0 }
  else { s with pc := .flush }

/-- `send`, and the test of the error of `recv` after it. -/
def sent (s : State) (result : Int) : State :=
  let s := { s with toTcp := s.toTcp ++ s.temp.take result.toNat }
  if s.failed then { s with pc := .flush, reports := s.reports ++ [.writing s.nError] }
  else
    let s := if result > 0 then { s with len := s.len - result } else s
    if s.len > 0 then s else { s with pc := .flush }

/-- One call and what follows it. -/
def next (s : State) : Input → State
  | .opened link => s.opened link
  | .flushed result => s.flushed result (if s.pc = .firstFlush then .firstFlush else .flush)
  | .received len data error => s.received len data error
  | .wrote accepted => s.wrote accepted
  | .got len data => s.read len data
  | .sent result => s.sent result

/-- The results the calls may have: `recv` and `jtagatlantic_read` return at most the 63 bytes they
are asked for, and no more is accepted than there is. -/
def Allowed (s : State) : Input → Prop
  | .opened _ => s.pc = .openLink
  | .flushed _ => s.pc = .firstFlush ∨ s.pc = .flush
  | .received len data _ => s.pc = .recv ∧ len ≤ 63 ∧ data.length = len.toNat
  | .wrote accepted => s.pc = .write ∧ accepted ≤ s.len.toNat
  | .got len data => s.pc = .read ∧ len ≤ 63 ∧ data.length = len.toNat
  | .sent result => s.pc = .send ∧ result ≤ s.len

/-- `Allowed` compares numbers. -/
instance (s : State) : ∀ input, Decidable (s.Allowed input)
  | .opened _ => inferInstanceAs (Decidable (_ = _))
  | .flushed _ => inferInstanceAs (Decidable (_ ∨ _))
  | .received _ _ _ => inferInstanceAs (Decidable (_ ∧ _))
  | .wrote _ => inferInstanceAs (Decidable (_ ∧ _))
  | .got _ _ => inferInstanceAs (Decidable (_ ∧ _))
  | .sent _ => inferInstanceAs (Decidable (_ ∧ _))

/-- The start of `handle_client`. -/
def Initial (s : State) : Prop :=
  s.pc = .openLink ∧ s.reports = [] ∧ s.fromTcp = [] ∧ s.toLink = [] ∧ s.fromLink = [] ∧
    s.toTcp = []

/-- In both directions the destination has accepted a prefix of what was read, and all of it when an
iteration has ended without a report. -/
structure Intact (s : State) : Prop where
  toLink : s.toLink <+: s.fromTcp
  toTcp : s.toTcp <+: s.fromLink
  finished : s.pc = .recv → s.toLink = s.fromTcp ∧ s.toTcp = s.fromLink

/-- The results that do no harm: `jtagatlantic_write` accepts everything, and `send` accepts bytes
at the front of the buffer that are the ones it should go on with. -/
def Whole (s : State) : Input → Prop
  | .wrote accepted => accepted = s.len.toNat
  | .sent result =>
      s.temp.take result.toNat = (s.temp.drop (s.got - s.len.toNat)).take result.toNat
  | _ => True

/-- `Whole` compares numbers and bytes. -/
instance (s : State) : ∀ input, Decidable (s.Whole input)
  | .wrote _ => inferInstanceAs (Decidable (_ = _))
  | .sent _ => inferInstanceAs (Decidable (_ = _))
  | .opened _ | .flushed _ | .received _ _ _ | .got _ _ => inferInstanceAs (Decidable True)

end State

/-- `handle_client` with any results of its calls. -/
def machine : Machine State Input where
  Initial := State.Initial
  Allowed := State.Allowed
  next := State.next

/-- The calls of the machine. -/
instance (s : State) (input : Input) : Decidable (machine.Allowed s input) :=
  inferInstanceAs (Decidable (s.Allowed input))

namespace State

variable {s : State} {input : Input}

/-- The bytes in the buffer that are for the link. -/
def unwritten (s : State) : List Byte := if s.pc = .write then s.temp.take s.len.toNat else []

/-- The bytes in the buffer that are still for the TCP connection. -/
def unsent (s : State) : List Byte :=
  if s.pc = .send then (s.temp.drop (s.got - s.len.toNat)).take s.len.toNat else []

/-- What has been read is what has been accepted and what is still in the buffer, unless the loop
was left with an error. -/
structure Inv (s : State) : Prop where
  toLink : s.toLink <+: s.fromTcp
  tcp : s.pc ≠ .returned → s.fromTcp = s.toLink ++ s.unwritten
  link : s.fromLink = s.toTcp ++ s.unsent
  send : s.pc = .send → s.len.toNat ≤ s.got
  noError : s.pc = .write ∨ s.pc = .read ∨ s.pc = .send → s.failed = false

/-- The bytes that a read has put into the buffer, with a 0 behind them. -/
theorem take_filled {data temp : List Byte} {n : Nat} (h : data.length = n) :
    ((data ++ temp.drop data.length).set n 0).take n = data := by
  rw [List.take_set_of_le (Nat.le_refl n), ← h, List.take_left]

/-- Between the transfers nothing is in flight. -/
theorem Inv.settled (h : s.Inv) (hwrite : s.pc ≠ .write) (hsend : s.pc ≠ .send)
    (hreturned : s.pc ≠ .returned) : s.fromTcp = s.toLink ∧ s.fromLink = s.toTcp := by
  have htcp := h.tcp hreturned
  have hlink := h.link
  rw [unwritten, if_neg hwrite, List.append_nil] at htcp
  rw [unsent, if_neg hsend, List.append_nil] at hlink
  exact ⟨htcp, hlink⟩

/-- Nothing in flight, outside the transfers. -/
theorem inv_of_settled (hwrite : s.pc ≠ .write) (hsend : s.pc ≠ .send)
    (hread : s.pc = .read → s.failed = false) (htcp : s.fromTcp = s.toLink)
    (hlink : s.fromLink = s.toTcp) : s.Inv where
  toLink := htcp ▸ List.prefix_refl _
  tcp _ := by rw [unwritten, if_neg hwrite, List.append_nil, htcp]
  link := by rw [unsent, if_neg hsend, List.append_nil, hlink]
  send h := absurd h hsend
  noError
    | .inl h => absurd h hwrite
    | .inr (.inl h) => hread h
    | .inr (.inr h) => absurd h hsend

/-- Before the calls nothing is in flight. -/
theorem inv_of_initial (h : s.Initial) : s.Inv := by
  obtain ⟨hpc, -, hfromTcp, htoLink, hfromLink, htoTcp⟩ := h
  refine inv_of_settled ?_ ?_ ?_ ?_ ?_
  all_goals simp [hpc, hfromTcp, htoLink, hfromLink, htoTcp]

/-- After `recv` the bytes are in the buffer, or the loop is left. -/
theorem inv_received {len error : Int} {data : List Byte} (hinv : s.Inv) (hpc : s.pc = .recv)
    (hdata : data.length = len.toNat) : (s.received len data error).Inv := by
  obtain ⟨htcp, hlink⟩ := hinv.settled (by simp [hpc]) (by simp [hpc]) (by simp [hpc])
  unfold received
  dsimp only
  split
  · -- left with an error of the socket
    refine ⟨?_, fun h => absurd rfl h, ?_, nofun, by simp⟩
    · exact htcp ▸ List.prefix_append _ _
    · simpa [unsent] using hlink
  · rename_i herror
    rw [Bool.not_eq_true] at herror
    split
    · refine ⟨?_, fun _ => ?_, ?_, nofun, fun _ => herror⟩
      · exact htcp ▸ List.prefix_append _ _
      · simp only [unwritten, if_true, take_filled hdata, htcp]
      · simpa [unsent] using hlink
    · rename_i hempty
      have hnil : data = [] := List.length_eq_zero_iff.1 (by omega)
      refine inv_of_settled nofun nofun (fun _ => herror) ?_ hlink
      simp [hnil, htcp]

/-- After a whole `jtagatlantic_write` nothing is in flight. -/
theorem inv_wrote (hinv : s.Inv) (hpc : s.pc = .write) :
    (s.wrote s.len.toNat).Inv := by
  have htcp := hinv.tcp (by simp [hpc])
  have hlink := hinv.link
  rw [unwritten, if_pos hpc] at htcp
  rw [unsent, if_neg (by simp [hpc]), List.append_nil] at hlink
  exact inv_of_settled nofun nofun (fun _ => hinv.noError (.inl hpc)) htcp hlink

/-- After `jtagatlantic_read` the bytes are in the buffer. -/
theorem inv_read {len : Int} {data : List Byte} (hinv : s.Inv) (hpc : s.pc = .read)
    (hdata : data.length = len.toNat) : (s.read len data).Inv := by
  obtain ⟨htcp, hlink⟩ := hinv.settled (by simp [hpc]) (by simp [hpc]) (by simp [hpc])
  unfold read
  dsimp only
  split
  · refine ⟨?_, fun _ => ?_, ?_, fun _ => ?_, fun _ => ?_⟩
    · exact htcp ▸ List.prefix_refl _
    · simp [unwritten, htcp]
    · simp only [unsent, if_true, hdata, Nat.sub_self, List.drop_zero, hlink]
      rw [← hdata, take_filled rfl]
    · exact Nat.le_of_eq hdata.symm
    · exact hinv.noError (.inr (.inl hpc))
  · rename_i hempty
    have hnil : data = [] := List.length_eq_zero_iff.1 (by omega)
    refine inv_of_settled nofun nofun nofun htcp ?_
    simp [hnil, hlink]

/-- A `send` that goes on where the last one stopped accepts the first of the bytes that are
left. -/
theorem take_of_whole {result : Int} (hlen : s.len.toNat ≤ s.got) (hresult : result ≤ s.len)
    (hwhole : s.Whole (.sent result)) : (s.temp.drop (s.got - s.len.toNat)).take s.len.toNat =
      s.temp.take result.toNat ++
        (s.temp.drop (s.got - (s.len.toNat - result.toNat))).take
          (s.len.toNat - result.toNat) := by
  have hrest : s.len.toNat = result.toNat + (s.len.toNat - result.toNat) := by omega
  have hoffset : s.got - s.len.toNat + result.toNat =
      s.got - (s.len.toNat - result.toNat) := by omega
  have hfront : (s.temp.drop (s.got - s.len.toNat)).take result.toNat =
      s.temp.take result.toNat := hwhole.symm
  calc (s.temp.drop (s.got - s.len.toNat)).take s.len.toNat
      = (s.temp.drop (s.got - s.len.toNat)).take
          (result.toNat + (s.len.toNat - result.toNat)) := by rw [← hrest]
    _ = _ := by rw [List.take_add, hfront, List.drop_drop, hoffset]

/-- With `len` bytes left, the loop sends on or goes to the flush. -/
theorem inv_left {accepted : List Byte} {len : Int} (hpc : s.pc = .send)
    (herror : s.failed = false) (htcp : s.fromTcp = s.toLink) (hlen : len.toNat ≤ s.got)
    (hlink : s.fromLink = s.toTcp ++ accepted ++
      (s.temp.drop (s.got - len.toNat)).take len.toNat) :
    Inv (if len > 0 then { s with toTcp := s.toTcp ++ accepted, len }
      else { s with pc := .flush, toTcp := s.toTcp ++ accepted, len }) := by
  split
  · refine ⟨htcp ▸ List.prefix_refl _, fun _ => ?_, ?_, fun _ => hlen, fun _ => herror⟩
    · simp [unwritten, hpc, htcp]
    · simp only [unsent, if_pos hpc, hlink]
  · have hdone : len.toNat = 0 := by omega
    refine inv_of_settled nofun nofun nofun htcp ?_
    rw [hlink, hdone, List.take_zero, List.append_nil]

/-- After a `send` that goes on where the last one stopped, less is in flight. -/
theorem inv_sent {result : Int} (hinv : s.Inv) (hpc : s.pc = .send) (hresult : result ≤ s.len)
    (hwhole : s.Whole (.sent result)) : (s.sent result).Inv := by
  have htcp := hinv.tcp (by simp [hpc])
  have hlink := hinv.link
  have hlen := hinv.send hpc
  have herror := hinv.noError (.inr (.inr hpc))
  rw [unwritten, if_neg (by simp [hpc]), List.append_nil] at htcp
  rw [unsent, if_pos hpc, take_of_whole hlen hresult hwhole, ← List.append_assoc] at hlink
  -- `len` is what is left, whether bytes were accepted or not
  have hafter : ∀ len : Int, len.toNat = s.len.toNat - result.toNat →
      Inv (if len > 0 then { s with toTcp := s.toTcp ++ s.temp.take result.toNat, len }
        else { s with pc := .flush, toTcp := s.toTcp ++ s.temp.take result.toNat, len }) := by
    intro len hleft
    exact inv_left hpc herror htcp (by omega) (hleft ▸ hlink)
  have hfailed : State.failed { s with toTcp := s.toTcp ++ s.temp.take result.toNat } = false :=
    herror
  rw [sent]
  dsimp only
  rw [hfailed, if_neg Bool.false_ne_true]
  by_cases hpos : result > 0
  · rw [if_pos hpos]
    exact hafter (s.len - result) (by omega)
  · rw [if_neg hpos]
    exact hafter s.len (by omega)

/-- Every call with a result that does no harm keeps track of all the bytes. -/
theorem inv_next (hinv : s.Inv) (hallowed : s.Allowed input) (hwhole : s.Whole input) :
    (s.next input).Inv := by
  cases input with
  | opened link =>
      have hpc : s.pc = .openLink := hallowed
      obtain ⟨htcp, hlink⟩ := hinv.settled (by simp [hpc]) (by simp [hpc]) (by simp [hpc])
      cases link with
      | true => exact inv_of_settled nofun nofun nofun htcp hlink
      | false => exact inv_of_settled nofun nofun nofun htcp hlink
  | flushed result =>
      have hpc : s.pc = .firstFlush ∨ s.pc = .flush := hallowed
      obtain ⟨htcp, hlink⟩ := hinv.settled (by rcases hpc with hpc | hpc <;> simp [hpc])
        (by rcases hpc with hpc | hpc <;> simp [hpc]) (by rcases hpc with hpc | hpc <;> simp [hpc])
      show (s.flushed result _).Inv
      unfold flushed
      split
      · exact inv_of_settled nofun nofun nofun htcp hlink
      · exact inv_of_settled nofun nofun nofun htcp hlink
  | received len data error => exact inv_received hinv hallowed.1 hallowed.2.2
  | wrote accepted =>
      have haccepted : accepted = s.len.toNat := hwhole
      rw [haccepted]
      exact inv_wrote hinv hallowed.1
  | got len data => exact inv_read hinv hallowed.1 hallowed.2.2
  | sent result => exact inv_sent hinv hallowed.1 hallowed.2 hwhole

/-- What is accounted for is intact. -/
theorem Inv.intact (h : s.Inv) : s.Intact where
  toLink := h.toLink
  toTcp := by
    rw [h.link]
    exact List.prefix_append _ _
  finished hpc := by
    obtain ⟨htcp, hlink⟩ := h.settled (by simp [hpc]) (by simp [hpc]) (by simp [hpc])
    exact ⟨htcp.symm, hlink.symm⟩

end State

/-- In every run in which `jtagatlantic_write` accepts all it is given, and `send` accepts bytes at
the front of the buffer only where they are the ones to go on with, both streams stay intact. -/
theorem intact_of_whole {s : State} (h : (machine.restrict State.Whole).Reachable s) : s.Intact :=
  (Machine.invariant (M := machine.restrict State.Whole) (P := State.Inv)
    (fun _ hinit => State.inv_of_initial hinit)
    (fun _ _ hinv hstep => State.inv_next hinv hstep.1 hstep.2) h).intact

/-- The start, with a buffer of 64 bytes. -/
def start : State where
  pc := .openLink
  temp := List.replicate 64 0
  len := 0
  nError := 0
  reports := []
  got := 0
  fromTcp := []
  toLink := []
  fromLink := []
  toTcp := []

/-- Nothing has been read at the start. -/
theorem start_initial : start.Initial := ⟨rfl, rfl, rfl, rfl, rfl, rfl⟩

/-- The start of a session, and an iteration that carries a packet in each direction. `accepted`
bytes of the first are accepted by the link, and `sent` are the results of `send`. -/
def iteration (accepted : Nat) (sent : List Int) : List Input :=
  [.opened true, .flushed 0, .received 4 [0x24, 0x67, 0x23, 0x36] 0, .wrote accepted,
    .got 3 [0x2b, 0x24, 0x78]] ++ sent.map .sent ++ [.flushed 0]

/-- An iteration in which everything is accepted, after the connection had blocked once. -/
theorem intact_of_whole_iteration :
    ((machine.restrict State.Whole).run start (iteration 4 [-1, 3])).Intact :=
  intact_of_whole ((Machine.Reachable.initial start_initial).run (by decide))

/-- A partial `send` sends the front of the buffer twice, and the rest of a partial
`jtagatlantic_write` is lost. -/
theorem partial_results_lose : ¬ (∀ s, machine.Reachable s → s.toTcp <+: s.fromLink) ∧
    ¬ (∀ s, machine.Reachable s → s.pc = .recv → s.toLink = s.fromTcp) := by
  constructor
  · intro h
    have hrun : machine.Reachable (machine.run start (iteration 4 [2, 1])) :=
      (Machine.Reachable.initial start_initial).run (by decide)
    exact absurd (h _ hrun) (by decide)
  · intro h
    have hrun : machine.Reachable (machine.run start (iteration 1 [3])) :=
      (Machine.Reachable.initial start_initial).run (by decide)
    exact absurd (h _ hrun (by decide)) (by decide)

end Soc.Tools.AtlanticGdbserver
