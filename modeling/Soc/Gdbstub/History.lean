import Mathlib.Data.Option.Basic
import Soc.Gdbstub.Agreement

/-!
# What the stub keeps of earlier packets

The packet buffer is not cleared between packets. `get_packet` looks for a sequence id at a
fixed index, and the commands that write copy as many characters as they were told, so a
packet that is too short is answered from what an earlier packet has left. All other
packets that leave the RAM of the stub alone have the same effect after every history.
-/

namespace Soc.Gdbstub

open Library.Region (Covers store store_inj)

namespace Serial

variable {α β γ : Type}

/-- Pieces of code one after another can be grouped in either way. -/
theorem bind_assoc (x : Serial α) (f : α → Serial β) (g : β → Serial γ) :
    (x.bind f).bind g = x.bind fun a => (f a).bind g := by
  funext input
  cases hx : (x input).result with
  | none => simp only [bind, hx]
  | some r =>
      rw [bind_of_some (show (x input).result = some (r.1, r.2) from hx)]
      cases hf : (f r.1 r.2).result with
      | none =>
          have hboth : (x.bind f input).result = none := by
            rw [bind_of_some (show (x input).result = some (r.1, r.2) from hx)]
            exact hf
          simp only [bind, hx, hf, Outcome.behind]
      | some r' => simp only [bind, hx, hf, Outcome.behind, List.append_assoc]

end Serial

namespace Stub

/-- What follows a command: its reply, if there is one. -/
def finish (r : Stub × After) : Serial (Stub × After) :=
  if r.2 = .resume false then .done r
  else (putPacket r.1.remcomOutBuffer).bind fun _ => .done r

/-- One turn of the loop of `handle_exception`: a packet, its command and the reply. -/
def turn (s : Stub) : Serial (Stub × After) :=
  (getPacket s.remcomInBuffer).bind fun buffer => finish (s.accept buffer).execute

/-- What `handle_exception` does before its loop. -/
def stop (s : Stub) : Stub :=
  if s.enter.gdbConnected then s.enter.cmdStatus else s.enter

end Stub

/-- The states in which the stub waits for a packet. Between two stops the application changes
memory and the registers in it. The RAM of the stub behind the packet buffer changes at any time. -/
inductive Reached : Stub → Prop
  | first (s : Stub) : s.scratchpad = 0 → s.registers = debugFrame → Reached s.stop
  | again {s : Stub} (mem : Word → Byte) : Reached s → Reached { s with mem := mem }.stop
  | packet {s : Stub} {buffer : Nat → Byte} {input rest : List Byte} : Reached s →
      (getPacket s.remcomInBuffer input).result = some (buffer, rest) →
      Reached (s.accept buffer).execute.1
  | behind {s : Stub} {b : Nat → Byte} {mem : Word → Byte} : Reached s →
      (∀ i ≤ BUFMAX, b i = s.remcomInBuffer i) → SameOutside s.mem mem →
      Reached { s with remcomInBuffer := b, mem := mem }

/-- The characters sent in an exchange. -/
def sent (io : List Io) : List Byte :=
  io.filterMap fun | .put c => some c | .got _ => none

/-- A correct frame with the packet `p` and the answers to the reply have the same effect in both
states: the stub sends the same characters and leaves the same state. -/
def Alike (p : List Byte) (s s' : Stub) : Prop :=
  ∀ d1 d2 answers, Checks p d1 d2 → ascii '$' ∉ answers →
    sent (s.turn (frame p d1 d2 ++ answers)).io = sent (s'.turn (frame p d1 d2 ++ answers)).io ∧
      Option.Rel (fun r r' => Same r.1.1 r'.1.1 ∧ r.1.2 = r'.1.2 ∧ r.2 = r'.2)
        (s.turn (frame p d1 d2 ++ answers)).result (s'.turn (frame p d1 d2 ++ answers)).result

/-- The packet `p` in a buffer that was empty. -/
def content (p : List Byte) : Nat → Byte := fill (fun _ => 0) (p ++ [0])

/-- The packet determines the cell of the buffer. The last cell is always NUL. -/
def Known (p : List Byte) (j : Nat) : Prop := j ≤ p.length ∨ j = BUFMAX

/-- The packet determines the bytes of `count` pairs of digits. Behind a pair whose second
character is NUL the first does not matter. -/
def HexKnown (p : List Byte) (pos count : Nat) : Prop :=
  ∀ i < count, Known p (pos + 2 * i + 1)

/-- The packet determines `count` bytes of escaped data. -/
def BinKnown (p : List Byte) : Nat → Nat → Prop
  | _, 0 => True
  | pos, count + 1 =>
      Known p pos ∧ BinKnown p (if content p pos = 0x7d then pos + 2 else pos + 1) count

/-- The packet determines all data that its command copies. -/
structure DataKnown (p : List Byte) : Prop where
  setregs : content p 0 = ascii 'G' → HexKnown p 1 (NUM_REGS * 4)
  memWrite : content p 0 = ascii 'M' → ∀ addr length ptr,
    writeArgs (content p) = some (addr, length, ptr) → HexKnown p ptr length.toInt.toNat
  memWriteBinary : content p 0 = ascii 'X' → ∀ addr length ptr,
    writeArgs (content p) = some (addr, length, ptr) → BinKnown p ptr length.toInt.toNat
  regSet : content p 0 = ascii 'P' → ∀ reg ptr,
    setArgs (content p) = some (reg, ptr) → HexKnown p ptr 4

/-- The packet reaches the third character, and it has all data that its command copies. -/
def Fresh (p : List Byte) : Prop := 2 ≤ p.length ∧ DataKnown p

namespace Stub

/-- The loop of `handle_exception` in turns. -/
theorem serve_eq_turn (s : Stub) (fuel : Nat) :
    serve (fuel + 1) s =
      s.turn.bind fun r => if r.2 = .reply then serve fuel r.1 else .done r.1 := by
  rw [serve, turn, Serial.bind_assoc]
  congr 1
  funext buffer
  rw [finish]
  cases hafter : ((s.accept buffer).execute).2 with
  | reply =>
      simp only [hafter, reduceCtorEq, if_false]
      rw [Serial.bind_assoc]
      congr 1
      funext _ input
      simp [Serial.bind, Serial.done, hafter, Outcome.behind]
  | resume reply =>
      cases reply with
      | false =>
          funext input
          simp [Serial.bind, Serial.done, hafter, Outcome.behind]
      | true =>
          simp only [hafter, After.resume.injEq, Bool.true_eq_false, if_false]
          rw [Serial.bind_assoc]
          congr 1
          funext _ input
          simp [Serial.bind, Serial.done, hafter, Outcome.behind]

/-- `handle_exception` runs its loop from the state `stop`. -/
theorem handleException_eq_stop (s : Stub) (input : List Byte) :
    s.handleException input =
      (if s.enter.gdbConnected then
        (putPacket s.stop.remcomOutBuffer).bind fun _ => serve (input.length + 1) s.stop
      else serve (input.length + 1) s.stop) input := by
  rw [handleException, stop]
  split_ifs <;> rfl

end Stub

section Sent

variable {io io' : List Io} {l : List Byte} {c : Byte}

@[simp] theorem sent_append : sent (io ++ io') = sent io ++ sent io' := List.filterMap_append

@[simp] theorem sent_put_cons : sent (.put c :: io) = c :: sent io := rfl

@[simp] theorem sent_map_got : sent (l.map .got) = [] := by
  induction l with
  | nil => rfl
  | cons c l ih => exact ih

@[simp] theorem sent_map_put : sent (l.map .put) = l := by
  induction l with
  | nil => rfl
  | cons c l ih => rw [List.map_cons, sent_put_cons, ih]

end Sent

section Turn

variable {s : Stub} {p answers : List Byte} {d1 d2 : Byte}

/-- A packet that fits is answered from the state with the packet in the buffer. -/
theorem turn_frame (s : Stub) (answers : List Byte) (hp : Plain p) (hlength : p.length < BUFMAX)
    (hsum : Checks p d1 d2) :
    s.turn (frame p d1 d2 ++ answers) =
      (Stub.finish (s.deliver p).execute answers).behind ((frame p d1 d2).map .got ++
        .put (ascii '+') :: (sequenceId (s.deliver p).remcomInBuffer).map .put) := by
  have hget := getPacket_frame s.remcomInBuffer answers (show ascii '$' ∉ [] by simp) hp hlength
    hsum.agrees
  rw [List.nil_append] at hget
  rw [Stub.turn, Serial.bind_of_some (by rw [hget]), hget]
  rfl

/-- Without a start character `get_packet` waits. -/
theorem getPacketFrom_waits (buffer : Nat → Byte) {l : List Byte} (h : ascii '$' ∉ l) :
    getPacketFrom buffer .hunt l = ⟨l.map .got, none⟩ := by
  have hjunk : getPacketFrom buffer .hunt (l ++ []) = _ := getPacketFrom_junk h
  rw [List.append_nil] at hjunk
  rw [hjunk]
  simp [getPacketFrom, Outcome.behind]

/-- A packet that does not fit is dropped. -/
theorem turn_dropped (s : Stub) (hp : Plain p) (hlength : BUFMAX ≤ p.length) (hsum : Checks p d1 d2)
    (hanswers : ascii '$' ∉ answers) :
    s.turn (frame p d1 d2 ++ answers) = ⟨(frame p d1 d2 ++ answers).map .got, none⟩ := by
  obtain ⟨buffer', hget⟩ := getPacket_dropped s.remcomInBuffer answers
    (show ascii '$' ∉ [] by simp) hp hlength hsum
  rw [List.nil_append, getPacketFrom_waits _ hanswers] at hget
  simp only [Stub.turn, Serial.bind, hget, Outcome.behind, List.map_append]

/-- Equal replies are sent alike. -/
theorem putPacket_congr {o o' : Nat → Byte} (h : packetChars o = packetChars o') :
    putPacket o = putPacket o' := by
  funext input
  induction input with
  | nil => rw [putPacket, putPacket, h]
  | cons ch input ih => rw [putPacket, putPacket, h, ih]

/-- After commands with the same effect the replies have the same effect. -/
theorem finish_echo {r r' : Stub × After} (h : Echo r r') (answers : List Byte) :
    (Stub.finish r answers).io = (Stub.finish r' answers).io ∧
      Option.Rel (fun r r' => Same r.1.1 r'.1.1 ∧ r.1.2 = r'.1.2 ∧ r.2 = r'.2)
        (Stub.finish r answers).result (Stub.finish r' answers).result := by
  obtain ⟨n, hagree⟩ := h.reply
  have hput := putPacket_congr (packetChars_shares hagree)
  rw [Stub.finish, Stub.finish, ← h.after, ← hput]
  by_cases hresume : r.2 = .resume false
  · rw [if_pos hresume, if_pos hresume]
    exact ⟨rfl, .some ⟨h.same, h.after, rfl⟩⟩
  rw [if_neg hresume, if_neg hresume]
  cases hresult : (putPacket r.1.remcomOutBuffer answers).result with
  | none =>
      simp only [Serial.bind, hresult]
      exact ⟨trivial, .none⟩
  | some rest =>
      rw [Serial.bind_of_some hresult, Serial.bind_of_some hresult]
      exact ⟨rfl, .some ⟨h.same, h.after, rfl⟩⟩

end Turn

section Data

variable {p : List Byte} {b b' : Nat → Byte} {pos count : Nat}

/-- A buffer that holds the packet agrees with its content. -/
theorem shares_content (old : Nat → Byte) (p : List Byte) :
    Shares p.length (fill old (p ++ [0])) (content p) := by
  have hstored : ∀ i ≤ p.length, i < (p ++ [0]).length := by
    intro i hi
    rw [List.length_append, List.length_singleton]
    omega
  refine ⟨?_, fun i hi => ?_⟩
  · rw [fill_of_lt (hstored _ (Nat.le_refl _))]
    simp
  · rw [content, fill_of_lt (hstored i hi), fill_of_lt (hstored i hi)]

/-- Behind the packet an empty buffer is empty. -/
theorem content_behind {j : Nat} (h : p.length ≤ j) : content p j = 0 := by
  obtain rfl | hlt := Nat.eq_or_lt_of_le h
  · exact (shares_content (fun _ => 0) p).1
  · rw [content, fill_of_le]
    rw [List.length_append, List.length_singleton]
    exact hlt

/-- The packet determines the cells up to its end and the last one. -/
theorem fill_known {old : Nat → Byte} (hlast : old BUFMAX = 0) (hlength : p.length < BUFMAX)
    {j : Nat}
    (h : Known p j) : fill old (p ++ [0]) j = content p j := by
  obtain h | rfl := h
  · exact (shares_content old p).2 j h
  · rw [content_behind (Nat.le_of_lt hlength), fill_of_le, hlast]
    rw [List.length_append, List.length_singleton]
    exact hlength

/-- After a NUL in place of the second digit the first does not matter. -/
theorem hexByte_nul (h : b (pos + 1) = 0) : hexByte b pos = 0xff := by
  have hnul : BitVec.ofInt 8 (hex 0) = 0xff := by decide
  rw [hexByte, h, hnul]
  exact BitVec.or_allOnes

/-- Data the packet determines is the same in any buffer that holds it. -/
theorem hexBytes_known (hcells : ∀ j, Known p j → b j = content p j) (hlength : p.length < BUFMAX)
    (h : HexKnown p pos count) : hexBytes b pos count = hexBytes (content p) pos count := by
  refine hexBytes_eq_iff.2 fun i hi => ?_
  obtain hinside | hlast := h i hi
  · rw [hexByte, hexByte, hcells _ (.inl (Nat.le_of_succ_le hinside)), hcells _ (.inl hinside)]
  · have hnul : content p (pos + 2 * i + 1) = 0 := by
      rw [hlast, content_behind (Nat.le_of_lt hlength)]
    rw [hexByte_nul hnul, hexByte_nul ((hcells _ (.inr hlast)).trans hnul)]

theorem binBytes_known (hcells : ∀ j, Known p j → b j = content p j)
    (h : BinKnown p pos count) : binBytes b pos count = binBytes (content p) pos count := by
  induction count generalizing pos with
  | zero => rfl
  | succ count ih =>
      obtain ⟨hfirst, hrest⟩ := h
      rw [binBytes, binBytes, hcells _ hfirst]
      by_cases hescape : content p pos = 0x7d
      · rw [if_pos hescape] at hrest ⊢
        have hinside : pos + 1 ≤ p.length := by
          by_contra hbehind
          rw [content_behind (by omega)] at hescape
          exact absurd hescape (by decide)
        rw [if_pos hescape, hcells _ (.inl hinside), ih hrest]
      · rw [if_neg hescape] at hrest ⊢
        rw [if_neg hescape, ih hrest]

/-- The command copies the same bytes out of any buffer that holds the packet. -/
theorem copied_known (hcells : ∀ j, Known p j → b j = content p j) (hlength : p.length < BUFMAX)
    (hp : 1 ≤ p.length) (hagree : Shares p.length b (content p)) (h : DataKnown p) :
    copied b = copied (content p) := by
  have hhead : b 0 = content p 0 := hcells 0 (.inl (Nat.zero_le _))
  have hwrite := writeArgs_shares hagree hp
  have hset := setArgs_shares hagree hp
  by_cases hG : content p 0 = ascii 'G'
  · rw [copied_setregs hG, copied_setregs (hhead.trans hG)]
    exact hexBytes_known hcells hlength (h.setregs hG)
  by_cases hM : content p 0 = ascii 'M'
  · rw [copied_memWrite hM, copied_memWrite (hhead.trans hM), hwrite]
    cases hargs : writeArgs (content p) with
    | none => rfl
    | some r => exact hexBytes_known hcells hlength (h.memWrite hM r.1 r.2.1 r.2.2 hargs)
  by_cases hX : content p 0 = ascii 'X'
  · rw [copied_memWriteBinary hX, copied_memWriteBinary (hhead.trans hX), hwrite]
    cases hargs : writeArgs (content p) with
    | none => rfl
    | some r => exact binBytes_known hcells (h.memWriteBinary hX r.1 r.2.1 r.2.2 hargs)
  by_cases hP : content p 0 = ascii 'P'
  · rw [copied_regSet hP, copied_regSet (hhead.trans hP), hset]
    cases hargs : setArgs (content p) with
    | none => rfl
    | some r => exact hexBytes_known hcells hlength (h.regSet hP r.1 r.2 hargs)
  rw [copied, copied, hhead]
  simp only [hG, hM, hX, hP, if_false]

end Data

section Enough

variable {s s' : Stub} {p : List Byte}

/-- `cmd_break` leaves the packet buffer and the registers where they are. -/
theorem cmdBreak_fixed (s : Stub) : s.cmdBreak.fixed = s.fixed := by
  rw [Stub.cmdBreak]
  cases breakArgs s.remcomInBuffer with
  | none => rfl
  | some addr =>
      by_cases hinsert : s.remcomInBuffer 0 = ascii 'Z'
      · by_cases hbp : s.remcomInBuffer 1 = ascii '1'
        · simp only [hbp, hinsert, if_true]
          exact (setHwBreakpoint_fixed addr).1
        · simp only [hbp, hinsert, if_true, if_false]
          cases watchMode (s.remcomInBuffer 1) with
          | none => rfl
          | some mode => exact (setHwWatchpoint_fixed addr mode).1
      · by_cases hbp : s.remcomInBuffer 1 = ascii '1'
        · simp only [hbp, hinsert, if_true, if_false]
          exact (disableHwBreakpoint_fixed addr).1
        · simp only [hbp, hinsert, if_false]
          cases watchMode (s.remcomInBuffer 1) with
          | none => rfl
          | some mode => exact (disableHwWatchpoint_fixed addr mode).1

/-- Commands leave the packet buffer and the registers where they are. -/
theorem execute_fixed (s : Stub) : s.execute.1.fixed = s.fixed := by
  have hread : s.cmdMemRead.fixed = s.fixed := by
    rw [Stub.cmdMemRead]
    split
    · split_ifs <;> rfl
    · rfl
  have hwrite : ∀ binary, (s.cmdMemWrite binary).fixed = s.fixed := by
    intro binary
    cases hargs : writeArgs s.remcomInBuffer with
    | none => rw [memWrite_none binary hargs]; rfl
    | some r => rw [memWrite_store binary hargs]; rfl
  have hget : s.cmdRegGet.fixed = s.fixed := by
    rw [Stub.cmdRegGet]
    split <;> rfl
  have hset : s.cmdRegSet.fixed = s.fixed := by
    cases hargs : setArgs s.remcomInBuffer with
    | none => rw [regSet_none hargs]; rfl
    | some r => rw [regSet_store hargs]; rfl
  have hdetach : s.cmdDetachkill.fixed = s.fixed := by
    simp only [Stub.cmdDetachkill, apply_ite Stub.fixed, Stub.reply_fixed, ite_self]
    exact s.removeAllBreak_fixed
  have hcontinue : s.cmdContinuestep.fixed = s.fixed := by
    rw [Stub.cmdContinuestep]
    cases hexArg s.remcomInBuffer 1 with
    | none => simp only [apply_ite Stub.fixed, Stub.wcsr_fixed, ite_self]
    | some r =>
        simp only [apply_ite Stub.fixed, Stub.wcsr_fixed, ite_self]
        rfl
  have hquery : s.cmdQuery.fixed = s.fixed := by
    simp only [Stub.cmdQuery, apply_ite Stub.fixed, Stub.reply_fixed, ite_self]
  have hchoice : ∀ {c : Prop} [Decidable c] {x y : Stub × After},
      x.1.fixed = s.fixed → y.1.fixed = s.fixed →
        (if c then x else y).1.fixed = s.fixed := by
    intro c _ x y hx hy
    split
    · exact hx
    · exact hy
  exact hchoice rfl (hchoice rfl (hchoice rfl (hchoice hread (hchoice (hwrite false)
    (hchoice (hwrite true) (hchoice hget (hchoice hset (hchoice hdetach (hchoice hcontinue
      (hchoice (cmdBreak_fixed s) (hchoice hquery rfl)))))))))))

theorem execute_remcomInBuffer (s : Stub) : s.execute.1.remcomInBuffer = s.remcomInBuffer :=
  congrArg Prod.fst (execute_fixed s)

theorem execute_registers (s : Stub) : s.execute.1.registers = s.registers :=
  congrArg Prod.snd (execute_fixed s)

/-- A stop keeps the packet buffer or clears it. -/
theorem stop_last (h : s.remcomInBuffer BUFMAX = 0) : s.stop.remcomInBuffer BUFMAX = 0 := by
  have henter : s.enter.remcomInBuffer BUFMAX = 0 := by
    rw [Stub.enter]
    split_ifs
    · rfl
    · exact h
  rw [Stub.stop]
  split_ifs
  · exact henter
  · exact henter

/-- The last cell of the packet buffer is NUL in every state reached. -/
theorem Reached.last (h : Reached s) : s.remcomInBuffer BUFMAX = 0 := by
  induction h with
  | first s hreset _ =>
      have henter : s.enter = { s.clearBss with scratchpad := 1 } := if_pos hreset
      rw [Stub.stop, henter]
      rfl
  | again mem _ ih => exact stop_last ih
  | packet _ hget ih =>
      rw [execute_remcomInBuffer]
      exact getPacket_last ih hget
  | behind _ hkeep _ ih => exact (hkeep _ (Nat.le_refl _)).trans ih

/-- A stop leaves the registers where they are. -/
theorem stop_registers (s : Stub) : s.stop.registers = s.registers := by
  have henter : s.enter.registers = s.registers := by
    rw [Stub.enter]
    split_ifs <;> rfl
  rw [Stub.stop]
  split_ifs
  · exact henter
  · exact henter

/-- The registers are in the frame of `crt0.S` in every state reached. -/
theorem Reached.frame (h : Reached s) : s.registers = debugFrame := by
  induction h with
  | first s _ hframe => exact (stop_registers s).trans hframe
  | again mem _ ih => exact (stop_registers _).trans ih
  | packet _ _ ih => exact (execute_registers _).trans ih
  | behind _ _ _ ih => exact ih

/-- A packet with all its data that leaves the stub's own RAM alone has the same effect after every
history. -/
theorem alike_of_fresh (hs : Reached s) (hs' : Reached s') (hsame : Same s s') (hp : Plain p)
    (hlength : p.length < BUFMAX) (hout : Outside (content p)) (hfresh : Fresh p) :
    Alike p s s' := by
  intro d1 d2 answers hsum _
  obtain ⟨htwo, hdata⟩ := hfresh
  have hcells := fun {j} (h : Known p j) => fill_known hs.last hlength h
  have hcells' := fun {j} (h : Known p j) => fill_known hs'.last hlength h
  have hagree :
      Shares p.length (fill s.remcomInBuffer (p ++ [0])) (fill s'.remcomInBuffer (p ++ [0])) := by
    obtain ⟨hnul, hleft⟩ := shares_content s.remcomInBuffer p
    exact ⟨hnul, fun i hi => (hleft i hi).trans ((shares_content s'.remcomInBuffer p).2 i hi).symm⟩
  have hcopied : copied (s.deliver p).remcomInBuffer = copied (s'.deliver p).remcomInBuffer := by
    have hone : 1 ≤ p.length := Nat.le_of_succ_le htwo
    exact (copied_known (fun j => hcells) hlength hone (shares_content _ p) hdata).trans
      (copied_known (fun j => hcells') hlength hone (shares_content _ p) hdata).symm
  have hecho : Echo (s.deliver p).execute (s'.deliver p).execute := by
    have hdeliver : s'.deliver p = (s.deliver p).withRam (s'.deliver p).remcomInBuffer
        (s'.deliver p).remcomOutBuffer s'.mem := by
      have hrest := hsame.rest
      rw [hrest]
      rfl
    have hkept : Shares p.length (content p) (s.deliver p).remcomInBuffer := by
      obtain ⟨hnul, hleft⟩ := shares_content s.remcomInBuffer p
      exact ⟨(shares_content (fun _ => 0) p).1, fun i hi => (hleft i hi).symm⟩
    rw [hdeliver]
    exact echo_execute hagree htwo rfl rfl hcopied hs.frame hsame.mem
      (hout.shares hkept (Nat.le_of_succ_le htwo))
  have hid :
      sequenceId (s'.deliver p).remcomInBuffer = sequenceId (s.deliver p).remcomInBuffer := by
    have hcell : ∀ i ≤ 2, (s'.deliver p).remcomInBuffer i = (s.deliver p).remcomInBuffer i :=
      fun i hi => (hagree.2 i (Nat.le_trans hi htwo)).symm
    rw [sequenceId, sequenceId, hcell 0 (by decide), hcell 1 (by decide), hcell 2 (by decide)]
  obtain ⟨hio, hresult⟩ := finish_echo hecho answers
  rw [turn_frame s answers hp hlength hsum, turn_frame s' answers hp hlength hsum, hid,
    Outcome.behind_io, Outcome.behind_io, hio]
  exact ⟨rfl, hresult⟩

/-- A packet that does not fit has no effect. -/
theorem alike_of_dropped (hp : Plain p) (hlength : BUFMAX ≤ p.length) : Alike p s s' := by
  intro d1 d2 answers hsum hanswers
  rw [turn_dropped s hp hlength hsum hanswers, turn_dropped s' hp hlength hsum hanswers]
  exact ⟨rfl, .none⟩

end Enough

section Needed

variable {s s' : Stub} {p q : List Byte} {b b' : Nat → Byte} {pos count : Nat}

/-- A packet that is no command leaves the state as it is. -/
theorem execute_other (h : s.remcomInBuffer 0 = ascii '!') : s.execute = (s, .reply) := by
  simp only [Stub.execute, h]
  rfl

/-- The state after packets that are no commands, with these packet buffers. -/
def idle (b o : Nat → Byte) : Stub :=
  { Stub.boot (fun _ => 0) with
    remcomInBuffer := b
    remcomOutBuffer := o
    gdbConnected := true }

/-- It is the same with other packet buffers. -/
theorem same_idle {b b' o o' : Nat → Byte} : Same (idle b o) (idle b' o') :=
  ⟨fun _ _ => rfl, rfl⟩

/-- A history may end with a packet that is no command. -/
theorem reached_idle {input : List Byte} {buffer : Nat → Byte}
    (hget : (getPacket (fun _ => 0) input).result = some (buffer, []))
    (hhead : buffer 0 = ascii '!') : ∃ o, Reached (idle buffer o) := by
  have hboot : Reached (Stub.boot fun _ => 0) :=
    .first { Stub.boot (fun _ => 0) with scratchpad := 0 } rfl rfl
  have hpacket := hboot.packet hget
  rw [execute_other (s := (Stub.boot fun _ => 0).accept buffer) hhead] at hpacket
  exact ⟨_, hpacket⟩

/-- One short packet is left in the buffer. -/
theorem reached_short (hq : Plain q) (hlength : q.length < BUFMAX)
    (hhead : content q 0 = ascii '!') :
    ∃ o, Reached (idle (content q) o) := by
  have hget := getPacket_frame (fun _ => 0) [] (show ascii '$' ∉ [] by simp) hq hlength
    (checks_digits q).agrees
  exact reached_idle (congrArg Outcome.result hget) hhead

/-- Packets that are no commands can leave any character behind the first ones. -/
theorem reached_stale {c : Byte} (hstart : c ≠ ascii '$') (hend : c ≠ ascii '#') :
    ∃ b o, Reached (idle b o) ∧ b BUFMAX = 0 ∧ ∀ j, 2 < j → j ≠ BUFMAX → b j = c := by
  obtain ⟨q, hq, hall⟩ : ∃ q : List Byte, q.length + 1 = BUFMAX ∧ ∀ x ∈ q, x = c :=
    ⟨List.replicate 799 c, by rw [List.length_replicate]; rfl, fun x => List.eq_of_mem_replicate⟩
  have hequal : ∀ x ∈ q ++ [c], x = c := by
    intro x hx
    obtain hx | hx := List.mem_append.1 hx
    · exact hall x hx
    · exact List.mem_singleton.1 hx
  have hlong : Plain (q ++ [c]) :=
    ⟨fun h => hstart (hequal _ h).symm, fun h => hend (hequal _ h).symm⟩
  -- a packet of `BUFMAX` characters is dropped, but its characters stay
  have hfull := getPacketFrom_full (fun _ => 0) (frame (text "!!") (ascii '4') (ascii '2')) hlong hq
  have hget := getPacket_frame (fill (fun _ => 0) (q ++ [c, 0])) []
    (show ascii '$' ∉ [] by simp) (show Plain (text "!!") by decide) (by decide)
    (show Agrees (text "!!") (ascii '4') (ascii '2') by decide)
  rw [List.nil_append, List.append_nil, getPacket] at hget
  rw [hget] at hfull
  obtain ⟨o, hreached⟩ := reached_idle (congrArg Outcome.result
    (show getPacket (fun _ => 0) (ascii '$' :: _) = _ from
      congrArg (Outcome.behind · [_]) hfull)) rfl
  have hsplit : q ++ [c, 0] = (q ++ [c]) ++ [0] := by simp
  have hfilled : (q ++ [c]).length = BUFMAX := by rw [List.length_append, List.length_singleton, hq]
  have hcells : ∀ j, 2 < j → j < BUFMAX →
      fill (fill (fun _ => 0) (q ++ [c, 0])) (text "!!" ++ [0]) j = c := by
    intro j hj hroom
    have hinside : j < (q ++ [c]).length := hfilled ▸ hroom
    rw [fill_of_le hj, hsplit, fill_of_lt (Nat.lt_of_lt_of_le hinside (by simp)),
      List.getElem_append_left hinside]
    exact hequal _ (List.getElem_mem _)
  have hlast : fill (fill (fun _ => 0) (q ++ [c, 0])) (text "!!" ++ [0]) BUFMAX = 0 := by
    have hinside : (q ++ [c]).length ≤ BUFMAX := Nat.le_of_eq hfilled
    rw [fill_of_le (by decide), hsplit, fill_of_lt (by simp; omega),
      List.getElem_append_right hinside]
    simp
  refine ⟨_, o, hreached.behind (b := fun j => if j ≤ BUFMAX then _ else c)
    (fun j hj => if_pos hj) (fun _ _ => rfl), ?_, fun j hj hne => ?_⟩
  · exact (if_pos (Nat.le_refl _)).trans hlast
  · by_cases hinside : j ≤ BUFMAX
    · exact (if_pos hinside).trans (hcells j hj (by omega))
    · exact if_neg hinside

/-- A reply starts with the start character. -/
theorem finish_head (r : Stub × After) (answers : List Byte) :
    sent (Stub.finish r answers).io = [] ∨
      ∃ l, sent (Stub.finish r answers).io = ascii '$' :: l := by
  have hput : ∀ o, ∃ l, sent (putPacket o answers).io = ascii '$' :: l := by
    intro o
    cases answers with
    | nil => exact ⟨_, by rw [putPacket, sent_map_put]; rfl⟩
    | cons ch answers =>
        rw [putPacket]
        split_ifs
        · exact ⟨_, by rw [sent_append, sent_map_put]; rfl⟩
        · exact ⟨_, by rw [Outcome.behind_io, sent_append, sent_append, sent_map_put]; rfl⟩
  rw [Stub.finish]
  split_ifs
  · exact .inl rfl
  · refine .inr ?_
    obtain ⟨l, hl⟩ := hput r.1.remcomOutBuffer
    cases hresult : (putPacket r.1.remcomOutBuffer answers).result with
    | none => exact ⟨l, by simp only [Serial.bind, hresult, hl]⟩
    | some rest =>
        refine ⟨l, ?_⟩
        rw [Serial.bind_of_some hresult, Outcome.behind_io, sent_append, hl]
        exact List.append_nil _

/-- A packet without a third cell is answered from what an earlier one has left there. -/
theorem two_of_alike (hp : Plain p) (hlength : p.length < BUFMAX)
    (halike : ∀ s s', Reached s → Reached s' → Same s s' → Alike p s s') : 2 ≤ p.length := by
  by_contra hshort
  obtain ⟨o, hleft⟩ := reached_short (q := text "!!:") (by decide) (by decide) rfl
  obtain ⟨o', hright⟩ := reached_short (q := text "!!!") (by decide) (by decide) rfl
  have hsum := checks_digits p
  obtain ⟨hsent, -⟩ := halike _ _ hleft hright same_idle _ _ [] hsum (by simp)
  have hbehind : (p ++ [0]).length ≤ 2 := by
    rw [List.length_append, List.length_singleton]
    omega
  have hleftId : sequenceId ((idle (content (text "!!:")) o).deliver p).remcomInBuffer =
      [fill (content (text "!!:")) (p ++ [0]) 0, fill (content (text "!!:")) (p ++ [0]) 1] :=
    if_pos (fill_of_le hbehind)
  have hrightId :
      sequenceId ((idle (content (text "!!!")) o').deliver p).remcomInBuffer = [] := by
    refine if_neg ?_
    have hcell : ((idle (content (text "!!!")) o').deliver p).remcomInBuffer 2 =
        ascii '!' := fill_of_le hbehind
    rw [hcell]
    decide
  rw [turn_frame _ [] hp hlength hsum, turn_frame _ [] hp hlength hsum, hleftId, hrightId] at hsent
  simp only [Outcome.behind_io, sent_append, sent_map_got, List.nil_append, sent_put_cons,
    List.map_cons, List.map_nil, List.cons_append, List.cons.injEq, true_and] at hsent
  -- the first character of the packet is sent where no reply can have it
  have hfirst : fill (content (text "!!:")) (p ++ [0]) 0 ≠ ascii '$' := by
    rw [fill_of_lt (by simp)]
    intro heq
    have hmem := List.getElem_mem (l := p ++ [0]) (n := 0) (by simp)
    rw [heq] at hmem
    obtain hmem | hmem := List.mem_append.1 hmem
    · exact hp.1 hmem
    · exact absurd hmem (by decide)
  obtain hnone | ⟨l, hl⟩ := finish_head
      ((idle (content (text "!!!")) o').deliver p).execute []
  · rw [hnone] at hsent
    cases hsent
  · rw [hl] at hsent
    exact hfirst (List.cons.inj hsent).1

/-- An acknowledged reply ends the turn with the result of the command. -/
theorem finish_result (r : Stub × After) :
    ∃ rest, (Stub.finish r [ascii '+']).result = some (r, rest) := by
  rw [Stub.finish]
  split_ifs
  · exact ⟨_, rfl⟩
  · exact ⟨[], rfl⟩

/-- A packet that has the same effect in two states leaves the same state. -/
theorem Alike.same (h : Alike p s s') (hp : Plain p) (hlength : p.length < BUFMAX) :
    Same (s.deliver p).execute.1 (s'.deliver p).execute.1 := by
  obtain ⟨-, hresult⟩ := h _ _ [ascii '+'] (checks_digits p) (by decide)
  obtain ⟨rest, hrest⟩ := finish_result (s.deliver p).execute
  obtain ⟨rest', hrest'⟩ := finish_result (s'.deliver p).execute
  rw [turn_frame s _ hp hlength (checks_digits p), turn_frame s' _ hp hlength (checks_digits p),
    Outcome.behind_result, Outcome.behind_result, hrest, hrest'] at hresult
  cases hresult with
  | some hsame => exact hsame.1

/-- Digits that are the same behind two different characters come from the packet. -/
theorem hexKnown_of_eq (hstale : ∀ j, ¬ Known p j → b j = ascii '1' ∧ b' j = ascii '2')
    (h : hexBytes b pos count = hexBytes b' pos count) : HexKnown p pos count := by
  intro i hi
  by_contra hunknown
  have hpair := hexBytes_eq_iff.1 h i hi
  obtain ⟨hone, htwo⟩ := hstale _ hunknown
  have hdigit1 : BitVec.ofInt 8 (hex (ascii '1')) = 1 := by decide
  have hdigit2 : BitVec.ofInt 8 (hex (ascii '2')) = 2 := by decide
  rw [hexByte, hexByte, hone, htwo, hdigit1, hdigit2] at hpair
  -- the low digits differ in bit 0
  have hbit := congrArg (·.getLsbD 0) hpair
  simp at hbit

/-- The same for escaped data. -/
theorem binKnown_of_eq (hcells : ∀ j, Known p j → b j = content p j ∧ b' j = content p j)
    (hstale : ∀ j, ¬ Known p j → b j = ascii '1' ∧ b' j = ascii '2')
    (h : binBytes b pos count = binBytes b' pos count) : BinKnown p pos count := by
  induction count generalizing pos with
  | zero => trivial
  | succ count ih =>
      have hknown : Known p pos := by
        by_contra hunknown
        obtain ⟨hone, htwo⟩ := hstale pos hunknown
        have hplain1 : ascii '1' ≠ 0x7d := by decide
        have hplain2 : ascii '2' ≠ 0x7d := by decide
        rw [binBytes, binBytes, hone, htwo, if_neg hplain1, if_neg hplain2] at h
        exact absurd (List.cons.inj h).1 (by decide)
      obtain ⟨hleft, hright⟩ := hcells pos hknown
      refine ⟨hknown, ?_⟩
      rw [binBytes, binBytes, hleft, hright] at h
      by_cases hescape : content p pos = 0x7d
      · rw [if_pos hescape, if_pos hescape] at h
        rw [if_pos hescape]
        exact ih (List.cons.inj h).2
      · rw [if_neg hescape, if_neg hescape] at h
        rw [if_neg hescape]
        exact ih (List.cons.inj h).2

/-- A length that is copied is less than the size of the address space. -/
theorem length_fits (length : Word) : length.toInt.toNat ≤ Nat.pow 2 32 := by
  have hlt := BitVec.toInt_lt (x := length)
  have hpow : Nat.pow 2 32 = 4294967296 := by decide
  omega

section Memory

variable {addr length reg : Word} {ptr : Nat}

/-- What the commands that copy data leave in memory. -/
theorem setregs_mem (h : s.remcomInBuffer 0 = ascii 'G') :
    s.execute.1.mem = store s.mem s.registers (hexBytes s.remcomInBuffer 1 (NUM_REGS * 4)) := by
  rw [Stub.execute_setregs s h, setregs_store]
  rfl

theorem memWrite_mem (h : s.remcomInBuffer 0 = ascii 'M')
    (hargs : writeArgs s.remcomInBuffer = some (addr, length, ptr)) :
    s.execute.1.mem = store s.mem addr (hexBytes s.remcomInBuffer ptr length.toInt.toNat) := by
  rw [Stub.execute_memWrite s h, memWrite_store false hargs]
  rfl

theorem memWriteBinary_mem (h : s.remcomInBuffer 0 = ascii 'X')
    (hargs : writeArgs s.remcomInBuffer = some (addr, length, ptr)) :
    s.execute.1.mem = store s.mem addr (binBytes s.remcomInBuffer ptr length.toInt.toNat) := by
  rw [Stub.execute_memWriteBinary s h, memWrite_store true hargs]
  rfl

theorem regSet_mem (h : s.remcomInBuffer 0 = ascii 'P')
    (hargs : setArgs s.remcomInBuffer = some (reg, ptr)) :
    s.execute.1.mem = store s.mem (s.regAddr reg) (hexBytes s.remcomInBuffer ptr 4) := by
  rw [Stub.execute_regSet s h, regSet_store hargs]
  rfl

end Memory

/-- If two states with different old characters stay the same, the packet has all its data. -/
theorem dataKnown_of_same (h : Same (s.deliver p).execute.1 (s'.deliver p).execute.1)
    (hlength : p.length < BUFMAX) (hone : 1 ≤ p.length) (hout : Outside (content p))
    (hframe : s.registers = debugFrame) (hframe' : s'.registers = debugFrame)
    (hlast : s.remcomInBuffer BUFMAX = 0) (hlast' : s'.remcomInBuffer BUFMAX = 0)
    (hstale : ∀ j, ¬ Known p j → s.remcomInBuffer j = ascii '1' ∧ s'.remcomInBuffer j = ascii '2') :
    DataKnown p := by
  have hcells : ∀ j, Known p j →
      (s.deliver p).remcomInBuffer j = content p j ∧
        (s'.deliver p).remcomInBuffer j = content p j :=
    fun j hj => ⟨fill_known hlast hlength hj, fill_known hlast' hlength hj⟩
  have hold : ∀ j, ¬ Known p j →
      (s.deliver p).remcomInBuffer j = ascii '1' ∧ (s'.deliver p).remcomInBuffer j = ascii '2' := by
    intro j hj
    have hbehind : (p ++ [0]).length ≤ j := by
      rw [List.length_append, List.length_singleton]
      exact Nat.lt_of_not_le fun hle => hj (.inl hle)
    obtain ⟨hleft, hright⟩ := hstale j hj
    exact ⟨(fill_of_le hbehind).trans hleft, (fill_of_le hbehind).trans hright⟩
  obtain ⟨hhead, hhead'⟩ := hcells 0 (.inl (Nat.zero_le _))
  have hwrite : ∀ {s : Stub} {r}, writeArgs (content p) = some r →
      writeArgs (s.deliver p).remcomInBuffer = some r :=
    fun {s _} h => (writeArgs_shares (shares_content s.remcomInBuffer p) hone).trans h
  have hset : ∀ {s : Stub} {r}, setArgs (content p) = some r →
      setArgs (s.deliver p).remcomInBuffer = some r :=
    fun {s _} h => (setArgs_shares (shares_content s.remcomInBuffer p) hone).trans h
  -- what is stored outside the stub's own RAM can be compared
  have hstored : ∀ {addr : Word} {count : Nat} {l l' : List Byte}, l.length = count →
      l'.length = count → count ≤ Nat.pow 2 32 → (∀ a, Covers addr count a → ¬ Own a) →
      (s.deliver p).execute.1.mem = store s.mem addr l →
      (s'.deliver p).execute.1.mem = store s'.mem addr l' → l = l' := by
    rintro addr _ l l' rfl hsize hfits hregion hleft hright
    have hsame : ∀ a, Covers addr l.length a → store s.mem addr l a = store s'.mem addr l' a := by
      intro a ha
      rw [← hleft, ← hright]
      exact h.mem a (hregion a ha)
    exact store_inj hsize.symm hfits hsame
  constructor
  · intro hG
    have hrun := setregs_mem (hhead.trans hG)
    have hrun' := setregs_mem (hhead'.trans hG)
    rw [Stub.deliver_registers, hframe] at hrun
    rw [Stub.deliver_registers, hframe'] at hrun'
    exact hexKnown_of_eq hold (hstored hexBytes_length hexBytes_length (by decide)
      (fun _ ha => frame_outside ha) hrun hrun')
  · intro hM addr length ptr hargs
    exact hexKnown_of_eq hold (hstored hexBytes_length hexBytes_length (length_fits length)
      (hout.memWrite (.inl hM) _ hargs) (memWrite_mem (hhead.trans hM) (hwrite hargs))
      (memWrite_mem (hhead'.trans hM) (hwrite hargs)))
  · intro hX addr length ptr hargs
    exact binKnown_of_eq hcells hold (hstored binBytes_length binBytes_length (length_fits length)
      (hout.memWrite (.inr hX) _ hargs) (memWriteBinary_mem (hhead.trans hX) (hwrite hargs))
      (memWriteBinary_mem (hhead'.trans hX) (hwrite hargs)))
  · intro hP reg ptr hargs
    have hrun := regSet_mem (hhead.trans hP) (hset hargs)
    have hrun' := regSet_mem (hhead'.trans hP) (hset hargs)
    rw [Stub.deliver_regAddr, Stub.regAddr, hframe] at hrun
    rw [Stub.deliver_regAddr, Stub.regAddr, hframe'] at hrun'
    exact hexKnown_of_eq hold (hstored hexBytes_length hexBytes_length (by decide)
      (hout.regSet hP _ hargs) hrun hrun')

end Needed

/-- A packet that leaves the stub's own RAM alone has the same effect after all histories that leave
the same state if it does not fit or has all its data, and only then. -/
theorem alike_iff {p : List Byte} (hp : Plain p) (hout : Outside (content p)) :
    (∀ s s', Reached s → Reached s' → Same s s' → Alike p s s') ↔ BUFMAX ≤ p.length ∨ Fresh p := by
  constructor
  · intro halike
    by_cases hlength : p.length < BUFMAX
    · have htwo := two_of_alike hp hlength halike
      obtain ⟨b, o, hs, hlast, hstale⟩ := reached_stale (c := ascii '1') (by decide) (by decide)
      obtain ⟨b', o', hs', hlast', hstale'⟩ :=
        reached_stale (c := ascii '2') (by decide) (by decide)
      have hsame := (halike _ _ hs hs' same_idle).same hp hlength
      refine .inr ⟨htwo, dataKnown_of_same hsame hlength (Nat.le_of_succ_le htwo) hout rfl rfl hlast
        hlast' fun j hj => ?_⟩
      have hbehind : 2 < j := Nat.lt_of_le_of_lt htwo (Nat.lt_of_not_le fun h => hj (.inl h))
      have hne : j ≠ BUFMAX := fun h => hj (.inr h)
      exact ⟨hstale j hbehind hne, hstale' j hbehind hne⟩
    · exact .inl (Nat.le_of_not_lt hlength)
  · rintro (hdropped | hfresh) s s' hs hs' hsame
    · exact alike_of_dropped hp hdropped
    · by_cases hlength : p.length < BUFMAX
      · exact alike_of_fresh hs hs' hsame hp hlength hout hfresh
      · exact alike_of_dropped hp (Nat.le_of_not_lt hlength)

/-- A packet that reads a register copies nothing. -/
theorem fresh_read : Fresh (text "p1") := by
  refine ⟨by decide, ?_⟩
  constructor <;> exact fun h => absurd h (by decide)

/-- It leaves the stub's own RAM alone. -/
theorem outside_read : Outside (content (text "p1")) where
  memRead h := absurd h (by decide)
  memWrite h := absurd h (by decide)
  regGet _ r hr a ha := by
    have hreg : hexArg (content (text "p1")) 1 = some (1, 2) := by decide
    cases hreg.symm.trans hr
    exact frame_outside (regSlot_in_frame (n := 1) (by decide) ha)
  regSet h := absurd h (by decide)

/-- It has the same effect after every history. -/
theorem alike_iff_read : Fresh (text "p1") ∧
    ∀ s s', Reached s → Reached s' → Same s s' → Alike (text "p1") s s' :=
  ⟨fresh_read, (alike_iff (p := text "p1") (by decide) outside_read).2 (.inr fresh_read)⟩

/-- The status is answered differently after `!!:`. -/
theorem stale_sequence_id :
    ¬ ∀ s s', Reached s → Reached s' → Same s s' → Alike (text "?") s s' := fun h =>
  absurd (two_of_alike (p := text "?") (by decide) (by decide) h) (by decide)

end Soc.Gdbstub
