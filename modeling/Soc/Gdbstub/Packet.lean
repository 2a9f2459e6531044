import Mathlib.Tactic.SplitIfs
import Soc.Gdbstub.Command

/-!
# Packets on the serial line

`get_packet` and `put_packet` of `gdbstub.c` as functions of the characters still to come.
A call that runs out of characters waits for more, and is told apart from one that returns.
The characters exchanged are recorded in order.
-/

namespace Soc.Gdbstub

/-- A character the stub received with `get_debug_char` or sent with `put_debug_char`. -/
inductive Io where
  | got (c : Byte)
  | put (c : Byte)
  deriving DecidableEq

/-- What became of code that talks on the serial line: the characters it exchanged, and the value it
returned with the characters still to come, unless it waits for more of them. -/
structure Outcome (α : Type) where
  io : List Io
  result : Option (α × List Byte)

/-- The same after other characters were exchanged. -/
def Outcome.behind {α : Type} (r : Outcome α) (io : List Io) : Outcome α where
  io := io ++ r.io
  result := r.result

/-- Code that talks on the serial line, as a function of the characters to come. -/
abbrev Serial (α : Type) := List Byte → Outcome α

namespace Serial

variable {α β : Type}

/-- Return without a character. -/
def done (a : α) : Serial α := fun input => ⟨[], some (a, input)⟩

/-- One piece of code after another. -/
def bind (x : Serial α) (f : α → Serial β) : Serial β := fun input =>
  match (x input).result with
  | none => ⟨(x input).io, none⟩
  | some (a, rest) => (f a rest).behind (x input).io

/-- If both pieces of code return, so does the whole. -/
theorem bind_of_some {x : Serial α} {f : α → Serial β} {input mid : List Byte} {a : α}
    (h : (x input).result = some (a, mid)) :
    x.bind f input = (f a mid).behind (x input).io := by
  simp only [bind, h]

/-- If the whole returns, so did the first piece of code. -/
theorem some_of_bind {x : Serial α} {f : α → Serial β} {input : List Byte} {r : β × List Byte}
    (h : (x.bind f input).result = some r) : ∃ a mid, (x input).result = some (a, mid) := by
  cases hx : (x input).result with
  | none => simp [bind, hx] at h
  | some result => exact ⟨result.1, result.2, rfl⟩

end Serial

/-- Where `get_packet` stands while it waits for a character. -/
inductive Scan where
  /-- Looking for the start character. -/
  | hunt
  /-- Between `$` and `#`, with `checksum` and `count`. -/
  | data (checksum : Byte) (count : Nat)
  /-- At the first digit of the checksum. -/
  | high (checksum : Byte)
  /-- At the second digit, with `xmitcsum`. -/
  | low (checksum xmitcsum : Byte)

/-- The loop of `get_packet`, and the buffer it returns with. `buffer[count]` is cleared when `#` or
the end of the buffer is reached. -/
def getPacketFrom (buffer : Nat → Byte) (scan : Scan) : Serial (Nat → Byte)
  | [] => ⟨[], none⟩
  | ch :: input =>
      match scan with
      | .hunt =>
          (getPacketFrom buffer (if ch = ascii '$' then .data 0 0 else .hunt) input).behind
            [.got ch]
      | .data checksum count =>
          if ch = ascii '$' then (getPacketFrom buffer (.data 0 0) input).behind [.got ch]
          else if ch = ascii '#' then
            (getPacketFrom (Function.update buffer count 0) (.high checksum) input).behind [.got ch]
          else
            let buffer := Function.update buffer count ch
            if count + 1 < BUFMAX then
              (getPacketFrom buffer (.data (checksum + ch) (count + 1)) input).behind [.got ch]
            else
              (getPacketFrom (Function.update buffer (count + 1) 0) .hunt input).behind [.got ch]
      | .high checksum =>
          (getPacketFrom buffer (.low checksum (BitVec.ofInt 8 (hex ch) <<< 4)) input).behind
            [.got ch]
      | .low checksum xmitcsum =>
          if checksum ≠ xmitcsum + .ofInt 8 (hex ch) then
            (getPacketFrom buffer .hunt input).behind [.got ch, .put (ascii '-')]
          else if buffer 2 = ascii ':' then
            ⟨[.got ch, .put (ascii '+'), .put (buffer 0), .put (buffer 1)], some (buffer, input)⟩
          else ⟨[.got ch, .put (ascii '+')], some (buffer, input)⟩

/-- `get_packet`. Its callers ignore the pointer it returns. -/
def getPacket (buffer : Nat → Byte) : Serial (Nat → Byte) :=
  getPacketFrom buffer .hunt

/-- The string at the start of a buffer, of at most `fuel` characters. -/
def cString (buffer : Nat → Byte) (pos : Nat) : Nat → List Byte
  | 0 => []
  | fuel + 1 => if buffer pos = 0 then [] else buffer pos :: cString buffer (pos + 1) fuel

/-- The characters `put_packet` sends for one attempt. -/
def packetChars (buffer : Nat → Byte) : List Byte :=
  let data := cString buffer 0 (BUFMAX + 1)
  let checksum := data.foldl (· + ·) 0
  ascii '$' :: data ++ [ascii '#', highhex checksum, lowhex checksum]

/-- `put_packet`: send until the answer is `+`. -/
def putPacket (buffer : Nat → Byte) : Serial Unit
  | [] => ⟨(packetChars buffer).map .put, none⟩
  | ch :: input =>
      if ch = ascii '+' then
        ⟨(packetChars buffer).map .put ++ [.got ch], some ((), input)⟩
      else (putPacket buffer input).behind ((packetChars buffer).map .put ++ [.got ch])

/-- The exchange contains a character the stub sent. -/
def Speaks (io : List Io) : Prop := ∃ c, Io.put c ∈ io

/-- The exchange contains a character the stub sent, as a computation. -/
def speaks (io : List Io) : Bool :=
  io.any fun | .put _ => true | .got _ => false

instance (io : List Io) : Decidable (Speaks io) :=
  decidable_of_iff (speaks io = true) (by
    simp only [speaks, List.any_eq_true, Speaks]
    constructor
    · rintro ⟨x, hx, hput⟩
      cases x with
      | put c => exact ⟨c, hx⟩
      | got c => cases hput
    · rintro ⟨c, hc⟩
      exact ⟨.put c, hc, rfl⟩)

/-- A received character does not count. -/
@[simp] theorem speaks_got (c : Byte) (io : List Io) : Speaks (.got c :: io) ↔ Speaks io := by
  simp [Speaks]

/-- What was exchanged before does not matter. -/
theorem Speaks.behind {α : Type} {r : Outcome α} (h : Speaks r.io) (io : List Io) :
    Speaks (r.behind io).io :=
  h.imp fun _ hc => List.mem_append_right io hc

/-- A call of `get_packet` that returns has sent a character. -/
theorem getPacketFrom_speaks {buffer : Nat → Byte} {scan : Scan} {input : List Byte}
    {r : (Nat → Byte) × List Byte} (h : (getPacketFrom buffer scan input).result = some r) :
    Speaks (getPacketFrom buffer scan input).io := by
  induction input generalizing buffer scan with
  | nil => cases h
  | cons ch input ih =>
      cases scan with
      | hunt => exact (ih h).behind _
      | data checksum count =>
          simp only [getPacketFrom] at h ⊢
          split_ifs at h ⊢ <;> exact (ih h).behind _
      | high checksum => exact (ih h).behind _
      | low checksum xmitcsum =>
          simp only [getPacketFrom] at h ⊢
          split_ifs at h ⊢
          · exact (ih h).behind _
          -- it returns only after it has sent `+`
          · exact ⟨ascii '+', by simp⟩
          · exact ⟨ascii '+', by simp⟩

/-- A call of `get_packet` that returns has taken a character. -/
theorem getPacketFrom_length {buffer : Nat → Byte} {scan : Scan} {input : List Byte}
    {r : (Nat → Byte) × List Byte} (h : (getPacketFrom buffer scan input).result = some r) :
    r.2.length < input.length := by
  induction input generalizing buffer scan with
  | nil => cases h
  | cons ch input ih =>
      have hlonger : ∀ {buffer scan}, (getPacketFrom buffer scan input).result = some r →
          r.2.length < (ch :: input).length := fun h => Nat.lt_succ_of_lt (ih h)
      cases scan with
      | hunt => exact hlonger h
      | data checksum count =>
          simp only [getPacketFrom] at h
          split_ifs at h <;> exact hlonger h
      | high checksum => exact hlonger h
      | low checksum xmitcsum =>
          simp only [getPacketFrom] at h
          split_ifs at h
          · exact hlonger h
          · cases h
            exact Nat.lt_succ_self _
          · cases h
            exact Nat.lt_succ_self _

end Soc.Gdbstub
