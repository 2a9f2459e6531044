import Soc.Gdbstub.Exception
import Soc.Gdbstub.Hex

/-!
# Packets delivered to the commands

What `get_packet` hands to the commands: a string of fewer than `BUFMAX` characters over the
old content of the buffer. A frame and an acknowledgement make one turn of the loop of
`handle_exception`. A longer frame is dropped, so a packet is answered only if it is shorter.
-/

namespace Soc.Gdbstub

/-- The last cell of the packet buffer stays NUL. -/
theorem getPacketFrom_last {scan : Scan} {buffer buffer' : Nat → Byte} {input rest : List Byte}
    (hscan : ∀ checksum count, scan = .data checksum count → count < BUFMAX)
    (hlast : buffer BUFMAX = 0)
    (h : (getPacketFrom buffer scan input).result = some (buffer', rest)) :
    buffer' BUFMAX = 0 := by
  have hnul : ∀ {b : Nat → Byte} {i : Nat}, b BUFMAX = 0 → Function.update b i 0 BUFMAX = 0 := by
    intro b i hb
    by_cases hi : BUFMAX = i
    · rw [hi, Function.update_self]
    · rw [Function.update_of_ne hi, hb]
  have hkeep : ∀ {b : Nat → Byte} {i : Nat} {c : Byte}, i < BUFMAX → b BUFMAX = 0 →
      Function.update b i c BUFMAX = 0 := by
    intro b i c hi hb
    rw [Function.update_of_ne (Nat.ne_of_gt hi), hb]
  induction input generalizing scan buffer with
  | nil => cases h
  | cons ch input ih =>
      cases scan with
      | hunt =>
          refine ih (fun checksum count heq => ?_) hlast h
          split_ifs at heq
          cases heq
          decide
      | data checksum count =>
          have hcount := hscan checksum count rfl
          simp only [getPacketFrom] at h
          split_ifs at h with hstart hend hroom
          · refine ih ?_ hlast h
            rintro _ _ ⟨⟩
            decide
          · exact ih (by simp) (hnul hlast) h
          · refine ih ?_ (hkeep hcount hlast) h
            rintro _ _ ⟨⟩
            exact hroom
          · exact ih (by simp) (hnul (hkeep hcount hlast)) h
      | high checksum => exact ih (by simp) hlast h
      | low checksum xmitcsum =>
          simp only [getPacketFrom] at h
          split_ifs at h
          · exact ih (by simp) hlast h
          · cases h
            exact hlast
          · cases h
            exact hlast

/-- The last cell of the packet buffer, cleared by `clear_bss`, stays NUL. -/
theorem getPacket_last {buffer buffer' : Nat → Byte} {input rest : List Byte}
    (hlast : buffer BUFMAX = 0) (h : (getPacket buffer input).result = some (buffer', rest)) :
    buffer' BUFMAX = 0 :=
  getPacketFrom_last (by simp) hlast h

/-- Every packet has checksum digits. -/
theorem checks_digits (p : List Byte) :
    Checks p (highhex (checksumOf p)) (lowhex (checksumOf p)) := by
  have hsum : (checksumOf p).toNat = charSum p % 256 := BitVec.toNat_ofNat _ _
  rw [Checks, hex_highhex, hex_lowhex, hsum]
  omega

/-- The frame of a reply. -/
def replyFrame (reply : List Byte) : List Byte :=
  frame reply (highhex (checksumOf reply)) (lowhex (checksumOf reply))

/-- The sum `put_packet` computes. -/
theorem foldl_checksum (c : Byte) (p : List Byte) :
    p.foldl (· + ·) c = c + checksumOf p := by
  induction p generalizing c with
  | nil => simp [checksumOf]
  | cons ch p ih =>
      rw [List.foldl_cons, ih, BitVec.add_assoc]
      congr 1
      apply BitVec.eq_of_toNat_eq
      simp [checksumOf]

/-- Where `crt0.S` saves the registers, at the top of the stub's own RAM. -/
def debugFrame : Word := 0x10001f60

namespace Stub

/-- The stub after `clear_bss`, entered with the registers in the frame of `crt0.S`. -/
def boot (mem : Word → Byte) : Stub where
  remcomInBuffer := fun _ => 0
  remcomOutBuffer := fun _ => 0
  bpAddress := fun _ => 0
  wpAddress := fun _ => 0
  bpwpEnabled := 0
  gdbConnected := false
  dc := 0
  cfg := 0x01100000
  debug := ⟨fun _ => 0, fun _ => false, fun _ => 0, fun _ => 0, false⟩
  written := fun _ => none
  mem := mem
  registers := debugFrame
  scratchpad := 1

/-- The packet `p` was received over what the buffer held before. -/
def deliver (s : Stub) (p : List Byte) : Stub :=
  s.accept (fill s.remcomInBuffer (p ++ [0]))

variable {s : Stub} {p : List Byte}

/-- The packet is at the start of the buffer. -/
theorem deliver_reads (s : Stub) (p : List Byte) :
    Reads (s.deliver p).remcomInBuffer 0 (p ++ [0]) :=
  reads_fill _ _

@[simp] theorem deliver_mem : (s.deliver p).mem = s.mem := rfl

@[simp] theorem deliver_registers : (s.deliver p).registers = s.registers := rfl

@[simp] theorem deliver_regAddr (reg : Word) : (s.deliver p).regAddr reg = s.regAddr reg := rfl

/-- The string in the reply buffer. -/
def replyText (s : Stub) : List Byte :=
  cString s.remcomOutBuffer 0 (BUFMAX + 1)

/-- A frame and the acknowledgement of the reply are one turn of the loop. -/
theorem serve_turn {d1 d2 : Byte} (fuel : Nat) (rest : List Byte) (hp : Plain p)
    (hlength : p.length < BUFMAX) (hsum : Checks p d1 d2)
    (hafter : (s.deliver p).execute.2 = .reply) :
    serve (fuel + 1) s (frame p d1 d2 ++ ascii '+' :: rest) =
      (serve fuel (s.deliver p).execute.1 rest).behind
        ((frame p d1 d2).map .got ++
          .put (ascii '+') :: (sequenceId (s.deliver p).remcomInBuffer).map .put ++
          (packetChars (s.deliver p).execute.1.remcomOutBuffer).map .put ++
          [.got (ascii '+')]) := by
  have hget := getPacket_frame s.remcomInBuffer (ascii '+' :: rest)
    (show ascii '$' ∉ [] by simp) hp hlength hsum.agrees
  rw [List.nil_append] at hget
  rw [serve, Serial.bind_of_some (by rw [hget]), hget]
  have hexecute : (s.accept (fill s.remcomInBuffer (p ++ [0]))).execute =
      ((s.deliver p).execute.1, .reply) := Prod.ext rfl hafter
  simp only [hexecute]
  have hput : putPacket (s.deliver p).execute.1.remcomOutBuffer (ascii '+' :: rest) =
      ⟨(packetChars (s.deliver p).execute.1.remcomOutBuffer).map .put ++ [.got (ascii '+')],
        some ((), rest)⟩ := if_pos rfl
  rw [Serial.bind_of_some (by rw [hput]), hput, Outcome.behind_behind,
    ← List.append_assoc]
  rfl

/-- `put_packet` sends the frame of the string in its buffer. -/
theorem packetChars_eq (s : Stub) : packetChars s.remcomOutBuffer = replyFrame s.replyText := by
  have hsum := (foldl_checksum 0 s.replyText).trans (BitVec.zero_add _)
  rw [packetChars, ← replyText, hsum]
  rfl

/-- The loop of `handle_exception` takes the packet `p`, sends `+`, a sequence id if it finds one,
and the frame of `reply`, and once this is acknowledged it goes on with `s'`. -/
def Answers (s : Stub) (p reply : List Byte) (s' : Stub) : Prop :=
  ∀ d1 d2 fuel rest, Checks p d1 d2 →
    serve (fuel + 1) s (frame p d1 d2 ++ ascii '+' :: rest) =
      (serve fuel s' rest).behind
        ((frame p d1 d2).map .got ++
          .put (ascii '+') :: (sequenceId (s.deliver p).remcomInBuffer).map .put ++
          (replyFrame reply).map .put ++ [.got (ascii '+')])

/-- A packet that fits is answered with the reply of its command. -/
theorem answers_execute (hp : Plain p) (hlength : p.length < BUFMAX)
    (hafter : (s.deliver p).execute.2 = .reply) :
    s.Answers p (s.deliver p).execute.1.replyText (s.deliver p).execute.1 := by
  intro d1 d2 fuel rest hsum
  rw [serve_turn fuel rest hp hlength hsum hafter, packetChars_eq]

section Answers

variable {reply reply' : List Byte} {s' s'' : Stub}

/-- What is exchanged while one packet is answered and no other follows. -/
theorem Answers.io (h : s.Answers p reply s') :
    (serve 1 s (frame p (highhex (checksumOf p)) (lowhex (checksumOf p)) ++ [ascii '+'])).io =
      (frame p (highhex (checksumOf p)) (lowhex (checksumOf p))).map .got ++
        .put (ascii '+') :: (sequenceId (s.deliver p).remcomInBuffer).map .put ++
        (replyFrame reply).map .put ++ [.got (ascii '+')] := by
  rw [h _ _ 0 [] (checks_digits p), Outcome.behind_io]
  exact List.append_nil _

/-- A packet that does not fit is not answered. -/
theorem Answers.length_lt (h : s.Answers p reply s') (hp : Plain p) : p.length < BUFMAX := by
  by_contra hlong
  obtain ⟨buffer', hdropped⟩ := getPacket_dropped s.remcomInBuffer [ascii '+']
    (show ascii '$' ∉ [] by simp) hp (Nat.le_of_not_lt hlong) (checks_digits p)
  rw [List.nil_append] at hdropped
  have hwaits : getPacketFrom buffer' .hunt [ascii '+'] = ⟨[.got (ascii '+')], none⟩ := rfl
  have hio := h.io
  simp only [serve, Serial.bind, hdropped, hwaits, Outcome.behind, List.append_assoc] at hio
  -- `+` would have to come before GDB sends the next character
  have hfirst := (List.cons.inj (List.append_cancel_left hio)).1
  cases hfirst

/-- A packet has one reply. -/
theorem Answers.reply_unique (h : s.Answers p reply s') (h' : s.Answers p reply' s'') :
    reply = reply' := by
  have hio := h.io.symm.trans h'.io
  have hframes := List.append_cancel_left (List.append_cancel_right hio)
  have hsame : replyFrame reply = replyFrame reply' :=
    (List.map_inj_right fun _ _ hput => Io.put.inj hput).1 hframes
  rw [replyFrame, replyFrame, frame, frame] at hsame
  have hrest := (List.cons.inj hsame).2
  have hlength := congrArg List.length hrest
  simp only [List.append_eq, List.length_append, List.length_cons, List.length_nil] at hlength
  exact (List.append_inj hrest (by omega)).1

end Answers

section Execute

variable (s : Stub)

/-- The commands of the `switch` that store into the registers or memory, or read them. -/
theorem execute_getregs (h : s.remcomInBuffer 0 = ascii 'g') :
    s.execute = (s.cmdGetregs, .reply) := by
  simp only [execute, h]
  rfl

theorem execute_setregs (h : s.remcomInBuffer 0 = ascii 'G') :
    s.execute = (s.cmdSetregs, .reply) := by
  simp only [execute, h]
  rfl

theorem execute_memRead (h : s.remcomInBuffer 0 = ascii 'm') :
    s.execute = (s.cmdMemRead, .reply) := by
  simp only [execute, h]
  rfl

theorem execute_memWrite (h : s.remcomInBuffer 0 = ascii 'M') :
    s.execute = (s.cmdMemWrite false, .reply) := by
  simp only [execute, h]
  rfl

theorem execute_memWriteBinary (h : s.remcomInBuffer 0 = ascii 'X') :
    s.execute = (s.cmdMemWrite true, .reply) := by
  simp only [execute, h]
  rfl

theorem execute_regGet (h : s.remcomInBuffer 0 = ascii 'p') :
    s.execute = (s.cmdRegGet, .reply) := by
  simp only [execute, h]
  rfl

theorem execute_regSet (h : s.remcomInBuffer 0 = ascii 'P') :
    s.execute = (s.cmdRegSet, .reply) := by
  simp only [execute, h]
  rfl

end Execute

end Stub

end Soc.Gdbstub
