import Soc.Gdbstub.Packet

/-!
# Frames on the serial line

What `get_packet` makes of a stream, against a reader without a limit on the length of a
packet. The decoder takes every correct frame of fewer than `BUFMAX` characters. One of
`BUFMAX` characters is dropped without an answer, because the loop ends before it sees the
`#`. A checksum character that is no digit counts as -1, so a few wrong frames are taken.
-/

namespace Soc.Gdbstub

/-- The characters of a packet with its checksum digits. -/
def frame (p : List Byte) (d1 d2 : Byte) : List Byte :=
  ascii '$' :: p ++ [ascii '#', d1, d2]

/-- The sum of the characters of a packet. -/
def charSum : List Byte → Nat
  | [] => 0
  | ch :: p => ch.toNat + charSum p

/-- The buffer holds the characters of `p` followed by NUL. -/
def Holds (buffer : Nat → Byte) (p : List Byte) : Prop :=
  (List.range (p.length + 1)).map buffer = p ++ [0]

/-- The characters can be the data of a frame. -/
def Plain (p : List Byte) : Prop := ascii '$' ∉ p ∧ ascii '#' ∉ p

/-- Both checksum characters are digits, and they give the sum of the packet modulo 256. -/
def Checks (p : List Byte) (d1 d2 : Byte) : Prop :=
  0 ≤ hex d1 ∧ 0 ≤ hex d2 ∧ 16 * hex d1 + hex d2 = (charSum p % 256 : Nat)

/-- The sum agrees with the digits modulo 256 when a character that is no digit counts as -1. -/
def Agrees (p : List Byte) (d1 d2 : Byte) : Prop :=
  (16 * hex d1 + hex d2) % 256 = (charSum p % 256 : Nat)

instance (p : List Byte) : Decidable (Plain p) :=
  inferInstanceAs (Decidable (_ ∧ _))

instance (p : List Byte) (d1 d2 : Byte) : Decidable (Checks p d1 d2) :=
  inferInstanceAs (Decidable (_ ∧ _ ∧ _))

instance (p : List Byte) (d1 d2 : Byte) : Decidable (Agrees p d1 d2) :=
  inferInstanceAs (Decidable (_ = _))

/-- The characters of data one by one. -/
theorem plain_cons {ch : Byte} {p : List Byte} :
    Plain (ch :: p) ↔ (ascii '$' ≠ ch ∧ ascii '#' ≠ ch) ∧ Plain p := by
  simp only [Plain, List.mem_cons, not_or]
  exact and_and_and_comm

theorem plain_append {p q : List Byte} : Plain (p ++ q) ↔ Plain p ∧ Plain q := by
  simp only [Plain, List.mem_append, not_or]
  exact and_and_and_comm

/-- A digit has a value from 0 to 15, any other character -1. -/
theorem hex_range (ch : Byte) : -1 ≤ hex ch ∧ hex ch < 16 := by
  have ha : (ascii 'a').toNat = 97 := rfl
  have hf : (ascii 'f').toNat = 102 := rfl
  have h0 : (ascii '0').toNat = 48 := rfl
  have h9 : (ascii '9').toNat = 57 := rfl
  have hA : (ascii 'A').toNat = 65 := rfl
  have hF : (ascii 'F').toNat = 70 := rfl
  simp only [hex, BitVec.le_def]
  split_ifs <;> omega

/-- A correct checksum agrees. -/
theorem Checks.agrees {p : List Byte} {d1 d2 : Byte} (h : Checks p d1 d2) : Agrees p d1 d2 := by
  obtain ⟨_, _, hsum⟩ := h
  rw [Agrees, hsum]
  omega

/-- If both characters are digits, a checksum that agrees is correct. -/
theorem Agrees.checks {p : List Byte} {d1 d2 : Byte} (h : Agrees p d1 d2) (h1 : 0 ≤ hex d1)
    (h2 : 0 ≤ hex d2) : Checks p d1 d2 := by
  refine ⟨h1, h2, ?_⟩
  rw [← h]
  have := (hex_range d1).2
  have := (hex_range d2).2
  omega

@[simp] theorem charSum_nil : charSum [] = 0 := rfl

@[simp] theorem charSum_cons (ch : Byte) (p : List Byte) :
    charSum (ch :: p) = ch.toNat + charSum p := rfl

@[simp] theorem charSum_append (p q : List Byte) : charSum (p ++ q) = charSum p + charSum q := by
  induction p with
  | nil => simp
  | cons ch p ih => rw [List.cons_append, charSum_cons, ih, charSum_cons, Nat.add_assoc]

/-- The variable `checksum` after the characters of a packet. -/
def checksumOf (p : List Byte) : Byte := .ofNat 8 (charSum p)

@[simp] theorem checksumOf_append (p : List Byte) (ch : Byte) :
    checksumOf (p ++ [ch]) = checksumOf p + ch := by
  apply BitVec.eq_of_toNat_eq
  simp [checksumOf]

/-- The comparison of `get_packet` is about the digits modulo 256. -/
theorem checksumOf_eq_iff (p : List Byte) (d1 d2 : Byte) :
    checksumOf p = BitVec.ofInt 8 (hex d1) <<< 4 + BitVec.ofInt 8 (hex d2) ↔ Agrees p d1 d2 := by
  have h1 := hex_range d1
  have h2 := hex_range d2
  rw [checksumOf, Agrees, ← BitVec.toNat_inj]
  simp [BitVec.toNat_ofInt, Nat.shiftLeft_eq]
  omega

/-- The buffer after the characters of `p` were stored from its start. -/
def fill (buffer : Nat → Byte) (p : List Byte) (i : Nat) : Byte :=
  p.getD i (buffer i)

@[simp] theorem fill_nil (buffer : Nat → Byte) : fill buffer [] = buffer := rfl

/-- Storing one more character. -/
theorem fill_append (buffer : Nat → Byte) (p : List Byte) (ch : Byte) :
    fill buffer (p ++ [ch]) = Function.update (fill buffer p) p.length ch := by
  funext i
  rcases Nat.lt_trichotomy i p.length with hlt | rfl | hgt
  · rw [Function.update_of_ne (Nat.ne_of_lt hlt)]
    simp [fill, List.getElem?_append_left hlt]
  · simp [fill]
  · rw [Function.update_of_ne (Nat.ne_of_gt hgt)]
    simp only [fill, List.getD_eq_getElem?_getD]
    rw [List.getElem?_eq_none (by simp; omega), List.getElem?_eq_none (by omega)]

/-- The stored characters. -/
theorem fill_of_lt {buffer : Nat → Byte} {p : List Byte} {i : Nat} (h : i < p.length) :
    fill buffer p i = p[i] := by
  simp [fill, h]

/-- The rest of the buffer stays. -/
theorem fill_of_le {buffer : Nat → Byte} {p : List Byte} {i : Nat} (h : p.length ≤ i) :
    fill buffer p i = buffer i := by
  simp [fill, h]

/-- A string that was stored is there. -/
theorem holds_fill (buffer : Nat → Byte) (p : List Byte) : Holds (fill buffer (p ++ [0])) p := by
  apply List.ext_getElem
  · simp
  · intro i hi _
    rw [List.getElem_map, List.getElem_range, fill_of_lt]

@[simp] theorem Outcome.behind_nil {α : Type} (r : Outcome α) : r.behind [] = r := rfl

@[simp] theorem Outcome.behind_behind {α : Type} (r : Outcome α) (io io' : List Io) :
    (r.behind io).behind io' = r.behind (io' ++ io) := by
  simp [Outcome.behind]

@[simp] theorem Outcome.behind_io {α : Type} (r : Outcome α) (io : List Io) :
    (r.behind io).io = io ++ r.io := rfl

@[simp] theorem Outcome.behind_result {α : Type} (r : Outcome α) (io : List Io) :
    (r.behind io).result = r.result := rfl

section Complete

variable {buffer : Nat → Byte} {p junk input : List Byte}

/-- Characters before the start character are skipped. -/
theorem getPacketFrom_junk (hjunk : ascii '$' ∉ junk) :
    getPacketFrom buffer .hunt (junk ++ input) =
      (getPacketFrom buffer .hunt input).behind (junk.map .got) := by
  induction junk with
  | nil => simp
  | cons ch junk ih =>
      rw [List.mem_cons, not_or] at hjunk
      have hch : ch ≠ ascii '$' := fun h => hjunk.1 h.symm
      simp [getPacketFrom, hch, ih hjunk.2]

/-- Characters of a packet are stored while there is room. -/
theorem getPacketFrom_data (buffer : Nat → Byte) (q input : List Byte) (hp : Plain p)
    (hroom : q.length + p.length < BUFMAX) :
    getPacketFrom (fill buffer q) (.data (checksumOf q) q.length) (p ++ input) =
      (getPacketFrom (fill buffer (q ++ p)) (.data (checksumOf (q ++ p)) (q ++ p).length)
        input).behind (p.map .got) := by
  induction p generalizing q with
  | nil => simp
  | cons ch p ih =>
      obtain ⟨hstart, hend⟩ := hp
      rw [List.mem_cons, not_or] at hstart hend
      have hch : ch ≠ ascii '$' := fun h => hstart.1 h.symm
      have hch' : ch ≠ ascii '#' := fun h => hend.1 h.symm
      rw [List.length_cons] at hroom
      have hnext : q.length + 1 < BUFMAX := by omega
      have hrest := ih (q ++ [ch]) ⟨hstart.2, hend.2⟩ (by simp; omega)
      rw [fill_append, checksumOf_append, List.length_append, List.length_singleton] at hrest
      simp only [List.cons_append, getPacketFrom, hch, hch', hnext, if_true, if_false, hrest,
        List.append_assoc, List.nil_append, Outcome.behind_behind, List.map_cons]

/-- The last character that fits ends the packet. -/
theorem getPacketFrom_full (buffer : Nat → Byte) (input : List Byte) {ch : Byte}
    (hp : Plain (p ++ [ch])) (hfull : p.length + 1 = BUFMAX) :
    getPacketFrom buffer (.data 0 0) (p ++ ch :: input) =
      (getPacketFrom (fill buffer (p ++ [ch, 0])) .hunt input).behind
        ((p ++ [ch]).map .got) := by
  have hpp : Plain p := (plain_append.1 hp).1
  have hch : ch ≠ ascii '$' := fun h => hp.1 (by simp [h])
  have hch' : ch ≠ ascii '#' := fun h => hp.2 (by simp [h])
  have hdata := getPacketFrom_data buffer [] (ch :: input) hpp
    (by simp; omega)
  rw [List.nil_append, fill_nil] at hdata
  have hlast : ¬ p.length + 1 < BUFMAX := by omega
  have hfill : fill buffer (p ++ [ch, 0]) =
      Function.update (Function.update (fill buffer p) p.length ch) (p.length + 1) 0 := by
    have := fill_append buffer (p ++ [ch]) 0
    rwa [List.append_assoc, List.length_append, List.length_singleton, fill_append] at this
  refine hdata.trans ?_
  simp only [getPacketFrom, hch, hch', hlast, if_false, hfill, Outcome.behind_behind,
    List.map_append, List.map_cons, List.map_nil]

/-- The characters after `+`: the sequence id, if the third character of the packet is `:`. -/
def sequenceId (buffer : Nat → Byte) : List Byte :=
  if buffer 2 = ascii ':' then [buffer 0, buffer 1] else []

/-- What `get_packet` makes of the checksum digits. -/
theorem getPacketFrom_checksum (d1 d2 : Byte) :
    getPacketFrom buffer (.high (checksumOf p)) (d1 :: d2 :: input) =
      if Agrees p d1 d2 then
        ⟨[.got d1, .got d2, .put (ascii '+')] ++ (sequenceId buffer).map .put,
          some (buffer, input)⟩
      else (getPacketFrom buffer .hunt input).behind [.got d1, .got d2, .put (ascii '-')] := by
  simp only [getPacketFrom, ne_eq, checksumOf_eq_iff, sequenceId]
  split_ifs <;> simp [Outcome.behind]

/-- A frame of fewer than `BUFMAX` characters with a checksum that agrees is taken. -/
theorem getPacket_frame (buffer : Nat → Byte) (input : List Byte) {d1 d2 : Byte}
    (hjunk : ascii '$' ∉ junk) (hp : Plain p)
    (hlength : p.length < BUFMAX) (hsum : Agrees p d1 d2) :
    getPacket buffer (junk ++ frame p d1 d2 ++ input) =
      ⟨(junk ++ frame p d1 d2).map .got ++
          .put (ascii '+') :: (sequenceId (fill buffer (p ++ [0]))).map .put,
        some (fill buffer (p ++ [0]), input)⟩ := by
  have hdata := getPacketFrom_data buffer [] (ascii '#' :: d1 :: d2 :: input) hp
    (by simpa using hlength)
  rw [List.nil_append, fill_nil] at hdata
  have hend : getPacketFrom (fill buffer p) (.data (checksumOf p) p.length)
      (ascii '#' :: d1 :: d2 :: input) =
      (getPacketFrom (fill buffer (p ++ [0])) (.high (checksumOf p))
        (d1 :: d2 :: input)).behind [.got (ascii '#')] := by
    rw [fill_append]
    rfl
  rw [getPacketFrom_checksum, if_pos hsum] at hend
  have hstart : getPacketFrom buffer .hunt (frame p d1 d2 ++ input) =
      (getPacketFrom buffer (.data 0 0) (p ++ ascii '#' :: d1 :: d2 :: input)).behind
        [.got (ascii '$')] := by
    simp [frame, getPacketFrom]
  rw [getPacket, List.append_assoc, getPacketFrom_junk hjunk, hstart]
  refine (congrArg (fun r => Outcome.behind (Outcome.behind r _) _) (hdata.trans
    (congrArg (Outcome.behind · _) hend))).trans ?_
  simp [Outcome.behind, frame]

/-- A digit is no start character. -/
theorem digit_ne_start {d : Byte} (h : 0 ≤ hex d) : d ≠ ascii '$' := by
  rintro rfl
  exact absurd h (by decide)

/-- A correct frame of `BUFMAX` or more characters leaves the decoder looking for the next one. -/
theorem getPacket_dropped (buffer : Nat → Byte) (input : List Byte) {d1 d2 : Byte}
    (hjunk : ascii '$' ∉ junk) (hp : Plain p) (hlength : BUFMAX ≤ p.length)
    (hsum : Checks p d1 d2) :
    ∃ buffer', getPacket buffer (junk ++ frame p d1 d2 ++ input) =
      (getPacketFrom buffer' .hunt input).behind ((junk ++ frame p d1 d2).map .got) := by
  -- the last character that fits
  obtain ⟨q, ch, rest, rfl, hq⟩ : ∃ q ch rest, p = q ++ ch :: rest ∧ q.length + 1 = BUFMAX := by
    have hlt : 799 < p.length := hlength
    refine ⟨p.take 799, p[799], p.drop 800, ?_, ?_⟩
    · rw [List.getElem_cons_drop, List.take_append_drop]
    · rw [List.length_take, Nat.min_eq_left (Nat.le_of_lt hlt)]
      rfl
  have hsplit : q ++ ch :: rest = (q ++ [ch]) ++ rest := by simp
  have hplain : Plain (q ++ [ch]) := by
    rw [hsplit, plain_append] at hp
    exact hp.1
  have hafter : ascii '$' ∉ rest ++ [ascii '#', d1, d2] := by
    intro h
    simp only [List.mem_append, List.mem_cons, List.not_mem_nil, or_false] at h
    obtain h | h | h | h := h
    · exact hp.1 (by simp [h])
    · exact absurd h (by decide)
    · exact digit_ne_start hsum.1 h.symm
    · exact digit_ne_start hsum.2.1 h.symm
  have hfull := getPacketFrom_full buffer ((rest ++ [ascii '#', d1, d2]) ++ input) hplain hq
  rw [getPacketFrom_junk hafter] at hfull
  have hstart : getPacketFrom buffer .hunt (frame (q ++ ch :: rest) d1 d2 ++ input) =
      (getPacketFrom buffer (.data 0 0)
        (q ++ ch :: ((rest ++ [ascii '#', d1, d2]) ++ input))).behind [.got (ascii '$')] := by
    simp [frame, getPacketFrom]
  refine ⟨fill buffer (q ++ [ch, 0]), ?_⟩
  rw [getPacket, List.append_assoc, getPacketFrom_junk hjunk, hstart, hfull]
  simp [frame]

/-- `get_packet` takes the characters `received`, answers `+` first, and returns with `p` in its
buffer. -/
def Takes (buffer : Nat → Byte) (received p rest : List Byte) : Prop :=
  ∃ (sent : List Byte) (buffer' : Nat → Byte), Holds buffer' p ∧
    getPacket buffer (received ++ rest) =
      ⟨received.map .got ++ .put (ascii '+') :: sent.map .put, some (buffer', rest)⟩

/-- A correct frame of at most `BUFMAX` characters is taken exactly if it has fewer. -/
theorem takes_iff (buffer : Nat → Byte) {junk p : List Byte} (rest : List Byte) {d1 d2 : Byte}
    (hjunk : ascii '$' ∉ junk) (hp : Plain p) (hlength : p.length ≤ BUFMAX)
    (hsum : Checks p d1 d2) :
    Takes buffer (junk ++ frame p d1 d2) p rest ↔ p.length < BUFMAX := by
  constructor
  · rintro ⟨sent, buffer', _, htaken⟩
    refine Nat.lt_of_le_of_ne hlength fun hfull => ?_
    obtain ⟨_, hdropped⟩ := getPacket_dropped buffer rest hjunk hp (Nat.le_of_eq hfull.symm) hsum
    rw [hdropped] at htaken
    -- it would have to return before the next character
    have hreturns := congrArg Outcome.result htaken
    exact absurd (getPacketFrom_length hreturns) (Nat.lt_irrefl _)
  · intro hroom
    exact ⟨_, _, holds_fill buffer p, getPacket_frame buffer rest hjunk hp hroom hsum.agrees⟩

/-- A frame with a lower-case digit, behind the answers of another packet. -/
theorem takes_query :
    Takes (packet "m0,4") (text "++" ++ frame (text "qC") (ascii 'b') (ascii '4'))
      (text "qC") [] :=
  (takes_iff _ _ (by decide) (by decide) (by decide) (by decide)).2 (by decide)

/-- The sum of a packet of equal characters. -/
theorem charSum_replicate (n : Nat) : charSum (List.replicate n (ascii 'a')) = n * 97 := by
  induction n with
  | zero => rfl
  | succ n ih =>
      rw [List.replicate_succ, charSum_cons, ih, Nat.succ_mul, Nat.add_comm]
      rfl

/-- A packet of the size the stub announces is not taken. -/
theorem full_packet_dropped :
    ¬ Takes (fun _ => 0) ([] ++ frame (List.replicate 800 (ascii 'a')) (ascii '2') (ascii '0'))
      (List.replicate 800 (ascii 'a')) [] := by
  rintro ⟨sent, buffer', _, htaken⟩
  have hplain : ∀ c, c ≠ ascii 'a' → c ∉ List.replicate 800 (ascii 'a') := by
    intro c hc h
    exact hc (List.eq_of_mem_replicate h)
  have hsum : charSum (List.replicate 800 (ascii 'a')) = 77600 := charSum_replicate 800
  obtain ⟨_, hdropped⟩ := getPacket_dropped (fun _ => 0) [] (show ascii '$' ∉ [] by simp)
    ⟨hplain _ (by decide), hplain _ (by decide)⟩ (Nat.le_of_eq List.length_replicate.symm)
    (show Checks _ (ascii '2') (ascii '0') by rw [Checks, hsum]; decide)
  rw [hdropped] at htaken
  cases congrArg Outcome.result htaken

end Complete

/-- Where a reader without a limit on the length of packets stands. -/
inductive Reading where
  /-- Before the start character. -/
  | outside
  /-- After `$` and the characters `p`. -/
  | data (p : List Byte)
  /-- After `#`. -/
  | high (p : List Byte)
  /-- After the first checksum character. -/
  | low (p : List Byte) (d1 : Byte)

namespace Reading

/-- Where the reader stands after one more character. -/
def next : Reading → Byte → Reading
  | .outside, ch => if ch = ascii '$' then .data [] else .outside
  | .data p, ch =>
      if ch = ascii '$' then .data []
      else if ch = ascii '#' then .high p
      else .data (p ++ [ch])
  | .high p, ch => .low p ch
  | .low _ _, _ => .outside

/-- The characters since the last start character. -/
def taken : Reading → List Byte
  | .outside => []
  | .data p => ascii '$' :: p
  | .high p => ascii '$' :: p ++ [ascii '#']
  | .low p d1 => ascii '$' :: p ++ [ascii '#', d1]

end Reading

/-- What a sound decoder does with a stream: each frame is answered `-`, or, if its checksum is
correct, `+`, and then the decoder returns with its characters. -/
def Answered : Reading → List Byte → Outcome (Nat → Byte) → Prop
  | _, [], o => o = ⟨[], none⟩
  | .low p d1, d2 :: input, o =>
      (∃ o', Answered .outside input o' ∧ o = o'.behind [.got d2, .put (ascii '-')]) ∨
        Plain p ∧ Checks p d1 d2 ∧ ∃ (sent : List Byte) (buffer : Nat → Byte), Holds buffer p ∧
          o = ⟨.got d2 :: .put (ascii '+') :: sent.map .put, some (buffer, input)⟩
  | r, ch :: input, o => ∃ o', Answered (r.next ch) input o' ∧ o = o'.behind [.got ch]

/-- The frames of a stream up to the one that is taken have fewer than `BUFMAX` characters, and none
has a checksum that agrees only because a character is no digit. -/
def Clean : Reading → List Byte → Prop
  | _, [] => True
  | .low p d1, d2 :: input =>
      p.length < BUFMAX ∧
        if Agrees p d1 d2 then 0 ≤ hex d1 ∧ 0 ≤ hex d2 else Clean .outside input
  | r, ch :: input => Clean (r.next ch) input

/-- The end of the data is not the start of a packet. -/
@[simp] theorem hash_ne_start : ascii '#' ≠ ascii '$' := by decide

/-- The characters since the last start character are the last of the stream. -/
theorem Reading.taken_next (r : Reading) (ch : Byte) :
    ∃ before, r.taken ++ [ch] = before ++ (r.next ch).taken := by
  cases r with
  | outside =>
      by_cases hstart : ch = ascii '$'
      · exact ⟨[], by simp [taken, next, hstart]⟩
      · exact ⟨[ch], by simp [taken, next, hstart]⟩
  | data p =>
      by_cases hstart : ch = ascii '$'
      · exact ⟨ascii '$' :: p, by simp [taken, next, hstart]⟩
      · refine ⟨[], ?_⟩
        by_cases hend : ch = ascii '#' <;> simp [taken, next, hstart, hend]
  | high p => exact ⟨[], by simp [taken, next]⟩
  | low p d1 => exact ⟨ascii '$' :: p ++ [ascii '#', d1, ch], by simp [taken, next]⟩

instance decidableClean : (r : Reading) → (input : List Byte) → Decidable (Clean r input)
  | .outside, [] | .data _, [] | .high _, [] | .low _ _, [] => .isTrue trivial
  | .low p d1, d2 :: input =>
      have := decidableClean .outside input
      inferInstanceAs (Decidable (p.length < BUFMAX ∧
        if Agrees p d1 d2 then 0 ≤ hex d1 ∧ 0 ≤ hex d2 else Clean .outside input))
  | .outside, ch :: input => decidableClean (Reading.outside.next ch) input
  | .data p, ch :: input => decidableClean ((Reading.data p).next ch) input
  | .high p, ch :: input => decidableClean ((Reading.high p).next ch) input

/-- The characters a sound decoder has taken when it returns end in a correct frame, and it returns
with the characters of that frame. -/
theorem Answered.frame {r : Reading} {input rest : List Byte} {o : Outcome (Nat → Byte)}
    {buffer : Nat → Byte} (h : Answered r input o) (hreturns : o.result = some (buffer, rest)) :
    ∃ before p d1 d2, r.taken ++ input = before ++ Gdbstub.frame p d1 d2 ++ rest ∧ Plain p ∧
      Checks p d1 d2 ∧ Holds buffer p := by
  induction input generalizing r o with
  | nil =>
      obtain rfl : o = ⟨[], none⟩ := by cases r <;> exact h
      cases hreturns
  | cons ch input ih =>
      have hstep : ∀ {o'}, Answered (r.next ch) input o' → o'.result = some (buffer, rest) →
          ∃ before p d1 d2, r.taken ++ ch :: input = before ++ Gdbstub.frame p d1 d2 ++ rest ∧
            Plain p ∧ Checks p d1 d2 ∧ Holds buffer p := by
        intro o' ho' hresult
        obtain ⟨before, p, d1, d2, heq, hframe⟩ := ih ho' hresult
        obtain ⟨set, hset⟩ := r.taken_next ch
        refine ⟨set ++ before, p, d1, d2, ?_, hframe⟩
        calc r.taken ++ ch :: input = r.taken ++ [ch] ++ input := by simp
          _ = set ++ ((r.next ch).taken ++ input) := by rw [hset, List.append_assoc]
          _ = _ := by rw [heq]; simp
      cases r with
      | low p d1 =>
          obtain ⟨o', ho', rfl⟩ | ⟨hp, hsum, sent, buffer', hholds, rfl⟩ := h
          · exact hstep ho' hreturns
          · cases hreturns
            exact ⟨[], p, d1, ch, by simp [Reading.taken, Gdbstub.frame], hp, hsum, hholds⟩
      | outside | data | high =>
          obtain ⟨o', ho', rfl⟩ := h
          exact hstep ho' hreturns

/-- How the variables of `get_packet` stand for what has been read. After too many characters it
looks for the next packet, while the reader is still in this one. -/
inductive Follows : Reading → Scan → (Nat → Byte) → Prop
  | outside (buffer) : Follows .outside .hunt buffer
  | data (p buffer) : Plain p → p.length < BUFMAX →
      Follows (.data p) (.data (checksumOf p) p.length) (fill buffer p)
  | high (p buffer) : Plain p → p.length < BUFMAX →
      Follows (.high p) (.high (checksumOf p)) (fill buffer (p ++ [0]))
  | low (p d1 buffer) : Plain p → p.length < BUFMAX →
      Follows (.low p d1) (.low (checksumOf p) (BitVec.ofInt 8 (hex d1) <<< 4))
        (fill buffer (p ++ [0]))
  | longData (p buffer) : BUFMAX ≤ p.length → Follows (.data p) .hunt buffer
  | longHigh (p buffer) : BUFMAX ≤ p.length → Follows (.high p) .hunt buffer
  | longLow (p d1 buffer scan) : BUFMAX ≤ p.length → (∀ c x, scan ≠ .low c x) →
      Follows (.low p d1) scan buffer

/-- The start character restarts both, wherever they are in the data. -/
theorem follows_restart (buffer : Nat → Byte) : Follows (.data []) (.data 0 0) buffer :=
  .data [] buffer (by decide) (by decide)

/-- A character of the data is taken without an answer. -/
theorem Follows.data_next {p : List Byte} {buffer : Nat → Byte} (hp : Plain p)
    (hroom : p.length < BUFMAX) (ch : Byte) (input : List Byte) :
    ∃ scan' buffer', Follows ((Reading.data p).next ch) scan' buffer' ∧
      getPacketFrom (fill buffer p) (.data (checksumOf p) p.length) (ch :: input) =
        (getPacketFrom buffer' scan' input).behind [.got ch] := by
  by_cases hstart : ch = ascii '$'
  · refine ⟨.data 0 0, fill buffer p, ?_, by simp [getPacketFrom, hstart]⟩
    simpa [Reading.next, hstart] using follows_restart _
  by_cases hend : ch = ascii '#'
  · refine ⟨_, _, ?_, by simp [getPacketFrom, hend, ← fill_append]; rfl⟩
    simpa [Reading.next, hstart, hend] using .high p buffer hp hroom
  have hplain : Plain (p ++ [ch]) := by
    refine ⟨fun h => ?_, fun h => ?_⟩ <;> obtain h | h := List.mem_append.1 h
    · exact hp.1 h
    · exact hstart (List.mem_singleton.1 h).symm
    · exact hp.2 h
    · exact hend (List.mem_singleton.1 h).symm
  by_cases hfits : p.length + 1 < BUFMAX
  · refine ⟨_, _, ?_, by simp [getPacketFrom, hstart, hend, hfits]; rfl⟩
    have hdata := Follows.data (p ++ [ch]) buffer hplain (by simpa using hfits)
    simpa [Reading.next, hstart, hend, fill_append] using hdata
  · refine ⟨_, _, ?_, by simp [getPacketFrom, hstart, hend, hfits]; rfl⟩
    simpa [Reading.next, hstart, hend] using Follows.longData (p ++ [ch]) _ (by simp; omega)

/-- A character that does not complete a frame is taken without an answer. -/
theorem Follows.next {r : Reading} {scan : Scan} {buffer : Nat → Byte} (h : Follows r scan buffer)
    (hr : ∀ p d1, r ≠ .low p d1) (ch : Byte) (input : List Byte) :
    ∃ scan' buffer', Follows (r.next ch) scan' buffer' ∧
      getPacketFrom buffer scan (ch :: input) =
        (getPacketFrom buffer' scan' input).behind [.got ch] := by
  -- looking for a packet takes any character
  have hhunt : getPacketFrom buffer .hunt (ch :: input) =
      (getPacketFrom buffer (if ch = ascii '$' then .data 0 0 else .hunt) input).behind
        [.got ch] := rfl
  cases h with
  | outside =>
      refine ⟨_, _, ?_, hhunt⟩
      by_cases hstart : ch = ascii '$'
      · simpa [Reading.next, hstart] using follows_restart buffer
      · simpa [Reading.next, hstart] using .outside buffer
  | data p b hp hroom => exact Follows.data_next hp hroom ch input
  | high p b hp hroom => exact ⟨_, _, .low p ch b hp hroom, rfl⟩
  | low p d1 => exact absurd rfl (hr p d1)
  | longData p b hlong =>
      refine ⟨_, _, ?_, hhunt⟩
      by_cases hstart : ch = ascii '$'
      · simpa [Reading.next, hstart] using follows_restart buffer
      by_cases hend : ch = ascii '#'
      · simpa [Reading.next, hend] using .longHigh p buffer hlong
      · simpa [Reading.next, hstart, hend] using
          .longData (p ++ [ch]) buffer (by simp; omega)
  | longHigh p b hlong =>
      refine ⟨_, _, .longLow p ch buffer _ hlong ?_, hhunt⟩
      intro c x
      split_ifs <;> rintro ⟨⟩
  | longLow p d1 => exact absurd rfl (hr p d1)

/-- The decoder does not send before it has received. -/
theorem getPacketFrom_head (buffer : Nat → Byte) (scan : Scan) (input : List Byte) (c : Byte) :
    (getPacketFrom buffer scan input).io[0]? ≠ some (.put c) := by
  cases input with
  | nil => simp [getPacketFrom]
  | cons ch input =>
      cases scan with
      | hunt | high => simp [getPacketFrom]
      | data | low =>
          simp only [getPacketFrom]
          split_ifs <;> simp

/-- The decoder answers no character but the second checksum digit. -/
theorem getPacketFrom_silent (buffer : Nat → Byte) {scan : Scan} (hscan : ∀ c x, scan ≠ .low c x)
    (ch : Byte) (input : List Byte) (c : Byte) :
    (getPacketFrom buffer scan (ch :: input)).io[1]? ≠ some (.put c) := by
  cases scan with
  | low c x => exact absurd rfl (hscan c x)
  | hunt | high => exact getPacketFrom_head _ _ _ _
  | data =>
      simp only [getPacketFrom]
      split_ifs <;> exact getPacketFrom_head _ _ _ _

/-- What follows the same characters can be compared. -/
theorem Outcome.behind_inj {α : Type} {o o' : Outcome α} {io : List Io} :
    o.behind io = o'.behind io ↔ o = o' := by
  constructor
  · intro h
    obtain ⟨io', result⟩ := o
    obtain ⟨io'', result'⟩ := o'
    simpa [Outcome.behind] using h
  · rintro rfl
    rfl

/-- The second checksum character of a frame the decoder has not lost. -/
theorem answered_low {p : List Byte} {buffer : Nat → Byte} (hp : Plain p)
    (hroom : p.length < BUFMAX) (d1 d2 : Byte) (input : List Byte)
    (hrest : Answered .outside input (getPacketFrom (fill buffer (p ++ [0])) .hunt input) ↔
      Clean .outside input) :
    Answered (.low p d1) (d2 :: input)
        (getPacketFrom (fill buffer (p ++ [0]))
          (.low (checksumOf p) (BitVec.ofInt 8 (hex d1) <<< 4)) (d2 :: input)) ↔
      Clean (.low p d1) (d2 :: input) := by
  have hrun : getPacketFrom (fill buffer (p ++ [0]))
      (.low (checksumOf p) (BitVec.ofInt 8 (hex d1) <<< 4)) (d2 :: input) =
      if Agrees p d1 d2 then
        ⟨[.got d2, .put (ascii '+')] ++ (sequenceId (fill buffer (p ++ [0]))).map .put,
          some (fill buffer (p ++ [0]), input)⟩
      else (getPacketFrom (fill buffer (p ++ [0])) .hunt input).behind
        [.got d2, .put (ascii '-')] := by
    simp only [getPacketFrom, ne_eq, checksumOf_eq_iff, sequenceId]
    split_ifs <;> rfl
  simp only [Answered, Clean, hrun, hroom, true_and]
  by_cases hsum : Agrees p d1 d2
  · simp only [hsum, if_true]
    constructor
    · rintro (⟨o', -, h⟩ | ⟨-, hchecks, -⟩)
      · have hanswer := congrArg (fun o => o.io[1]?) h
        have hne : some (Io.put (ascii '+')) ≠ some (.put (ascii '-')) := by decide
        exact absurd hanswer hne
      · exact ⟨hchecks.1, hchecks.2.1⟩
    · rintro ⟨h1, h2⟩
      exact .inr ⟨hp, hsum.checks h1 h2, _, _, holds_fill buffer p, rfl⟩
  · simp only [hsum, if_false]
    constructor
    · rintro (⟨o', ho', h⟩ | ⟨-, hchecks, -⟩)
      · rwa [← hrest, Outcome.behind_inj.1 h]
      · exact absurd hchecks.agrees hsum
    · intro h
      exact .inl ⟨_, hrest.2 h, rfl⟩

/-- What the decoder does with a stream is sound exactly if the stream is clean. -/
theorem answered_iff {r : Reading} {scan : Scan} {buffer : Nat → Byte} (h : Follows r scan buffer)
    (input : List Byte) :
    Answered r input (getPacketFrom buffer scan input) ↔ Clean r input := by
  induction input generalizing r scan buffer with
  | nil => cases r <;> exact ⟨fun _ => trivial, fun _ => rfl⟩
  | cons ch input ih =>
      have hnext : ∀ (hr : ∀ p d1, r ≠ .low p d1),
          (∃ o', Answered (r.next ch) input o' ∧
            getPacketFrom buffer scan (ch :: input) = o'.behind [.got ch]) ↔
          Clean (r.next ch) input := by
        intro hr
        obtain ⟨scan', buffer', hfollows, hrun⟩ := h.next hr ch input
        rw [hrun, ← ih hfollows]
        constructor
        · rintro ⟨o', ho', heq⟩
          rwa [Outcome.behind_inj.1 heq]
        · intro hans
          exact ⟨_, hans, rfl⟩
      cases r with
      | outside | data | high => exact hnext (by simp)
      | low p d1 =>
          cases h with
          | low p d1 b hp hroom => exact answered_low hp hroom d1 ch input (ih (.outside _))
          | longLow p d1 b scan hlong hscan =>
              have hsilent := getPacketFrom_silent buffer hscan ch input
              refine iff_of_false ?_ fun hclean => absurd hclean.1 (by omega)
              rintro (⟨o', -, heq⟩ | ⟨-, -, sent, buffer', -, heq⟩) <;> rw [heq] at hsilent
              · exact hsilent _ rfl
              · exact hsilent _ rfl

/-- `get_packet` answers a stream soundly exactly if the stream is clean, and an endless stream
exactly if each of its beginnings is. -/
theorem getPacket_answered_iff (buffer : Nat → Byte) :
    (∀ input, Answered .outside input (getPacket buffer input) ↔ Clean .outside input) ∧
      ∀ stream : Nat → Byte,
        (∀ n, Answered .outside ((List.range n).map stream)
          (getPacket buffer ((List.range n).map stream))) ↔
        ∀ n, Clean .outside ((List.range n).map stream) := by
  have hfinite := fun input => answered_iff (Follows.outside buffer) input
  exact ⟨hfinite, fun stream => forall_congr' fun n => hfinite _⟩

/-- A checksum character that is no digit is taken for the digit below 0. -/
theorem wrong_frame_taken :
    ¬ Answered .outside (frame (text "_") (ascii '6') (ascii '!'))
      (getPacket (fun _ => 0) (frame (text "_") (ascii '6') (ascii '!'))) := by
  rw [getPacket, answered_iff (.outside _)]
  decide

end Soc.Gdbstub
