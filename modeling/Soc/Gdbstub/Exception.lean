import Soc.Gdbstub.Packet

/-!
# Debug exceptions

`handle_exception` of `gdbstub.c` as a conversation with GDB: the status if GDB was connected
before, then packets and replies until one of them resumes the application. The accesses to
the UART registers around the conversation are modelled with the UART.
-/

namespace Soc.Gdbstub

namespace Stub

/-- `clear_bss`: all static data of the stub is in `.bss`. -/
def clearBss (s : Stub) : Stub :=
  { s with
    remcomInBuffer := fun _ => 0
    remcomOutBuffer := fun _ => 0
    bpAddress := fun _ => 0
    wpAddress := fun _ => 0
    bpwpEnabled := 0
    gdbConnected := false
    dc := 0 }

/-- The entry of `handle_exception`: the static data is cleared if there was a board reset. -/
def enter (s : Stub) : Stub :=
  if s.scratchpad = 0 then { s.clearBss with scratchpad := 1 } else s

/-- A packet was received, so GDB is connected. -/
def accept (s : Stub) (packet : Nat → Byte) : Stub :=
  { s.receive packet with gdbConnected := true }

/-- The loop of `handle_exception`, for at most `fuel` packets. -/
def serve : Nat → Stub → Serial Stub
  | 0, _ => fun _ => ⟨[], none⟩
  | fuel + 1, s =>
      (getPacket s.remcomInBuffer).bind fun buffer =>
        let (s, after) := (s.accept buffer).execute
        match after with
        | .reply => (putPacket s.remcomOutBuffer).bind fun _ => serve fuel s
        | .resume true => (putPacket s.remcomOutBuffer).bind fun _ => .done s
        | .resume false => .done s

/-- `handle_exception`. Every packet takes a character, so the fuel does not run out. -/
def handleException (s : Stub) : Serial Stub := fun input =>
  let s := s.enter
  if s.gdbConnected then
    ((putPacket s.cmdStatus.remcomOutBuffer).bind fun _ => serve (input.length + 1) s.cmdStatus)
      input
  else serve (input.length + 1) s input

variable {s : Stub} {fuel : Nat} {input : List Byte}

/-- A conversation that ends contains a character the stub sent. -/
theorem serve_speaks {r : Stub × List Byte} (h : (serve fuel s input).result = some r) :
    Speaks (serve fuel s input).io := by
  cases fuel with
  | zero => cases h
  | succ fuel =>
      obtain ⟨buffer, mid, hget⟩ := Serial.some_of_bind h
      rw [serve, Serial.bind_of_some hget]
      obtain ⟨c, hc⟩ := getPacketFrom_speaks hget
      exact ⟨c, List.mem_append_left _ hc⟩

/-- Every debug stop that ends has sent a character. -/
theorem handleException_speaks {io : List Io} {r : Stub × List Byte}
    (h : s.handleException input = ⟨io, some r⟩) : Speaks io := by
  have hresult : (s.handleException input).result = some r := by rw [h]
  have hspeaks : Speaks (s.handleException input).io := by
    unfold handleException at hresult ⊢
    by_cases hconnected : s.enter.gdbConnected = true
    · simp only [hconnected, if_true] at hresult ⊢
      obtain ⟨_, mid, hput⟩ := Serial.some_of_bind hresult
      rw [Serial.bind_of_some hput] at hresult ⊢
      exact (serve_speaks hresult).behind _
    · simp only [hconnected] at hresult ⊢
      exact serve_speaks hresult
  rwa [h] at hspeaks

end Stub

end Soc.Gdbstub
