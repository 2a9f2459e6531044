import Soc.Csr
import Soc.Library.Execution

/-!
# The JTAG bridge to memory

The module `jtag` with its virtual wire and the host that drives it over JTAG. The host writes the
source word and samples the probe at any time between the edges of sys_clk. A source word takes some
time to reach sys_clk, and arrives as a whole; if several are on the way, an edge may see a later
one first. The host follows the handshake in the header of `jtag.v`: it sets JBUS to 0, waits for 0,
sets a request, and waits for a probe that is not 0.
-/

namespace Soc.Jtag

open Library (Machine)

/-- The source word of JBUS, `{request, we, adr, data}`. -/
structure Source where
  request : Bool
  we : Bool
  adr : Word
  data : Word
  deriving DecidableEq

/-- JBUS set to 0. -/
def Source.zero : Source := ⟨false, false, 0, 0⟩

/-- The probe of JBUS, `{tx_ack, tx_data}`. -/
structure Probe where
  txAck : Bool
  txData : Word
  deriving DecidableEq

/-- JBUS reads 0. -/
def Probe.zero : Probe := ⟨false, 0⟩

/-- The registers of `jtag`: `rx` is `{rx_request, rx_we, rx_adr, rx_data}`, and `tx` is
`{tx_ack, tx_data}`. -/
structure Registers where
  wbAdrO : Word
  wbDatO : Word
  wbStbO : Bool
  wbCycO : Bool
  wbWeO : Bool
  rx : Source
  tx : Probe

/-- The registers after an edge of sys_clk, without reset. -/
def Registers.next (j : Registers) (vwRxBus : Source) (wbAckI : Bool) (wbDatI : Word) :
    Registers :=
  let j' : Registers :=
    if j.wbCycO && j.wbStbO && wbAckI then
      { j with tx := ⟨true, wbDatI⟩, wbCycO := false, wbStbO := false }
    else if j.wbCycO && j.wbStbO then j
    else if !j.rx.request then { j with tx := ⟨false, 0⟩ }
    else if j.rx.request && !j.tx.txAck then
      { j with
        wbCycO := true
        wbStbO := true
        wbAdrO := j.rx.adr
        wbDatO := j.rx.data
        wbWeO := j.rx.we }
    else j
  { j' with rx := vwRxBus }

/-- What the host has done last: set JBUS to 0, or set a request. -/
inductive HostPhase where
  | cleared
  | requested
  deriving DecidableEq

/-- The bridge with its host. `flight` holds the source words that are on their way to `vw_rx_bus`,
and `seen` what the host has sampled since it set JBUS. -/
structure Bridge where
  jtag : Registers
  vwRxBus : Source
  flight : List Source
  host : HostPhase
  seen : Option Probe

/-- What happens next: an edge of sys_clk, at which a number of source words have arrived and the
slave answers, or an action of the host. -/
inductive Event where
  | edge (arrivals : Nat) (wbAckI : Bool) (wbDatI : Word)
  | sample
  | clear
  | request (we : Bool) (adr data : Word)

namespace Bridge

variable (s : Bridge)

/-- A step of the bridge or its host. -/
def next : Event → Bridge
  | .edge arrivals wbAckI wbDatI =>
      { s with
        jtag := s.jtag.next s.vwRxBus wbAckI wbDatI
        vwRxBus := (s.flight.take arrivals).getLast?.getD s.vwRxBus
        flight := s.flight.drop arrivals }
  | .sample => { s with seen := some s.jtag.tx }
  | .clear => { s with flight := s.flight ++ [.zero], host := .cleared, seen := none }
  | .request we adr data =>
      { s with flight := s.flight ++ [⟨true, we, adr, data⟩], host := .requested, seen := none }

/-- The host waits for what the handshake says. -/
def Allowed : Event → Prop
  | .edge _ _ _ => True
  | .sample => True
  | .clear => s.host = .requested ∧ ∃ probe, s.seen = some probe ∧ probe ≠ .zero
  | .request _ _ _ => s.host = .cleared ∧ s.seen = some .zero

/-- At power-up every register is 0, and so is JBUS. -/
def Initial : Prop :=
  s.jtag = ⟨0, 0, false, false, false, .zero, .zero⟩ ∧ s.vwRxBus = .zero ∧ s.flight = [] ∧
    s.host = .cleared ∧ s.seen = none

end Bridge

/-- The bridge with its host and its slave. -/
def bridge : Machine Bridge Event where
  Initial := Bridge.Initial
  Allowed := Bridge.Allowed
  next := Bridge.next

end Soc.Jtag
