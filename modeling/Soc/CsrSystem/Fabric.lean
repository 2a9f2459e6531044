import Soc.Conbus.Bus
import Soc.Library.Execution
import Soc.Minimac2.Ctlif
import Soc.Sysctl.Core
import Soc.Uart.Core

/-!
# The CSR bus with its peripherals

`csrbrg` with the UART, the system controller and the control interface of the Ethernet MAC, as
`lm32_test_top` connects them: `csr_di` is the disjunction of the three outputs. The environment
presents Wishbone requests to the bridge, and drives the other pins of the peripherals.
-/

namespace Soc.CsrSystem

open Conbus (Request Csrbrg)
open Library (Machine)
open Minimac2 (Ctlif CtlifIn)

/-- The peripherals. -/
inductive Peripheral where
  | uart
  | sysctl
  | ethernet
  deriving DecidableEq

/-- What the environment drives in a cycle: the request, the FIFOs behind the UART and the MAC
behind its control interface. -/
structure Cycle where
  wb : Request
  jtagFull : Bool
  jtagEmpty : Bool
  jtagQ : Byte
  mac : CtlifIn

/-- A request is presented to the bridge. -/
def presents (wb : Request) : Bool := wb.cyc && wb.stb

/-- The bridge and the peripherals. The last two fields are bookkeeping: what was presented in the
cycle before, and whether it was acknowledged then. -/
structure Fabric (noutputs : Nat) where
  csrbrg : Csrbrg
  uart : Uart
  sysctl : Sysctl noutputs
  ethernet : Ctlif
  last : Request
  acked : Bool

namespace Fabric

variable {noutputs : Nat} (addr : Peripheral → BitVec 4) (s : Fabric noutputs) (c : Cycle)

/-- The CSR bus, as the bridge drives it. -/
def bus : CsrBus := ⟨s.csrbrg.csrA, s.csrbrg.csrWe, s.csrbrg.csrDo⟩

/-- The output of a peripheral. -/
def csrDo : Peripheral → Word
  | .uart => s.uart.csrDo
  | .sysctl => s.sysctl.csrDo
  | .ethernet => s.ethernet.csrDo

/-- The input `csr_di` of the bridge. -/
def csrDi : Word := s.csrDo .uart ||| s.csrDo .sysctl ||| s.csrDo .ethernet

/-- The register of a peripheral that `csr_a` addresses. -/
def register : Peripheral → Word
  | .uart => s.uart.readCsr s.bus.reg
  | .sysctl => s.sysctl.readCsr (Sysctl.reg s.bus)
  | .ethernet => s.ethernet.readCsr c.mac s.bus.reg

/-- The system after a clock edge. -/
def next : Fabric noutputs where
  csrbrg := s.csrbrg.next c.wb s.csrDi
  uart := s.uart.clock (addr .uart) s.bus c.jtagFull c.jtagEmpty c.jtagQ
  sysctl := s.sysctl.clock (addr .sysctl) s.bus
  ethernet := s.ethernet.clock c.mac (addr .ethernet) s.bus
  last := c.wb
  acked := s.csrbrg.wbAckO

/-- The system after a clock edge with reset. -/
def reset : Fabric noutputs where
  csrbrg := s.csrbrg.reset c.wb s.csrDi
  uart := .reset
  sysctl := .reset
  ethernet := s.ethernet.reset c.mac
  last := c.wb
  acked := false

/-- The request of the cycle before still waits for its ack. -/
def waits : Bool := presents s.last && !s.acked

/-- A request starts. -/
def starts : Bool := presents c.wb && !s.waits

/-- A request is held until it is acknowledged. -/
def MasterRule : Prop := s.waits = true → Conbus.Bus.Held s.last c.wb

/-- The edge left the registers of a peripheral to the peripheral itself, apart from its output. -/
def Undisturbed : Peripheral → Prop
  | .uart => (s.next addr c).uart =
      s.uart.tick c.jtagFull c.jtagEmpty c.jtagQ (s.next addr c).uart.csrDo
  | .sysctl => (s.next addr c).sysctl = s.sysctl.tick (s.next addr c).sysctl.csrDo
  | .ethernet => (s.next addr c).ethernet =
      s.ethernet.tick c.mac (s.next addr c).ethernet.csrDo

end Fabric

/-- The system after a reset of one or more cycles, in the last of which no request is presented:
the masters are reset too. -/
def fabric (addr : Peripheral → BitVec 4) (noutputs : Nat) :
    Machine (Fabric noutputs) Cycle where
  Initial s := ∃ before c, presents c.wb = false ∧ s = Fabric.reset before c
  Allowed := Fabric.MasterRule
  next := Fabric.next addr

instance {noutputs : Nat} (addr : Peripheral → BitVec 4) (s : Fabric noutputs) (c : Cycle) :
    Decidable ((fabric addr noutputs).Allowed s c) :=
  inferInstanceAs (Decidable (s.waits = true → Conbus.Bus.Held s.last c.wb))

end Soc.CsrSystem
