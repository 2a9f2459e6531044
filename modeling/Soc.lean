import Soc.Library.Machine
import Soc.Library.Ring
import Soc.Csr
import Soc.Uart.Core
import Soc.Uart.Routine
import Soc.Uart.Receive
import Soc.Uart.Transmit
import Soc.Gdbstub.DebugChar
import Soc.Libbase.Uart
import Soc.Lm32.Debug
import Soc.Gdbstub.State
import Soc.Gdbstub.Command
import Soc.Gdbstub.Watchpoints
import Soc.Gdbstub.Exception
import Soc.Gdbstub.Sessions
import Soc.Gdbstub.Stop
import Soc.Libbase.Crc32
import Soc.Libnet.Microudp
import Soc.Libnet.Frames
import Soc.Libnet.Reentry
import Soc.Conbus.Bus
import Soc.Conbus.Answers
import Soc.Library.ToggleSync
import Soc.Minimac2.Receiver
import Soc.Minimac2.Owner
import Soc.Minimac2.Slots
import Soc.Minimac2.Ownership
import Soc.Gdbstub.Framing
import Soc.Gdbstub.Hex
import Soc.Gdbstub.Delivery
import Soc.Gdbstub.Store
import Soc.Gdbstub.Accesses
import Soc.Gdbstub.Agreement
import Soc.Gdbstub.History
import Soc.Gdbstub.Context
import Soc.CsrSystem.Accesses
import Soc.Minimac2.Phase
import Soc.Minimac2.Transmission
import Soc.Dhcp.Boot
import Soc.Dhcp.Broadcast
import Soc.Dhcp.Session
import Soc.Ebr.Accesses
import Soc.Libnet.Layout
import Soc.Libnet.Leftover
import Soc.Libnet.Resolution
import Soc.Libnet.Stores
import Soc.Minimac2.Memory
import Soc.Jtag.Bridge
import Soc.Jtag.Exchange
import Soc.Libbase.Console
import Soc.Monitor.Commands
import Soc.Monitor.Memory
import Soc.Conbus.Arbiter
import Soc.Libnet.Checksums
import Soc.Libnet.Fcs
import Soc.Library.Countdown
import Soc.Sysctl.Timers
import Soc.Tools.AtlanticGdbserver
import Soc.Tools.Bin2mif
import Soc.Uart.Rings
import Soc.Ebr.Monitor
import Soc.Libbase.Divsi3
import Soc.Libbase.Format
import Soc.Libbase.Memcpy
import Soc.Libbase.Strings
import Soc.Libbase.Vsnprintf
import Soc.Libnet.Mdio
import Soc.Minimac2.Psync
import Soc.Library.Refinement
import Soc.Lm32.Bytes
import Soc.Lm32.Core
import Soc.Lm32.DataBus
import Soc.Lm32.Encoding
import Soc.Lm32.Progress
import Soc.Monitor.Execution
import Soc.Top.Program
import Soc.Top.Progress
import Soc.Top.Unmapped
import Soc.Lm32.ControlRegisters
import Soc.Lm32.Interrupt
