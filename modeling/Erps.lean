import Erps.Lib.Bytes
import Erps.Lib.Lts
import Erps.Lib.Parties
import Erps.Lib.Cyclic
import Erps.Lib.Publication
import Erps.Raps
import Erps.Format
import Erps.Ring.State
import Erps.Ring.Fsm
import Erps.Ring.Table
import Erps.Ring.Row
import Erps.Ring.Request
import Erps.Ring.Retained
import Erps.Ring.Correspond
import Erps.Ring.Start
import Erps.Ring.Previous
import Erps.Ring.Yield
import Erps.Ring.Announce
import Erps.Ring.Failed
import Erps.Ring.Idle
import Erps.Ring.Quiet
import Erps.Ring.Rest
import Erps.Ring.Wait
import Erps.Ring.Frame
import Erps.Kernel.Node
import Erps.Kernel.Runs
import Erps.Kernel.Dnf
import Erps.Kernel.Forward
import Erps.Kernel.Remote
import Erps.Kernel.Ioctl
import Erps.Kernel.Foreign
import Erps.Kernel.Guard
import Erps.Kernel.Roles
import Erps.Kernel.Create
import Erps.Kernel.Inject
import Erps.Kernel.Exclusive
import Erps.Kernel.Life
import Erps.Kernel.Account
import Erps.Kernel.Listen
import Erps.Kernel.Record
import Erps.Sim.Node
import Erps.Sim.Control
import Erps.Sim.Runs
import Erps.Sim.Timers
import Erps.Sim.Faithful
import Erps.Sim.Burst
import Erps.Sim.Server
import Erps.Sim.Pacing
import Erps.Sim.Network
import Erps.Sim.Startup
import Erps.Sim.Hops
import Erps.Sim.Storm
import Erps.Sim.Switching
import Erps.Sim.Settling
import Erps.Kernel.Circulation
import Erps.Kernel.Delivery
import Erps.CommandLine
