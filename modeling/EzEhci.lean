import EzEhci.Lib.Bits
import EzEhci.Lib.Loops
import EzEhci.Lib.Run
import EzEhci.Lib.Linked
import EzEhci.Lib.Ring
import EzEhci.Lib.Trace
import EzEhci.Lib.Exchange
import EzEhci.Lib.Iterate
import EzEhci.Lib.Chain
import EzEhci.Lib.Paced
import EzEhci.Hw.Memory
import EzEhci.Hw.Qtd
import EzEhci.Hw.Pages
import EzEhci.Hw.QueueHead
import EzEhci.Hw.Queue
import EzEhci.Hw.Regs
import EzEhci.Hw.Capabilities
import EzEhci.Hw.Handoff
import EzEhci.Periodic.Manager
import EzEhci.Periodic.Represent
import EzEhci.Periodic.Invariant
import EzEhci.Periodic.Masks
import EzEhci.Periodic.Schedule
import EzEhci.Async.Manager
import EzEhci.Async.Reclaim
import EzEhci.Async.Traverse
import EzEhci.Sync.Signal
import EzEhci.Sync.Waiters
import EzEhci.Sync.Oneshot
import EzEhci.Irq.Handler
import EzEhci.Irq.Protocol
import EzEhci.Device.Info
import EzEhci.Device.Parse
import EzEhci.Device.Ends
import EzEhci.Device.Tree
import EzEhci.Endpoint.Interrupt
import EzEhci.Endpoint.Ring
import EzEhci.Endpoint.Order
import EzEhci.Endpoint.Control
import EzEhci.Endpoint.Attach
import EzEhci.Endpoint.DataStage
import EzEhci.Endpoint.Response
import EzEhci.Endpoint.Toggle
import EzEhci.Endpoint.Advance
import EzEhci.Endpoint.Packets
import EzEhci.Device.Address
import EzEhci.Device.Allocation
import EzEhci.Device.Configure
import EzEhci.Device.Interval
import EzEhci.Runner.State
import EzEhci.Runner.Poll
import EzEhci.Runner.Steps
import EzEhci.Runner.Ticks
import EzEhci.Runner.Frame
import EzEhci.Runner.World
import EzEhci.Runner.Registration
import EzEhci.Runner.Running
import EzEhci.Runner.Rest
import EzEhci.Runner.Wakeup
import EzEhci.Runner.Failure
import EzEhci.Reset.Machine
import EzEhci.Reset.World
import EzEhci.Reset.Refine
import EzEhci.Reset.Ownership
import EzEhci.Reset.Discipline
import EzEhci.Reset.Release
import EzEhci.Reset.Disconnect
import EzEhci.Reset.Addresses
import EzEhci.Reset.Responses
import EzEhci.Start.Run
import EzEhci.Reset.Loop
import EzEhci.Start.Responses
import EzEhci.Start.HostError
import EzEhci.Start.Protocol
import EzEhci.Start.Record
import EzEhci.Start.Progress
import EzEhci.Wait.World
import EzEhci.Wait.Handed
import EzEhci.Wait.Cover
import EzEhci.Wait.Completion
import EzEhci.Watch.World
import EzEhci.Watch.Schedule
import EzEhci.Watch.Served
import EzEhci.Lib.Interact
import EzEhci.Session.SetupPacket
import EzEhci.Session.Enumerate
import EzEhci.Session.Stage
import EzEhci.Session.Bus
import EzEhci.Session.Realize
import EzEhci.Session.Info
import EzEhci.Session.HubDescriptor
import EzEhci.Session.Hub
import EzEhci.Port.World
import EzEhci.Port.Announce
import EzEhci.Port.Wakeup
import EzEhci.Port.Connection
import EzEhci.Reset.Listed
import EzEhci.Reset.Loaded
