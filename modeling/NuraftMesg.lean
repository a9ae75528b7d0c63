import NuraftMesg.Base.Cells
import NuraftMesg.Base.PartialMap
import NuraftMesg.Base.Custody
import NuraftMesg.Base.Transition
import NuraftMesg.Base.Interleaving
import NuraftMesg.Base.Solo
import NuraftMesg.Base.Promise
import NuraftMesg.Base.Simulation
import NuraftMesg.Base.Table
import NuraftMesg.Base.Unwinding
import NuraftMesg.Base.Refinement
import NuraftMesg.Base.Workers
import NuraftMesg.Base.Monitor
import NuraftMesg.Common
import NuraftMesg.UuidText
import NuraftMesg.Wire.Messages
import NuraftMesg.Wire.Codec
import NuraftMesg.Wire.RoundTrip
import NuraftMesg.Client.Call
import NuraftMesg.Client.Settlement
import NuraftMesg.Client.Forwarding
import NuraftMesg.Client.Hints
import NuraftMesg.Client.Redirect
import NuraftMesg.Service.Step
import NuraftMesg.Service.Decoding
import NuraftMesg.Manager.Registry
import NuraftMesg.Manager.Threads
import NuraftMesg.Manager.Admission
import NuraftMesg.Manager.Effects
import NuraftMesg.Manager.Joins
import NuraftMesg.Manager.Consistency
import NuraftMesg.Manager.Contexts
import NuraftMesg.Manager.Leadership
import NuraftMesg.Manager.Lifetime
import NuraftMesg.Manager.Ownership
import NuraftMesg.Manager.Pointers
import NuraftMesg.Manager.Projection
import NuraftMesg.Manager.Replies
import NuraftMesg.Manager.Rollback
import NuraftMesg.Manager.Messages
import NuraftMesg.Manager.Pools
import NuraftMesg.Manager.Pools.Lanes
import NuraftMesg.Manager.Waiting
import NuraftMesg.Manager.Waiting.Commands
import NuraftMesg.Manager.Waiting.Progress
import NuraftMesg.Manager.Sequential.Membership
import NuraftMesg.Manager.Sequential
import NuraftMesg.DataService.Binding
import NuraftMesg.DataService.Destination
import NuraftMesg.DataService.Failures
import NuraftMesg.DataService.Restart
import NuraftMesg.DataService.Routing
import NuraftMesg.DataService.Startup
import NuraftMesg.Factory.State
import NuraftMesg.Factory.Step
import NuraftMesg.Factory.Rules
import NuraftMesg.Factory.Likeness
import NuraftMesg.Factory.Atomicity
import NuraftMesg.Factory.Growth
import NuraftMesg.Factory.DataRequests
import NuraftMesg.Factory.Representation
import NuraftMesg.Factory.Identity
import NuraftMesg.Factory.Sharing
import NuraftMesg.Factory.Healing
import NuraftMesg.Factory.Membership
import NuraftMesg.Delivery
import NuraftMesg.Handlers
import NuraftMesg.Isolation
import NuraftMesg.Network.System
import NuraftMesg.Network.Provenance
import NuraftMesg.Network.Invitation
import NuraftMesg.Network.Operations
import NuraftMesg.Network.DataPath
