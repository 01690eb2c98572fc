import DhcpRelay.Page
import DhcpRelay.Octets
import DhcpRelay.Text.Utf8
import DhcpRelay.Json.Reader
import DhcpRelay.Json.Printer
import DhcpRelay.Json.Record
import DhcpRelay.Address.Cidr
import DhcpRelay.Address.Hardware
import DhcpRelay.Config.File
import DhcpRelay.Interface.PropertyTable
import DhcpRelay.Interface.Event
import DhcpRelay.Validation
import DhcpRelay.V4.Packet
import DhcpRelay.V4.Frame
import DhcpRelay.V6.Message
import DhcpRelay.Outcome
import DhcpRelay.Processor.Recorder
import DhcpRelay.V4.Processor
import DhcpRelay.V6.Processor
import DhcpRelay.Manager.Status
import DhcpRelay.Watch.Snapshot
import DhcpRelay.Watch.Feed
import DhcpRelay.Daemon
import DhcpRelay.Main
import DhcpRelay.Proofs.SortedTable
import DhcpRelay.Proofs.Interface.PropertyTable
import DhcpRelay.Proofs.Tracker.Activation
import DhcpRelay.Proofs.Processor.Recorder
import DhcpRelay.Proofs.Manager.Operation
import DhcpRelay.Proofs.Manager.Following
import DhcpRelay.Proofs.Manager.Coupling
import DhcpRelay.Proofs.Manager.Recovery
import DhcpRelay.Proofs.Manager.Tables
import DhcpRelay.Proofs.Watch.Replay
import DhcpRelay.Proofs.Watch.Regular
import DhcpRelay.Proofs.Watch.Mirror
import DhcpRelay.Proofs.Watch.Pipeline
import DhcpRelay.Proofs.Manager.Loading
import DhcpRelay.Proofs.Manager.Reload
import DhcpRelay.Proofs.Manager.Upkeep
import DhcpRelay.Proofs.V6.Handling
import DhcpRelay.Proofs.V6.Peers
import DhcpRelay.Proofs.V6.ReturnPath
import DhcpRelay.Proofs.V6.Chain
import DhcpRelay.Proofs.V4.Sizes
import DhcpRelay.Proofs.V4.Delivery
import DhcpRelay.Proofs.ForwardingLoop
import DhcpRelay.Proofs.Counters
import DhcpRelay.Proofs.Address.Text
import DhcpRelay.Proofs.Address.RoundTrip
import DhcpRelay.Proofs.V4.Links
import DhcpRelay.Proofs.V4.Balance
import DhcpRelay.Proofs.V6.Journal
import DhcpRelay.Proofs.V6.Balance
import DhcpRelay.Proofs.V6.ServerRecords
import DhcpRelay.Proofs.Manager.Serving
import DhcpRelay.Proofs.Manager.Gating
import DhcpRelay.Proofs.Interleaving
import DhcpRelay.Proofs.Manager.Commuting
import DhcpRelay.Proofs.V4.Processor
import DhcpRelay.Proofs.Manager.LinkHandles
import DhcpRelay.Proofs.Outcome
import DhcpRelay.Proofs.Omission
import DhcpRelay.Proofs.V4.Omission
import DhcpRelay.Proofs.V6.Omission
import DhcpRelay.Proofs.Noninterference
import DhcpRelay.Proofs.V4.OptionLayout
import DhcpRelay.Proofs.Manager.Validation
import DhcpRelay.Proofs.Manager.Repetition
import DhcpRelay.Proofs.V4.PacketLayout
import DhcpRelay.Proofs.V6.MessageLayout
import DhcpRelay.Proofs.V6.Delivery
import DhcpRelay.Proofs.V6.FanOut
import DhcpRelay.Proofs.Manager.FanOut
import DhcpRelay.Proofs.Interface.Correspondence
import DhcpRelay.Proofs.Watch.Difference
import DhcpRelay.Proofs.Watch.FirstListed
import DhcpRelay.Proofs.Watch.Supervision
import DhcpRelay.Proofs.Paging
import DhcpRelay.Proofs.Manager.Shadowing
import DhcpRelay.Proofs.V6.Lease
import DhcpRelay.Proofs.V4.Clients
