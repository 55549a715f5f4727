import RomCast.Exchange
import RomCast.Header.Fields
import RomCast.Publication
import RomCast.Main
import RomCast.Observed
import RomCast.Proofs.Replica.Visible
import RomCast.Proofs.Station.Turn
import RomCast.Proofs.Client.Deliver
import RomCast.Proofs.Client.Integrity
import RomCast.Proofs.Bytes.Words
import RomCast.Proofs.Header.Lawful
import RomCast.Proofs.Bytes.Overwrite
import RomCast.Proofs.Checksum
import RomCast.Proofs.Cursor.Filling
import RomCast.Proofs.Message
import RomCast.Proofs.Endpoint.Datagram
import RomCast.Proofs.Link.Memory
import RomCast.Proofs.Endpoint.Emits
import RomCast.Proofs.Endpoint.Transmit
import RomCast.Proofs.Endpoint.Inbound
import RomCast.Proofs.Station.Memory
import RomCast.Proofs.Server.Stream
import RomCast.Proofs.Client.Request
import RomCast.Proofs.Exchange.Broadcast
import RomCast.Proofs.Exchange.Agreement
import RomCast.Proofs.Client.Transfer
import RomCast.Proofs.Station.Working
import RomCast.Proofs.Exchange.Conversation
import RomCast.Proofs.Exchange.Rounds
import RomCast.Proofs.Exchange.Replication
import RomCast.Proofs.Files.Frame
import RomCast.Proofs.Files.Whole
import RomCast.Proofs.Client.Advance
import RomCast.Proofs.Daemon.Exports
import RomCast.Proofs.Daemon.Moments
import RomCast.Proofs.Daemon.Startup
import RomCast.Proofs.Daemon.FileHistory
import RomCast.Proofs.Daemon.SilentFile
import RomCast.Proofs.Action
import RomCast.Proofs.Link.Related
import RomCast.Proofs.Endpoint.Related
import RomCast.Proofs.Station.Related
import RomCast.Proofs.Link.Pooled
import RomCast.Proofs.Link.Recorded
import RomCast.Proofs.Station.Node
import RomCast.Proofs.Station.Conservation
import RomCast.Proofs.Endpoint.Fifo
import RomCast.Proofs.Endpoint.Addressed
import RomCast.Proofs.Endpoint.RoundTrip
import RomCast.Proofs.Files.Rooted
import RomCast.Proofs.Files.Replace
import RomCast.Proofs.Daemon.Mirror
import RomCast.Proofs.Replica.Reassembly
import RomCast.Proofs.Endpoint.Settled
import RomCast.Proofs.Endpoint.Asking
import RomCast.Proofs.Server.History
import RomCast.Proofs.Server.Serving
import RomCast.Proofs.Resolver
import RomCast.Proofs.Cursor.Appending
import RomCast.Proofs.Endpoint.Submitted
import RomCast.Proofs.Endpoint.Resolution
import RomCast.Proofs.Checked.Step
import RomCast.Proofs.Checked.Cursor
import RomCast.Proofs.Checked.Checksum
import RomCast.Proofs.Checked.Link
import RomCast.Proofs.Checked.Message
import RomCast.Proofs.Checked.Endpoint
import RomCast.Proofs.Checked.Datagram
import RomCast.Proofs.Checked.Receive
import RomCast.Proofs.Checked.Replica
import RomCast.Proofs.Checked.Station
import RomCast.Proofs.Checked.Server
import RomCast.Proofs.Checked.Client
import RomCast.Proofs.Checked.Budget
import RomCast.Proofs.Checked.Traffic
import RomCast.Proofs.Endpoint.PeerOrigin
import RomCast.Proofs.Daemon.Accepted
import RomCast.Proofs.Client.History
import RomCast.Proofs.Client.Requesting
import RomCast.Proofs.Exchange.Subsiding
import RomCast.Proofs.Client.Isolation
import RomCast.Proofs.Link.Refinement
import RomCast.Proofs.Message.RoundTrip
import RomCast.Proofs.Daemon.UpToDate
import RomCast.Proofs.Endpoint.Layout
import RomCast.Proofs.Endpoint.Arrival
import RomCast.Proofs.Endpoint.Delivery
import RomCast.Proofs.Endpoint.Outcomes
import RomCast.Proofs.Endpoint.Backpressure
import RomCast.Proofs.Endpoint.ArpAnswer
import RomCast.Proofs.Endpoint.Packets
import RomCast.Proofs.Server.Packets
import RomCast.Proofs.Daemon.Refreshing
import RomCast.Proofs.Daemon.ServerRuns
import RomCast.Proofs.Daemon.Announcements
import RomCast.Proofs.Replica.Disturbance
import RomCast.Proofs.Replica.Deeds
import RomCast.Proofs.Replica.Tracking
import RomCast.Proofs.Replica.Notifications
import RomCast.Proofs.Daemon.SourceServed
import RomCast.Proofs.Link.Flowing
import RomCast.Proofs.Endpoint.Flowing
import RomCast.Proofs.Endpoint.Abreast
import RomCast.Proofs.Station.Abreast
import RomCast.Proofs.Station.Boundaries
import RomCast.Proofs.Daemon.SourceUnreadable
import RomCast.Proofs.Daemon.ExportHistory
import RomCast.Proofs.Checksum.Arithmetic
import RomCast.Proofs.Endpoint.Damage
import RomCast.Proofs.Text.Parts
import RomCast.Proofs.Mac
import RomCast.Proofs.ModuleName
import RomCast.Proofs.Message.Grammar
import RomCast.Proofs.Publication
import RomCast.Proofs.Config.Usable
import RomCast.Proofs.Cursor.Operations
import RomCast.Proofs.Message.Containment
