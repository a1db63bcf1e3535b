import PeerMessaging.Address.Ip
import PeerMessaging.Address.IpText
import PeerMessaging.Address.Socket
import PeerMessaging.Bytes
import PeerMessaging.Channel.Arrangement
import PeerMessaging.Channel.Handler
import PeerMessaging.Channel.Idle
import PeerMessaging.Channel.Item
import PeerMessaging.Channel.Operation
import PeerMessaging.Channel.Pipeline
import PeerMessaging.Channel.Rehearsal
import PeerMessaging.Channel.Standard
import PeerMessaging.Channel.Timers
import PeerMessaging.Config.Document
import PeerMessaging.Config.Environment
import PeerMessaging.Config.Files
import PeerMessaging.Config.Settings
import PeerMessaging.Config.Validation
import PeerMessaging.Dispatch
import PeerMessaging.Duration
import PeerMessaging.Exchange.Network
import PeerMessaging.Exchange.Requester
import PeerMessaging.Exchange.Service
import PeerMessaging.Failure
import PeerMessaging.Gather
import PeerMessaging.Message.Basic
import PeerMessaging.Message.Content
import PeerMessaging.Message.Edit
import PeerMessaging.Message.Kind
import PeerMessaging.Peer.Address
import PeerMessaging.Peer.Admission
import PeerMessaging.Peer.Endpoint
import PeerMessaging.Peer.Id
import PeerMessaging.Proofs.Channel.Accounts
import PeerMessaging.Proofs.Channel.Alarms
import PeerMessaging.Proofs.Channel.Arrangement
import PeerMessaging.Proofs.Channel.Asking
import PeerMessaging.Proofs.Channel.Chain
import PeerMessaging.Proofs.Channel.Delivery
import PeerMessaging.Proofs.Channel.Departure
import PeerMessaging.Proofs.Channel.Draining
import PeerMessaging.Proofs.Channel.Failures
import PeerMessaging.Proofs.Channel.Identity
import PeerMessaging.Proofs.Channel.Idleness
import PeerMessaging.Proofs.Channel.Ordering
import PeerMessaging.Proofs.Channel.Serving
import PeerMessaging.Proofs.Channel.Stages
import PeerMessaging.Proofs.Channel.Walks
import PeerMessaging.Proofs.Config.Limits
import PeerMessaging.Proofs.Config.Storage
import PeerMessaging.Proofs.Config.Validity
import PeerMessaging.Proofs.Dispatch.Decisions
import PeerMessaging.Proofs.Dispatch.History
import PeerMessaging.Proofs.Exchange.Correlation
import PeerMessaging.Proofs.Gather.Layout
import PeerMessaging.Proofs.Gather.Refinement
import PeerMessaging.Proofs.Message.Building
import PeerMessaging.Proofs.Message.Layout
import PeerMessaging.Proofs.Message.Packing
import PeerMessaging.Proofs.Message.Slots
import PeerMessaging.Proofs.Message.Store
import PeerMessaging.Proofs.Peer.Subnets
import PeerMessaging.Proofs.Request.Exemption
import PeerMessaging.Proofs.Request.Liveness
import PeerMessaging.Proofs.Request.Reception
import PeerMessaging.Proofs.Request.Replies
import PeerMessaging.Proofs.Request.Resolution
import PeerMessaging.Proofs.Request.Runs
import PeerMessaging.Proofs.Request.Settlement
import PeerMessaging.Proofs.Toml.Documents
import PeerMessaging.Proofs.Toml.Library
import PeerMessaging.Proofs.Toml.Strings
import PeerMessaging.Proofs.Toml.Values
import PeerMessaging.Proofs.Wire.Acceptance
import PeerMessaging.Proofs.Wire.Canonical
import PeerMessaging.Proofs.Wire.Content
import PeerMessaging.Proofs.Wire.Delimiting
import PeerMessaging.Proofs.Wire.Headers
import PeerMessaging.Proofs.Wire.Lengths
import PeerMessaging.Proofs.Wire.Malformed
import PeerMessaging.Proofs.Wire.Packets
import PeerMessaging.Proofs.Wire.Peers
import PeerMessaging.Proofs.Wire.Pieces
import PeerMessaging.Proofs.Wire.Reading
import PeerMessaging.Proofs.Wire.Refusals
import PeerMessaging.Proofs.Wire.RoundTrip
import PeerMessaging.Proofs.Wire.Sections
import PeerMessaging.Proofs.Wire.Signing
import PeerMessaging.Proofs.Wire.Streams
import PeerMessaging.Request.Completion
import PeerMessaging.Request.Correlator
import PeerMessaging.Request.Ids
import PeerMessaging.Request.Waiting
import PeerMessaging.Signature.Ed25519
import PeerMessaging.Signature.Edwards
import PeerMessaging.Signature.Scheme
import PeerMessaging.Signature.Sha512
import PeerMessaging.Sleep
import PeerMessaging.Text.Blank
import PeerMessaging.Text.Numeral
import PeerMessaging.Text.Quoted
import PeerMessaging.Text.Record
import PeerMessaging.Text.Unprintable
import PeerMessaging.Toml.Library
import PeerMessaging.Toml.Printer
import PeerMessaging.Toml.QuoteStyle
import PeerMessaging.Toml.Quoted
import PeerMessaging.Toml.Reader
import PeerMessaging.Toml.Scalar
import PeerMessaging.Toml.Value
import PeerMessaging.Traffic
import PeerMessaging.Wire.Frame
import PeerMessaging.Wire.Packet
import PeerMessaging.Wire.Peer
import PeerMessaging.Wire.Reader
import PeerMessaging.Wire.Section
