import FlagSidecar.Attribute
import FlagSidecar.Bytes
import FlagSidecar.Cbor.Head
import FlagSidecar.Cbor.Item
import FlagSidecar.Cbor.Reader
import FlagSidecar.Cbor.Value
import FlagSidecar.CommandLine.Ask
import FlagSidecar.CommandLine.Failure
import FlagSidecar.CommandLine.Grammar
import FlagSidecar.CommandLine.Serve
import FlagSidecar.Flag.Basic
import FlagSidecar.Flag.Json
import FlagSidecar.Flag.RuleSet
import FlagSidecar.Flag.Yaml
import FlagSidecar.Flush.Calls
import FlagSidecar.Flush.Log
import FlagSidecar.Flush.Loop
import FlagSidecar.Flush.Pass
import FlagSidecar.Flush.Periodic
import FlagSidecar.Flush.Schedule
import FlagSidecar.Identity
import FlagSidecar.Json.Fields
import FlagSidecar.Json.Number
import FlagSidecar.Json.Value
import FlagSidecar.Link.Client
import FlagSidecar.Link.Codec
import FlagSidecar.Link.Delay
import FlagSidecar.Link.Duplex
import FlagSidecar.Link.Error
import FlagSidecar.Link.Framing
import FlagSidecar.Link.Pipe
import FlagSidecar.Link.Rivals
import FlagSidecar.Link.SocketPath
import FlagSidecar.Link.Stream
import FlagSidecar.Link.Terminal
import FlagSidecar.Link.Transport
import FlagSidecar.Main
import FlagSidecar.NameMap
import FlagSidecar.Number.Basic
import FlagSidecar.Number.Binary64
import FlagSidecar.Number.Decimal
import FlagSidecar.Number.Text
import FlagSidecar.Number.Width
import FlagSidecar.Part
import FlagSidecar.Proofs.Cbor.Head
import FlagSidecar.Proofs.Cbor.Nesting
import FlagSidecar.Proofs.Cbor.Record
import FlagSidecar.Proofs.Cbor.Value
import FlagSidecar.Proofs.CommandLine.Ask
import FlagSidecar.Proofs.CommandLine.Spelling
import FlagSidecar.Proofs.Flag.RuleSet
import FlagSidecar.Proofs.Flag.View
import FlagSidecar.Proofs.Flush.Calls
import FlagSidecar.Proofs.Flush.Delivery
import FlagSidecar.Proofs.Flush.Loop
import FlagSidecar.Proofs.Flush.Passes
import FlagSidecar.Proofs.Flush.Periodic
import FlagSidecar.Proofs.Flush.Schedule
import FlagSidecar.Proofs.Flush.SingleFlight
import FlagSidecar.Proofs.Json.Fields
import FlagSidecar.Proofs.Json.Number
import FlagSidecar.Proofs.Json.Value
import FlagSidecar.Proofs.Link.Classification
import FlagSidecar.Proofs.Link.CutOff
import FlagSidecar.Proofs.Link.Delay
import FlagSidecar.Proofs.Link.Duplex
import FlagSidecar.Proofs.Link.Framing
import FlagSidecar.Proofs.Link.Interchange
import FlagSidecar.Proofs.Link.Lag
import FlagSidecar.Proofs.Link.Rivals
import FlagSidecar.Proofs.Link.RoundTrip
import FlagSidecar.Proofs.Link.Terminal
import FlagSidecar.Proofs.Protocol.Agreement
import FlagSidecar.Proofs.Protocol.Arguments
import FlagSidecar.Proofs.Protocol.Attributes
import FlagSidecar.Proofs.Protocol.Envelope
import FlagSidecar.Proofs.Protocol.Payload
import FlagSidecar.Proofs.Protocol.Request
import FlagSidecar.Proofs.Queue.Batches
import FlagSidecar.Proofs.Queue.Bounded
import FlagSidecar.Proofs.Queue.Capacity
import FlagSidecar.Proofs.Queue.FanIn
import FlagSidecar.Proofs.Queue.History
import FlagSidecar.Proofs.Queue.Linearization
import FlagSidecar.Proofs.Queue.Offers
import FlagSidecar.Proofs.Queue.Ring
import FlagSidecar.Proofs.Queue.Sizing
import FlagSidecar.Proofs.Queue.Threads
import FlagSidecar.Proofs.Record.Grouping
import FlagSidecar.Proofs.Record.Http
import FlagSidecar.Proofs.Record.RoundTrip
import FlagSidecar.Proofs.Service.Acceptor
import FlagSidecar.Proofs.Service.Batching
import FlagSidecar.Proofs.Service.Conversation
import FlagSidecar.Proofs.Service.Direct
import FlagSidecar.Proofs.Service.Endpoint
import FlagSidecar.Proofs.Service.Failure
import FlagSidecar.Proofs.Service.Interference
import FlagSidecar.Proofs.Service.LastFlush
import FlagSidecar.Proofs.Service.Lockstep
import FlagSidecar.Proofs.Service.Offers
import FlagSidecar.Proofs.Service.Parts
import FlagSidecar.Proofs.Service.Pinning
import FlagSidecar.Proofs.Service.Recording
import FlagSidecar.Proofs.Service.Registration
import FlagSidecar.Proofs.Service.Run
import FlagSidecar.Proofs.Service.Server
import FlagSidecar.Proofs.Service.Session
import FlagSidecar.Proofs.Service.ShutdownOrder
import FlagSidecar.Proofs.Service.Slots
import FlagSidecar.Proofs.Service.Sockets
import FlagSidecar.Proofs.Service.Tasks
import FlagSidecar.Proofs.Service.Trace
import FlagSidecar.Proofs.Shutdown.WakeUp
import FlagSidecar.Proofs.Text.Utf8
import FlagSidecar.Proofs.Url.Address
import FlagSidecar.Proofs.Url.Authority
import FlagSidecar.Proofs.Url.Below
import FlagSidecar.Proofs.Url.Cut
import FlagSidecar.Proofs.Url.Domain
import FlagSidecar.Proofs.Url.Escape
import FlagSidecar.Proofs.Url.Front
import FlagSidecar.Proofs.Url.Host
import FlagSidecar.Proofs.Url.ReadBack
import FlagSidecar.Proofs.Url.Segments
import FlagSidecar.Protocol.Arguments
import FlagSidecar.Protocol.Attributes
import FlagSidecar.Protocol.Envelope
import FlagSidecar.Protocol.OpCode
import FlagSidecar.Protocol.Payload
import FlagSidecar.Protocol.Request
import FlagSidecar.Queue.Calls
import FlagSidecar.Queue.Capacity
import FlagSidecar.Queue.FanIn
import FlagSidecar.Queue.History
import FlagSidecar.Queue.Offers
import FlagSidecar.Queue.Ring
import FlagSidecar.Queue.Stats
import FlagSidecar.Queue.Threads
import FlagSidecar.Record.Basic
import FlagSidecar.Record.Http
import FlagSidecar.Record.Json
import FlagSidecar.Record.Upload
import FlagSidecar.Schedule
import FlagSidecar.Service.Acceptor
import FlagSidecar.Service.Connection
import FlagSidecar.Service.Daemon
import FlagSidecar.Service.Dialogue
import FlagSidecar.Service.Dispatcher
import FlagSidecar.Service.Endpoint
import FlagSidecar.Service.Parts
import FlagSidecar.Service.Records
import FlagSidecar.Service.Server
import FlagSidecar.Service.Session
import FlagSidecar.Service.Tasks
import FlagSidecar.Service.Trace
import FlagSidecar.Settings.Config
import FlagSidecar.Settings.File
import FlagSidecar.Settings.Json
import FlagSidecar.Settings.Load
import FlagSidecar.Settings.LoadError
import FlagSidecar.Shutdown.Calls
import FlagSidecar.Shutdown.Coordinator
import FlagSidecar.Text.Blank
import FlagSidecar.Text.Hex
import FlagSidecar.Text.Numeral
import FlagSidecar.Time.Rfc3339
import FlagSidecar.Time.Span
import FlagSidecar.Url.Address
import FlagSidecar.Url.Basic
import FlagSidecar.Url.Escape
import FlagSidecar.Url.Host
import FlagSidecar.Url.Parser
import FlagSidecar.Url.Punycode
import FlagSidecar.Yaml.Cursor
import FlagSidecar.Yaml.Fields
import FlagSidecar.Yaml.Node
import FlagSidecar.Yaml.Scalar
import FlagSidecar.Yaml.Token
