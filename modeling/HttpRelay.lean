import HttpRelay.Admin.Framework
import HttpRelay.Admin.MediaType
import HttpRelay.Admin.Router
import HttpRelay.Admin.StandardFramework
import HttpRelay.Bytes.Basic
import HttpRelay.Bytes.Cursor
import HttpRelay.Bytes.Word
import HttpRelay.Chunked.Basic
import HttpRelay.Chunked.Copy
import HttpRelay.Chunked.Reader
import HttpRelay.Chunked.Writer
import HttpRelay.Config.Basic
import HttpRelay.Config.Decode
import HttpRelay.Config.Json
import HttpRelay.Config.Load
import HttpRelay.Config.Reload
import HttpRelay.Config.Validation
import HttpRelay.Digest.Base64
import HttpRelay.Digest.Sha1
import HttpRelay.Http.Body
import HttpRelay.Http.Head
import HttpRelay.Http.HeadError
import HttpRelay.Http.Headers
import HttpRelay.Http.Syntax
import HttpRelay.Json.Reader
import HttpRelay.Json.Value
import HttpRelay.Main
import HttpRelay.Net.Address
import HttpRelay.Net.Destination
import HttpRelay.Proofs.Admin.Effects
import HttpRelay.Proofs.Admin.Requests
import HttpRelay.Proofs.Admin.StandardFramework
import HttpRelay.Proofs.Bytes.CursorCalls
import HttpRelay.Proofs.Bytes.CursorReads
import HttpRelay.Proofs.Bytes.ItemCodec
import HttpRelay.Proofs.Chunked.BodyDecoding
import HttpRelay.Proofs.Chunked.Consuming
import HttpRelay.Proofs.Chunked.CopyOutcomes
import HttpRelay.Proofs.Chunked.Copying
import HttpRelay.Proofs.Chunked.Decoding
import HttpRelay.Proofs.Chunked.Driving
import HttpRelay.Proofs.Chunked.Extensions
import HttpRelay.Proofs.Chunked.FramingLimits
import HttpRelay.Proofs.Chunked.FramingLines
import HttpRelay.Proofs.Chunked.Grammar
import HttpRelay.Proofs.Chunked.OpenInput
import HttpRelay.Proofs.Chunked.ReaderSteps
import HttpRelay.Proofs.Chunked.RoundTrip
import HttpRelay.Proofs.Chunked.Schedules
import HttpRelay.Proofs.Chunked.SealedSteps
import HttpRelay.Proofs.Chunked.SizeLine
import HttpRelay.Proofs.Chunked.TrailerLimit
import HttpRelay.Proofs.Chunked.WriterCalls
import HttpRelay.Proofs.Config.CertificateLists
import HttpRelay.Proofs.Config.Reconciling
import HttpRelay.Proofs.Config.Reloading
import HttpRelay.Proofs.Http.FieldLookup
import HttpRelay.Proofs.Http.FieldWriting
import HttpRelay.Proofs.Http.HeadScanning
import HttpRelay.Proofs.Http.HopByHop
import HttpRelay.Proofs.Http.LengthFields
import HttpRelay.Proofs.Http.RequestWriting
import HttpRelay.Proofs.Http.ResponseWriting
import HttpRelay.Proofs.Json.OneField
import HttpRelay.Proofs.Net.AddressText
import HttpRelay.Proofs.Outcome
import HttpRelay.Proofs.Proxy.BodyDelimiting
import HttpRelay.Proofs.Proxy.BodyRelaying
import HttpRelay.Proofs.Proxy.Dialing
import HttpRelay.Proofs.Proxy.FieldRewriting
import HttpRelay.Proofs.Proxy.ForwardedChain
import HttpRelay.Proofs.Proxy.HandOver
import HttpRelay.Proofs.Proxy.HeadReading
import HttpRelay.Proofs.Proxy.KeepAlive
import HttpRelay.Proofs.Proxy.OneResponse
import HttpRelay.Proofs.Proxy.PumpCourse
import HttpRelay.Proofs.Proxy.PumpForwarding
import HttpRelay.Proofs.Proxy.PumpHandshake
import HttpRelay.Proofs.Proxy.PumpMoves
import HttpRelay.Proofs.Proxy.PumpRelay
import HttpRelay.Proofs.Proxy.PumpSafety
import HttpRelay.Proofs.Proxy.Pumps
import HttpRelay.Proofs.Proxy.Replies
import HttpRelay.Proofs.Proxy.RequestFraming
import HttpRelay.Proofs.Proxy.ResponseFraming
import HttpRelay.Proofs.Proxy.Sendings
import HttpRelay.Proofs.Proxy.SentOnce
import HttpRelay.Proofs.Proxy.ServedRequest
import HttpRelay.Proofs.Proxy.SessionMoves
import HttpRelay.Proofs.Proxy.SessionReplies
import HttpRelay.Proofs.Proxy.TransferCodings
import HttpRelay.Proofs.Proxy.UncheckedOrder
import HttpRelay.Proofs.Proxy.UpgradeGate
import HttpRelay.Proofs.Service.Delays
import HttpRelay.Proofs.Simulation.FrameRelayScript
import HttpRelay.Proofs.Text.Elements
import HttpRelay.Proofs.Text.Hexadecimal
import HttpRelay.Proofs.Text.Numerals
import HttpRelay.Proofs.Text.PercentEncoding
import HttpRelay.Proofs.Text.Utf8
import HttpRelay.Proofs.Text.Utf8Decoding
import HttpRelay.Proofs.Throttle.Accounting
import HttpRelay.Proofs.Throttle.Allowances
import HttpRelay.Proofs.Throttle.Conservation
import HttpRelay.Proofs.Throttle.Draining
import HttpRelay.Proofs.Throttle.ExactlyOnce
import HttpRelay.Proofs.Throttle.Interleaving
import HttpRelay.Proofs.Throttle.Isolation
import HttpRelay.Proofs.Throttle.Queues
import HttpRelay.Proofs.Throttle.StreamSteps
import HttpRelay.Proofs.Throttle.Tracing
import HttpRelay.Proofs.Throttle.Transfers
import HttpRelay.Proofs.Throttle.Undisturbed
import HttpRelay.Proofs.Throttle.Usage
import HttpRelay.Proofs.Tls.CertificateChoice
import HttpRelay.Proofs.Tls.HelloGrammar
import HttpRelay.Proofs.Tls.HelloParsing
import HttpRelay.Proofs.Tls.WireNames
import HttpRelay.Proofs.Transport.Buffered
import HttpRelay.Proofs.Transport.FeedReads
import HttpRelay.Proofs.Transport.Incremental
import HttpRelay.Proofs.Transport.Replaying
import HttpRelay.Proofs.WebSocket.AtomicSteps
import HttpRelay.Proofs.WebSocket.Calls
import HttpRelay.Proofs.WebSocket.ClosePayload
import HttpRelay.Proofs.WebSocket.ClosingHandshake
import HttpRelay.Proofs.WebSocket.Duplex
import HttpRelay.Proofs.WebSocket.Exchange
import HttpRelay.Proofs.WebSocket.FragmentOrder
import HttpRelay.Proofs.WebSocket.FrameCodec
import HttpRelay.Proofs.WebSocket.FrameGrammar
import HttpRelay.Proofs.WebSocket.FrameStream
import HttpRelay.Proofs.WebSocket.HeaderGrammar
import HttpRelay.Proofs.WebSocket.MessageCodec
import HttpRelay.Proofs.WebSocket.OrderChecks
import HttpRelay.Proofs.WebSocket.Parties
import HttpRelay.Proofs.WebSocket.ReadOutcomes
import HttpRelay.Proofs.WebSocket.Reassembly
import HttpRelay.Proofs.WebSocket.SizeLimit
import HttpRelay.Proofs.WebSocket.SplitHalves
import HttpRelay.Proofs.WebSocket.StateHistory
import HttpRelay.Proofs.WebSocket.Violations
import HttpRelay.Proofs.WebSocket.WireOctets
import HttpRelay.Proofs.WebSocket.WireRoundTrip
import HttpRelay.Proxy.BodyRelay
import HttpRelay.Proxy.Error
import HttpRelay.Proxy.FrameRelay
import HttpRelay.Proxy.HeadForwarding
import HttpRelay.Proxy.HeadReader
import HttpRelay.Proxy.Link
import HttpRelay.Proxy.Record
import HttpRelay.Proxy.Server
import HttpRelay.Proxy.Session
import HttpRelay.Service.Backoff
import HttpRelay.Service.Listener
import HttpRelay.Service.Registry
import HttpRelay.Service.Signal
import HttpRelay.Service.Tracker
import HttpRelay.Simulation.FrameRelayScript
import HttpRelay.Simulation.SessionScript
import HttpRelay.Simulation.ThrottleScript
import HttpRelay.Text.Blank
import HttpRelay.Text.Number
import HttpRelay.Text.Percent
import HttpRelay.Text.Quoted
import HttpRelay.Text.Scan
import HttpRelay.Text.Shapeless
import HttpRelay.Text.Token
import HttpRelay.Text.Utf8
import HttpRelay.Throttle.Pacing
import HttpRelay.Throttle.Plan
import HttpRelay.Throttle.Scheduler
import HttpRelay.Throttle.Stream
import HttpRelay.Tls.CertificateStore
import HttpRelay.Tls.ClientHello
import HttpRelay.Tls.Extension
import HttpRelay.Tls.Record
import HttpRelay.Tls.SniffError
import HttpRelay.Tls.Version
import HttpRelay.Toml.Document
import HttpRelay.Toml.Quoted
import HttpRelay.Toml.Scalar
import HttpRelay.Toml.Table
import HttpRelay.Toml.Value
import HttpRelay.Transport.Buffered
import HttpRelay.Transport.Feed
import HttpRelay.Transport.IoFailure
import HttpRelay.Transport.Replay
import HttpRelay.WebSocket.Close
import HttpRelay.WebSocket.CloseCode
import HttpRelay.WebSocket.Connection
import HttpRelay.WebSocket.Endpoint
import HttpRelay.WebSocket.Error
import HttpRelay.WebSocket.Frame
import HttpRelay.WebSocket.Handshake
import HttpRelay.WebSocket.Mask
import HttpRelay.WebSocket.State
