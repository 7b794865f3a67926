import EventCodec.Bytes
import EventCodec.Codec.Bound
import EventCodec.Codec.Cache
import EventCodec.Codec.Flight
import EventCodec.Codec.Lifecycle
import EventCodec.Codec.Overlap
import EventCodec.Codec.Payload
import EventCodec.Codec.Scope
import EventCodec.Codec.Shared
import EventCodec.Config.Basic
import EventCodec.Config.Environment
import EventCodec.Config.File
import EventCodec.Envelope
import EventCodec.Error
import EventCodec.Event.Basic
import EventCodec.Event.Catalogue
import EventCodec.Event.Node
import EventCodec.Event.Raw
import EventCodec.Journal
import EventCodec.Json.Basic
import EventCodec.Json.Record
import EventCodec.Ordered
import EventCodec.Proofs.Codec.Accounts
import EventCodec.Proofs.Codec.Conformance
import EventCodec.Proofs.Codec.Contract
import EventCodec.Proofs.Codec.Evolution
import EventCodec.Proofs.Codec.Expiry
import EventCodec.Proofs.Codec.Flight
import EventCodec.Proofs.Codec.Gate
import EventCodec.Proofs.Codec.Lifecycle
import EventCodec.Proofs.Codec.Outcome
import EventCodec.Proofs.Codec.Payload
import EventCodec.Proofs.Codec.RoundTrip
import EventCodec.Proofs.Codec.Scope
import EventCodec.Proofs.Codec.Shared
import EventCodec.Proofs.Codec.SingleFlight
import EventCodec.Proofs.Codec.Site
import EventCodec.Proofs.Codec.Stage
import EventCodec.Proofs.Codec.Taxonomy
import EventCodec.Proofs.Codec.Waiting
import EventCodec.Proofs.Envelope
import EventCodec.Proofs.Json.Text
import EventCodec.Proofs.Maps
import EventCodec.Proofs.Registry.Atomicity
import EventCodec.Proofs.Registry.Contention
import EventCodec.Proofs.Registry.Deletion
import EventCodec.Proofs.Registry.History
import EventCodec.Proofs.Registry.Memory
import EventCodec.Proofs.Registry.Recorded
import EventCodec.Proofs.Registry.Run
import EventCodec.Proofs.Rest.Address
import EventCodec.Proofs.Rest.Exchange
import EventCodec.Proofs.Rest.Fetching
import EventCodec.Proofs.Rest.Refinement
import EventCodec.Proofs.Schema.Builder
import EventCodec.Proofs.Schema.Compatibility
import EventCodec.Proofs.Schema.Descriptor
import EventCodec.Proofs.Schema.Grammar
import EventCodec.Proofs.Schema.Layout
import EventCodec.Proofs.Schema.Lookup
import EventCodec.Proofs.Schema.Skipping
import EventCodec.Proofs.Schema.Text
import EventCodec.Proofs.Text.Decimal
import EventCodec.Proofs.Url.Path
import EventCodec.Proofs.Url.Percent
import EventCodec.Proofs.Wire.Form
import EventCodec.Proofs.Wire.Record
import EventCodec.Proofs.Wire.Scalar
import EventCodec.Registry.Basic
import EventCodec.Registry.Context
import EventCodec.Registry.Error
import EventCodec.Registry.Memory
import EventCodec.Registry.Schema
import EventCodec.Registry.Staged
import EventCodec.Rest.Client
import EventCodec.Rest.Peer
import EventCodec.Rest.Reply
import EventCodec.Rest.Status
import EventCodec.Schema.Builder
import EventCodec.Schema.Compatibility
import EventCodec.Schema.Descriptor
import EventCodec.Schema.Error
import EventCodec.Schema.Kind
import EventCodec.Schema.Proto.Parser
import EventCodec.Schema.Proto.Printer
import EventCodec.Schema.Proto.Token
import EventCodec.Session.Http
import EventCodec.Session.Memory
import EventCodec.Session.Run
import EventCodec.Session.Step
import EventCodec.Table
import EventCodec.Text.Base64
import EventCodec.Text.Based
import EventCodec.Text.Blank
import EventCodec.Text.Decimal
import EventCodec.Text.Front
import EventCodec.Text.Quoted
import EventCodec.Text.Unprintable
import EventCodec.Toml.Document
import EventCodec.Toml.Plain
import EventCodec.Toml.Quoted
import EventCodec.Toml.Scalar
import EventCodec.Toml.Table
import EventCodec.Url.Address
import EventCodec.Url.Basic
import EventCodec.Url.Domain
import EventCodec.Url.Host
import EventCodec.Url.International
import EventCodec.Url.Path
import EventCodec.Url.Percent
import EventCodec.Url.Punycode
import EventCodec.Wire.Fault
import EventCodec.Wire.Input
import EventCodec.Wire.Key
import EventCodec.Wire.Layout
import EventCodec.Wire.Reader
import EventCodec.Wire.Scalar
import EventCodec.Wire.Skip
import EventCodec.Wire.Varint
import EventCodec.Wire.Writer
