import SchemaWire.Text.Quoted
import SchemaWire.Text.Base64
import SchemaWire.Text.Utf8
import SchemaWire.BigEndian
import SchemaWire.Uuid
import SchemaWire.Digest.Keyed
import SchemaWire.Calendar.Civil
import SchemaWire.Calendar.Span
import SchemaWire.Value
import SchemaWire.Calendar.Timestamp
import SchemaWire.Authentication
import SchemaWire.Phase
import SchemaWire.Version
import SchemaWire.Misfit
import SchemaWire.Scram
import SchemaWire.ServerError
import SchemaWire.Fault
import SchemaWire.Wire.Field
import SchemaWire.Flag
import SchemaWire.Letter
import SchemaWire.Frame
import SchemaWire.Codec.Base
import SchemaWire.Codec.Encode
import SchemaWire.Codec.Decode
import SchemaWire.Connection
import SchemaWire.Connection.Run
import SchemaWire.Connection.Shared
import SchemaWire.Proofs.Calendar.Civil
import SchemaWire.Proofs.Fallible
import SchemaWire.Proofs.Text.Base64
import SchemaWire.Proofs.Text.Utf8
import SchemaWire.Proofs.Wire.Reading
import SchemaWire.Proofs.Codec.RoundTrip
import SchemaWire.Proofs.Connection.Failure
import SchemaWire.Proofs.Scram
import SchemaWire.Proofs.Connection.Authentication
import SchemaWire.Proofs.Message.Client
import SchemaWire.Proofs.Connection.Language
import SchemaWire.Proofs.Wire.Splitting
import SchemaWire.Proofs.Codec.Canonical
import SchemaWire.Proofs.Resolution.Caching
import SchemaWire.Proofs.Resolution.Generations
import SchemaWire.Proofs.Resolution.Coherence
import SchemaWire.Proofs.Wire.Growing
import SchemaWire.Proofs.Wire.Exact
import SchemaWire.Wire.Shape
import SchemaWire.Wire.Operation
import SchemaWire.Proofs.Wire.Shape
import SchemaWire.Proofs.Wire.Items
import SchemaWire.Proofs.Message.Exchange
import SchemaWire.Proofs.Message.Server
import SchemaWire.Proofs.Descriptor
import SchemaWire.Proofs.Connection.Coupling
import SchemaWire.Proofs.Connection.Retention
import SchemaWire.Proofs.SaslSession.Order
import SchemaWire.Proofs.Connection.Output
import SchemaWire.Proofs.Connection.Secrecy
import SchemaWire.Proofs.Connection.Parameters
import SchemaWire.Proofs.Calendar.Counting
import SchemaWire.Proofs.Codec.Timestamp
import SchemaWire.Proofs.Codec.Layout
import SchemaWire.Scram.Run
import SchemaWire.Proofs.Text.Decimal
import SchemaWire.Proofs.Scram.Offer
import SchemaWire.Proofs.Scram.Exchange
import SchemaWire.Proofs.Scram.Grammar
import SchemaWire.Proofs.Wire.Deciding
import SchemaWire.Proofs.Codec.Writing
import SchemaWire.Proofs.Wire.Shortage
import SchemaWire.Proofs.Codec.Weight
import SchemaWire.Proofs.Codec.Renaming
import SchemaWire.Proofs.Connection.StateCodec
import SchemaWire.Proofs.Resolution.Deriving
import SchemaWire.Proofs.Scram.Escape
import SchemaWire.Wire.Routine
import SchemaWire.Proofs.Wire.Moving
import SchemaWire.Proofs.Wire.Bounds
import SchemaWire.Proofs.Flag
import SchemaWire.Proofs.Wire.Extent
