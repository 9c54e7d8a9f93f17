import WireProtocol.Codec.Dispatch
import WireProtocol.Emit.Directory
import WireProtocol.Proofs.Codec.Calls
import WireProtocol.Proofs.Codec.Overflow
import WireProtocol.Proofs.Codec.Presence
import WireProtocol.Proofs.Codec.Session
import WireProtocol.Proofs.Codec.Synchronicity
import WireProtocol.Proofs.Codec.Texts
import WireProtocol.Proofs.Description.Fidelity
import WireProtocol.Proofs.Description.Loading
import WireProtocol.Proofs.Description.Session
import WireProtocol.Proofs.Description.Spellings
import WireProtocol.Proofs.Emit.ArtifactNames
import WireProtocol.Proofs.Emit.Clashes
import WireProtocol.Proofs.Emit.Defaults
import WireProtocol.Proofs.Emit.Directory
import WireProtocol.Proofs.Emit.Dispatch
import WireProtocol.Proofs.Emit.Domains
import WireProtocol.Proofs.Emit.Exceptions
import WireProtocol.Proofs.Emit.FieldNames
import WireProtocol.Proofs.Emit.FirstFailure
import WireProtocol.Proofs.Emit.Mirror
import WireProtocol.Proofs.Emit.Panics
import WireProtocol.Proofs.Emit.Synchronicity
import WireProtocol.Proofs.Emit.Template
import WireProtocol.Proofs.Emit.Trace
import WireProtocol.Proofs.Json.Records
import WireProtocol.Proofs.Layout.Packing
import WireProtocol.Proofs.Table.Bounds
import WireProtocol.Proofs.Table.Cutting
import WireProtocol.Proofs.Table.RoundTrip
import WireProtocol.Table.Equality
