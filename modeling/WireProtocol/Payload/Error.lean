import WireProtocol.Bytes.BigEndian
import WireProtocol.Table.Error

/-!
# Errors of payloads

* `FrameError`: why a payload cannot be read or written, and which names and numbers of a peer are
  unknown.
* `FrameError.message`: its text.
-/

namespace WireProtocol

/-- What can go wrong between a peer and the codecs of a protocol. -/
inductive FrameError where
  | framing (name : String) (payload : Bytes)
  | invalidUtf8 (name : String)
  | longStrOverflow (length : Nat)
  | reservedFlags (classId flags : UInt16)
  | shortStrOverflow (length : Nat)
  | table (name : String) (source : TableError)
  | unknownClassId (id : UInt16)
  | unknownClassName (name : String)
  | unknownMethodId (classId methodId : UInt16)
deriving DecidableEq, Repr

namespace FrameError

/-- The text of the error. -/
def message : FrameError → String
  | framing name payload =>
    String.join
      ["frame error in ", name, ": ", toString payload.length, " bytes do not match its layout"]
  | invalidUtf8 name => String.join ["invalid utf-8 in a short string of ", name]
  | longStrOverflow length =>
    String.join ["long string of ", toString length, " bytes exceeds its 32-bit length prefix"]
  | reservedFlags classId flags =>
    String.join
      ["reserved property flags 0x", Hex.lower 4 flags.toNat, " set for class ", toString classId]
  | shortStrOverflow length =>
    String.join ["short string of ", toString length, " bytes exceeds 255"]
  | table name source => String.join ["malformed field table in ", name, ": ", source.message]
  | unknownClassId id => String.join ["unknown class id ", toString id]
  | unknownClassName name => String.join ["unknown class name '", name, "'"]
  | unknownMethodId classId methodId =>
    String.join ["unknown method id ", toString classId, "/", toString methodId]

end FrameError

end WireProtocol
