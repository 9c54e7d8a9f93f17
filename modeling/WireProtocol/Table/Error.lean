import WireProtocol.Text.Hex

/-!
# Errors of field tables

* `TableError`: why a table cannot be written or read.
* `TableError.message`: its text.
-/

namespace WireProtocol

/-- Why a field table cannot be written (`nameTooLong`, `tooLarge`) or read (`truncated`,
`unknownTag`). An offset counts from the start of the innermost container. -/
inductive TableError where
  | nameTooLong (length : Nat)
  | tooLarge (length : Nat)
  | truncated (offset : Nat)
  | unknownTag (tag : UInt8) (offset : Nat)
deriving DecidableEq, Repr

namespace TableError

/-- The text of the error. -/
def message : TableError → String
  | nameTooLong length => String.join ["field name of ", toString length, " bytes exceeds 255"]
  | tooLarge length =>
    String.join ["field value of ", toString length, " bytes exceeds its 32-bit length prefix"]
  | truncated offset => String.join ["field table truncated at byte ", toString offset]
  | unknownTag tag offset =>
    String.join
      ["unknown field value tag 0x", Hex.lower 2 tag.toNat, " at byte ", toString offset]

end TableError

end WireProtocol
