import WireProtocol.Bytes.BigEndian

/-!
# UTF-8

* `Utf8.isWellFormed`: whether octets are the encoding of a text.
* `Utf8.encode`, `Utf8.decode?`: texts as octets and back.
-/

namespace WireProtocol

namespace Utf8

/-- Whether octets encode a sequence of characters. Overlong forms, surrogates and code points past
the last plane encode none. -/
def isWellFormed (octets : Bytes) : Bool :=
  octets.toByteArray.validateUTF8

/-- The octets of a text. -/
def encode (text : String) : Bytes :=
  text.toList.flatMap String.utf8EncodeChar

/-- The text that octets encode, if they encode one. -/
def decode? (octets : Bytes) : Option String :=
  String.fromUTF8? octets.toByteArray

/-- Octets are well formed when they are the encoding of some characters. -/
theorem isWellFormed_iff {octets : Bytes} :
    isWellFormed octets = true ↔ ∃ text : List Char, octets.toByteArray = text.utf8Encode := by
  unfold isWellFormed
  rw [ByteArray.validateUTF8_eq_true_iff]
  exact ⟨fun ⟨text, h⟩ => ⟨text, h⟩, fun ⟨text, h⟩ => ⟨text, h⟩⟩

end Utf8

end WireProtocol
