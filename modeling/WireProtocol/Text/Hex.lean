/-!
# Hexadecimal digits

* `Hex.lower`, `Hex.upper`: a number in base sixteen, padded with zeros to a least width.
-/

namespace WireProtocol

namespace Hex

/-- The digits of a number in base sixteen, at least `width` of them. -/
def digits (width n : Nat) : List Char :=
  (Nat.toDigits 16 n).leftpad width '0'

/-- Hexadecimal text with small letters. -/
def lower (width n : Nat) : String :=
  String.ofList (digits width n)

/-- Hexadecimal text with capital letters. -/
def upper (width n : Nat) : String :=
  String.ofList ((digits width n).map Char.toUpper)

end Hex

end WireProtocol
