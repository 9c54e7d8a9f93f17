/-!
# JSON documents as written

* `Json.Tree`: a document with everything that its text shows. Members of an object keep their
  order and may repeat, numbers keep their digits, and a string may be no text at all when it holds
  half of a surrogate pair.
* `Json.NumberLiteral`: the digits of a number.
-/

namespace WireProtocol

namespace Json

/-- A number as written. The whole part has at least one digit, and none but itself when it begins
with zero. -/
structure NumberLiteral where
  negative : Bool
  whole : List Nat
  fraction : List Nat
  exponent : Option (Bool × List Nat)
deriving DecidableEq, Repr

/-- Whether a number is written without a fraction and without an exponent. -/
def NumberLiteral.isWhole (n : NumberLiteral) : Bool :=
  n.fraction.isEmpty && n.exponent.isNone

/-- A document as written. A string is `none` when its escapes do not make up a text. -/
inductive Tree where
  | null
  | bool (value : Bool)
  | number (literal : NumberLiteral)
  | text (value : Option String)
  | array (items : List Tree)
  | object (members : List (Option String × Tree))

end Json

end WireProtocol
