import WireProtocol.Decimal.Shortest
import WireProtocol.Json.Number
import WireProtocol.Text.Hex

/-!
# JSON values

* `Json.Value`: what a document denotes. The members of an object are sorted by name, and each name
  stands once.
* `Json.Value.ofTree?`: the value of a document, if all of its strings are texts, all of its numbers
  are finite, and it is not nested too deeply.
* `Json.Value.compact`: a value as text without spaces.
-/

namespace WireProtocol

namespace Json

/-- What a document denotes. -/
inductive Value where
  | null
  | bool (value : Bool)
  | number (value : Number)
  | text (value : String)
  | array (items : List Value)
  | object (members : List (String × Value))

namespace Value

/-- The last member of each run of members of the same name. -/
def lastOfEach : List (String × Value) → List (String × Value)
  | a :: b :: members =>
    if a.1 = b.1 then lastOfEach (b :: members) else a :: lastOfEach (b :: members)
  | members => members

/-- Members sorted by name, the last of each name. -/
def sortMembers (members : List (String × Value)) : List (String × Value) :=
  lastOfEach (members.mergeSort fun a b => a.1 ≤ b.1)

mutual

/-- The value of a document that is nested at most so many levels deep. -/
def ofTree? (levels : Nat) : Tree → Option Value
  | .null => some null
  | .bool b => some (bool b)
  | .number literal => (Number.ofLiteral? literal).map number
  | .text t => t.map text
  | .array items => if levels = 0 then none else (ofItems? (levels - 1) items).map array
  | .object members =>
    if levels = 0 then none
    else (ofMembers? (levels - 1) members).map fun members => object (sortMembers members)

/-- The values of the items of an array. -/
def ofItems? (levels : Nat) : List Tree → Option (List Value)
  | [] => some []
  | item :: items => do
    let value ← ofTree? levels item
    let values ← ofItems? levels items
    return value :: values

/-- The values of the members of an object, in the order of the document. -/
def ofMembers? (levels : Nat) : List (Option String × Tree) → Option (List (String × Value))
  | [] => some []
  | (name, item) :: members => do
    let name ← name
    let value ← ofTree? levels item
    let values ← ofMembers? levels members
    return (name, value) :: values

end

/-! ## Compact text -/

/-- A character as it stands in a string. -/
def escape (c : Char) : List Char :=
  match c with
  | '"' => ['\\', '"']
  | '\\' => ['\\', '\\']
  | '\x08' => ['\\', 'b']
  | '\x0c' => ['\\', 'f']
  | '\n' => ['\\', 'n']
  | '\r' => ['\\', 'r']
  | '\t' => ['\\', 't']
  | c => if c.toNat < 0x20 then ['\\', 'u'] ++ Hex.digits 4 c.toNat else [c]

/-- A text between quotes. -/
def quote (t : String) : String :=
  String.ofList ('"' :: t.toList.flatMap escape ++ ['"'])

/-- The first and last exponents of the leading digit for which a floating-point number is written
with a point and without an exponent. -/
def positional : Int × Int := (-5, 15)

/-- A positive decimal number as text. It always shows a point or an exponent. -/
def decimalText (d : Decimal) : String :=
  let digits := Nat.toDigits 10 d.digits
  let leading : Int := d.exponent + digits.length - 1
  if positional.1 ≤ leading ∧ leading ≤ positional.2 then
    if leading < 0 then
      "0." ++ String.ofList (List.replicate (leading.natAbs - 1) '0' ++ digits)
    else if 0 ≤ d.exponent then
      String.ofList (digits ++ List.replicate d.exponent.natAbs '0') ++ ".0"
    else
      String.ofList (digits.take (leading.natAbs + 1)) ++ "." ++
        String.ofList (digits.drop (leading.natAbs + 1))
  else
    let point := if digits.length = 1 then "" else "."
    let sign := if leading < 0 then "-" else "+"
    String.ofList (digits.take 1) ++ point ++ String.ofList (digits.drop 1) ++ "e" ++ sign ++
      toString leading.natAbs

/-- The text of a floating-point number: the fewest digits that read back as it. -/
def floatText (bits : UInt64) : String :=
  let magnitude := Binary64.ofBits bits
  let text := if magnitude.significand = 0 then "0.0" else decimalText magnitude.shortest
  if Binary64.isNegative bits then "-" ++ text else text

/-- The text of a number. -/
def numberText : Number → String
  | .natural n => toString n.toNat
  | .negative n => toString n.toInt
  | .float bits => floatText bits

mutual

/-- A value as text without spaces. -/
def compact : Value → String
  | null => "null"
  | bool b => if b then "true" else "false"
  | number n => numberText n
  | text t => quote t
  | array items => "[" ++ ",".intercalate (compactItems items) ++ "]"
  | object members => "\x7b" ++ ",".intercalate (compactMembers members) ++ "\x7d"

/-- The texts of the items of an array. -/
def compactItems : List Value → List String
  | [] => []
  | value :: values => compact value :: compactItems values

/-- The texts of the members of an object. -/
def compactMembers : List (String × Value) → List String
  | [] => []
  | (name, value) :: members => (quote name ++ ":" ++ compact value) :: compactMembers members

end

end Value

end Json

end WireProtocol
