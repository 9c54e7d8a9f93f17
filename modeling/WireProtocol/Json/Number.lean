import WireProtocol.Json.Tree

/-!
# The values of JSON numbers

* `Json.Number`: a whole number of 64 bits, or a floating-point number.
* `Json.NumberLiteral.natural?`: the value of a literal that spells a natural number.
* `Json.Number.ofLiteral?`: the value of any literal that has a finite one.

A floating-point value is computed from a significand of 64 bits and a power of ten with one
floating-point operation, or two for the smallest numbers. Digits that do not fit the significand
count only as places.
-/

namespace WireProtocol

namespace Json

/-- One more than the largest significand. -/
def significandBound : Nat := UInt64.size

/-- The significand after a run of digits, and the digits that no longer fit it. -/
def extend (significand : Nat) : List Nat → Nat × List Nat
  | [] => (significand, [])
  | digit :: digits =>
    if significand * 10 + digit < significandBound then
      extend (significand * 10 + digit) digits
    else
      (significand, digit :: digits)

/-- The number that decimal digits spell, if it fits a significand. -/
def digitsValue? (digits : List Nat) : Option Nat :=
  let (value, ignored) := extend 0 digits
  if ignored.isEmpty then some value else none

/-- The number that a literal without fraction and exponent spells, sign aside, if it fits a
significand. -/
def NumberLiteral.whole? (n : NumberLiteral) : Option Nat :=
  if n.isWhole then digitsValue? n.whole else none

/-- The natural number of 64 bits that a literal spells, if it does. -/
def NumberLiteral.natural? (n : NumberLiteral) : Option Nat :=
  if n.negative then none else n.whole?

/-- The value of a number. -/
inductive Number where
  | natural (value : UInt64)
  | negative (value : Int64)
  | float (bits : UInt64)
deriving DecidableEq, Repr

namespace Number

/-- The largest power of ten that a floating-point number can hold. -/
def maxPower : Nat := 308

/-- A floating-point number times a power of ten. There is none past the largest number. -/
def scale? (f : Float) (exponent : Int) : Option Float :=
  if exponent < -(maxPower : Int) then
    if f == 0 then some f
    else scale? (f / Float.ofScientific 1 false maxPower) (exponent + maxPower)
  else if exponent < 0 then
    some (f / Float.ofScientific 1 false exponent.natAbs)
  else if exponent ≤ maxPower then
    let scaled := f * Float.ofScientific 1 false exponent.natAbs
    if scaled.isInf then none else some scaled
  else if f == 0 then
    some f
  else
    none
termination_by exponent.natAbs
decreasing_by
  simp only [maxPower] at *
  omega

/-- The largest exponent that is taken at its value. -/
def maxExponent : Nat := 2147483647

/-- A significand times a power of ten that is written as an offset and an exponent. -/
def magnitude? (significand : Nat) (offset : Int) (exponent : Option (Bool × List Nat)) :
    Option Float :=
  let f := (UInt64.ofNat significand).toFloat
  match exponent with
  | none => scale? f offset
  | some (down, digits) =>
    match (digitsValue? digits).filter (· ≤ maxExponent) with
    | none => if significand != 0 && !down then none else some 0
    | some written =>
      let sum := if down then offset - written else offset + written
      scale? f (max (-(maxExponent + 1 : Int)) (min maxExponent sum))

/-- The floating-point number that a literal spells, without its sign. -/
def floatMagnitude? (n : NumberLiteral) : Option Float :=
  let (significand, skipped) := extend 0 n.whole
  let (significand, ignored) := extend significand n.fraction
  let kept := n.fraction.length - ignored.length
  magnitude? significand (skipped.length - kept) n.exponent

/-- The floating-point number that a literal spells. -/
def float? (n : NumberLiteral) : Option Number :=
  (floatMagnitude? n).map fun f => float (if n.negative then (-f).toBits else f.toBits)

/-- The value of a literal. Whole numbers that do not fit 64 bits, and the negative zero, are
floating-point numbers; a number past the largest of these has no value. -/
def ofLiteral? (n : NumberLiteral) : Option Number :=
  match n.whole? with
  | none => float? n
  | some whole =>
    if !n.negative then some (natural (UInt64.ofNat whole))
    else if 0 < whole ∧ 2 * whole ≤ UInt64.size then
      some (negative (Int64.ofInt (-(whole : Int))))
    else float? n

end Number

end Json

end WireProtocol
