/-!
# Shortest decimals

* `Binary64`: a finite number as a significand and a power of two.
* `Binary64.shortest`: the decimal of fewest digits that reads back as the number; of several, the
  nearest, and of two equally near the one with an even last digit.

Everything is computed on natural numbers: the number, the ends of the interval of reals that round
to it, and the points of the decimal grid are brought to a common denominator.
-/

namespace WireProtocol

/-- A positive decimal number: digits, read as a whole number, times a power of ten. -/
structure Decimal where
  digits : Nat
  exponent : Int
deriving DecidableEq, Repr

/-- A positive binary number: a significand times a power of two. `atPower` says that the number
below is only half as far away as the number above. -/
structure Binary64 where
  significand : Nat
  exponent : Int
  atPower : Bool
deriving DecidableEq, Repr

namespace Binary64

/-- The bit of a significand that stands in front of its fraction and is not stored. -/
def hiddenBit : Nat := 1 <<< 52

/-- The magnitude that a bit pattern of a finite number denotes. -/
def ofBits (bits : UInt64) : Binary64 :=
  let fraction : Nat := bits.toNat % hiddenBit
  let biased : Nat := bits.toNat / hiddenBit % 2048
  if biased = 0 then
    ⟨fraction, -1074, false⟩
  else
    ⟨hiddenBit + fraction, (biased : Int) - 1075, fraction == 0 && 1 < biased⟩

/-- Whether a pattern has the sign bit. -/
def isNegative (bits : UInt64) : Bool :=
  UInt64.size ≤ 2 * bits.toNat

/-- Four times the number, and the ends of the interval of reals that round to it, over one
denominator. -/
structure Interval where
  low : Nat
  value : Nat
  high : Nat
  denominator : Nat
  closed : Bool

/-- The interval of a number. Its ends belong to it when the significand is even. -/
def interval (b : Binary64) : Interval :=
  let m := 4 * b.significand
  let low := if b.atPower then m - 1 else m - 2
  let up := Nat.pow 2 (b.exponent - 2).toNat
  let down := Nat.pow 2 (2 - b.exponent).toNat
  ⟨low * up, m * up, (m + 2) * up, down, b.significand % 2 == 0⟩

/-- Whether `digits * 10 ^ exponent` lies in the interval. -/
def Interval.contains (i : Interval) (d : Decimal) : Bool :=
  let point := d.digits * Nat.pow 10 d.exponent.toNat * i.denominator
  let scale := Nat.pow 10 (-d.exponent).toNat
  if i.closed then i.low * scale ≤ point && point ≤ i.high * scale
  else i.low * scale < point && point < i.high * scale

/-- The distance of a decimal from the value, over a denominator that the exponent decides. -/
def Interval.distance (i : Interval) (d : Decimal) : Nat :=
  let point := d.digits * Nat.pow 10 d.exponent.toNat * i.denominator
  let value := i.value * Nat.pow 10 (-d.exponent).toNat
  (point - value) + (value - point)

/-- The largest decimal of that exponent that is not above the value. -/
def Interval.floor (i : Interval) (exponent : Int) : Decimal :=
  ⟨i.value * Nat.pow 10 (-exponent).toNat / (i.denominator * Nat.pow 10 exponent.toNat), exponent⟩

/-- The better of the two neighbours of the value on the grid of an exponent, if one of them lies
in the interval. -/
def Interval.nearest? (i : Interval) (exponent : Int) : Option Decimal :=
  let below := i.floor exponent
  let above : Decimal := ⟨below.digits + 1, exponent⟩
  match i.contains below, i.contains above with
  | false, false => none
  | true, false => some below
  | false, true => some above
  | true, true =>
    if i.distance below < i.distance above then some below
    else if i.distance above < i.distance below then some above
    else if below.digits % 2 = 0 then some below
    else some above

/-- The exponents to try, the coarsest grid first: from above the largest number down to the finest
grid on which a number can lie. -/
def exponents : List Int :=
  (List.range 700).map fun (k : Nat) => 310 - (k : Int)

/-- The decimal of fewest digits that reads back as the number. -/
def shortest (b : Binary64) : Decimal :=
  let i := b.interval
  (exponents.findSome? fun e => (i.nearest? e).filter fun d => d.digits != 0).getD ⟨0, 0⟩

end Binary64

end WireProtocol
