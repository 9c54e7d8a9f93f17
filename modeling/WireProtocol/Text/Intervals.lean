/-!
# Sets of code points

* `Intervals`: a set of numbers as the increasing list of the places where membership changes.
* `Intervals.contains`: membership, which is the parity of the changes passed.
-/

namespace WireProtocol

/-- A set of numbers: the start of each interval and the first number after it, in turn. -/
abbrev Intervals := Array Nat

namespace Intervals

/-- Whether a number lies in one of the intervals. -/
def contains (set : Intervals) (n : Nat) : Bool :=
  set.countP (· ≤ n) % 2 == 1

end Intervals

end WireProtocol
