import WireProtocol.Json.Value

/-!
# Records in JSON documents

A record is a document with a value for each of a fixed list of keys. It is written as an object,
with the keys in any order and among others, or as the array of the values in the order of the keys.

* `Json.Key`: the name of a value and whether it may be missing.
* `Json.Tree.record?`: the values that a document gives to keys.
* `Json.Tree.natural?` and so on: single values of a required kind.
-/

namespace WireProtocol

namespace Json

/-- Whether a value may be missing. A nullable one may be missing from an object, but in an array
its place has to be filled. -/
inductive Presence where
  | required
  | nullable
  | defaulted
deriving DecidableEq, Repr

/-- The name of a value of a record. -/
structure Key where
  name : String
  presence : Presence
deriving DecidableEq, Repr

/-- The members of an object under their names, if every name is a text. -/
def named? : List (Option String × Tree) → Option (List (String × Tree))
  | [] => some []
  | (name, tree) :: members => do
    let name ← name
    let members ← named? members
    return (name, tree) :: members

/-- The value of a key in an object. A key stands there once, or not at all if it may be missing. -/
def Key.inObject? (key : Key) (members : List (String × Tree)) : Option (Option Tree) :=
  match members.filter (·.1 == key.name) with
  | [] => if key.presence = .required then none else some none
  | [(_, tree)] => some (some tree)
  | _ => none

/-- The values of keys in an array. Only values with a default may be missing from its end. -/
def inArray? : List Key → List Tree → Option (List (Option Tree))
  | [], [] => some []
  | [], _ :: _ => none
  | key :: keys, [] =>
    if key.presence = .defaulted then (inArray? keys []).map (none :: ·) else none
  | _ :: keys, item :: items => (inArray? keys items).map (some item :: ·)

namespace Tree

/-- The values that a document gives to keys, in the order of the keys. -/
def record? (keys : List Key) : Tree → Option (List (Option Tree))
  | object members => do
    let members ← named? members
    keys.mapM (·.inObject? members)
  | array items => inArray? keys items
  | _ => none

/-- A natural number below a bound. -/
def natural? (bound : Nat) : Tree → Option Nat
  | number literal => literal.natural?.filter (· < bound)
  | _ => none

/-- A text. -/
def text? : Tree → Option String
  | text value => value
  | _ => none

/-- A truth value. -/
def bool? : Tree → Option Bool
  | bool value => some value
  | _ => none

/-- The items of an array, each read in the same way. -/
def items? {α : Type} (read? : Tree → Option α) : Tree → Option (List α)
  | array items => items.mapM read?
  | _ => none

end Tree

/-- A value that has to be there. -/
def required? {α : Type} (read? : Tree → Option α) : Option Tree → Option α
  | some tree => read? tree
  | none => none

/-- A value that may be missing. -/
def defaulted? {α : Type} (default : α) (read? : Tree → Option α) : Option Tree → Option α
  | some tree => read? tree
  | none => some default

/-- A value that may be missing or null. -/
def nullable? {α : Type} (read? : Tree → Option α) : Option Tree → Option (Option α)
  | some .null => some none
  | some tree => (read? tree).map some
  | none => some none

end Json

end WireProtocol
