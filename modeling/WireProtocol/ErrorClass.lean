/-!
# Error classes

The classification that a constant carries.

* `ErrorClass`: plain constants, soft errors (which close a channel) and hard errors (which close
  the connection).
* `ErrorClass.ofTag?`: the class that a tag of a description spells.
-/

namespace WireProtocol

/-- What a constant stands for when a peer reports it. -/
inductive ErrorClass where
  | none
  | soft
  | hard
deriving DecidableEq, Repr

namespace ErrorClass

/-- The name of a class. -/
def name : ErrorClass → String
  | none => "none"
  | soft => "soft-error"
  | hard => "hard-error"

/-- A character of a tag with its spelling differences removed: ASCII letters in upper case,
hyphens and spaces as underscores. -/
def foldTagChar (c : Char) : Char :=
  if c = '-' ∨ c = ' ' then '_' else c.toUpper

/-- The class that a tag spells. The words may be joined by a hyphen, a space or an underscore and
be in either case; the empty tag marks a plain constant. -/
def ofTag? (tag : String) : Option ErrorClass :=
  let folded := tag.toList.map foldTagChar
  if folded = [] then some none
  else if folded = "SOFT_ERROR".toList then some soft
  else if folded = "HARD_ERROR".toList then some hard
  else Option.none

/-- Soft and hard errors are exceptions. -/
def isException : ErrorClass → Bool
  | none => false
  | soft | hard => true

/-- Whether the error closes the connection. -/
def isHard : ErrorClass → Bool
  | hard => true
  | none | soft => false

end ErrorClass

end WireProtocol
