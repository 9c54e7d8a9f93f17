/-!
# Names in descriptions

Descriptions spell names freely; code and diagnostics need one spelling.

* `Naming.fieldName`: a field or function name in small letters, words joined by underscores.
* `Naming.constantName`: a constant name in capital letters, words joined by underscores.
* `Naming.isNoWait`: whether a name is one of the spellings of `no-wait`.
-/

namespace WireProtocol

namespace Naming

/-- A character of a name, with hyphens and spaces as underscores. -/
def joinWords (c : Char) : Char :=
  if c = '-' ∨ c = ' ' then '_' else c

/-- A name in small ASCII letters, words joined by underscores. -/
def fieldName (name : String) : String :=
  String.ofList (name.toList.map fun c => joinWords c.toLower)

/-- A name in capital ASCII letters, words joined by underscores. -/
def constantName (name : String) : String :=
  String.ofList (name.toList.map fun c => joinWords c.toUpper)

/-- Whether a name is `nowait` once hyphens, underscores, spaces and case are disregarded. -/
def isNoWait (name : String) : Bool :=
  (name.toList.filter fun c => !(c == '-' || c == '_' || c == ' ')).map Char.toLower ==
    "nowait".toList

end Naming

end WireProtocol
