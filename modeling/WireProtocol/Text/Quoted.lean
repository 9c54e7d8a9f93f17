import WireProtocol.Text.Combining
import WireProtocol.Text.Hex
import WireProtocol.Text.Unprintable

/-!
# Quoted text

* `Quoted.escape`: a character as it stands between quotes. Characters that could not be told apart
  by eye are written as their code points.
* `Quoted.quote`: a text between quotes.
-/

namespace WireProtocol

namespace Quoted

/-- A code point in base sixteen, between braces. -/
def codePoint (c : Char) : List Char :=
  ['\\', 'u', '\x7b'] ++ Hex.digits 1 c.toNat ++ ['\x7d']

/-- A character as it stands between double quotes. A single quote needs no escape there. -/
def escape (c : Char) : List Char :=
  if c = '\x00' then ['\\', '0']
  else if c = '\t' then ['\\', 't']
  else if c = '\r' then ['\\', 'r']
  else if c = '\n' then ['\\', 'n']
  else if c = '"' then ['\\', '"']
  else if c = '\\' then ['\\', '\\']
  else if Text.isCombining c || Text.isUnprintable c then codePoint c
  else [c]

/-- A text between double quotes. -/
def quote (text : String) : String :=
  String.ofList ('"' :: text.toList.flatMap escape ++ ['"'])

end Quoted

end WireProtocol
