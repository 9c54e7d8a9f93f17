import WireProtocol.Emit.Ident
import WireProtocol.Text.Quoted

/-!
# Tokens of generated code

* `Token`: a word, an identifier, a group in brackets, or the place of the runtime path.
* `Tokens.render`: tokens as text, with one space between any two.
* `Literal`: literals as they are written in code.

Generated code is independent of the runtime path; it only has places for it.
-/

namespace WireProtocol

/-- The brackets around a group. -/
inductive Delimiter where
  | parenthesis
  | bracket
  | brace
deriving DecidableEq, Repr

/-- The text of a group with that content. -/
def Delimiter.wrap (delimiter : Delimiter) (content : String) : String :=
  match delimiter with
  | parenthesis => "(" ++ content ++ ")"
  | bracket => "[" ++ content ++ "]"
  | brace => if content.isEmpty then "\x7b \x7d" else "\x7b " ++ content ++ " \x7d"

/-- A piece of generated code. -/
inductive Token where
  | word (text : String)
  | ident (id : Ident)
  | runtime
  | group (delimiter : Delimiter) (content : List Token)

/-- Generated code. -/
abbrev Tokens := List Token

namespace Tokens

mutual

/-- The text of a token, given the text of the runtime path. -/
def renderToken (path : String) : Token → String
  | .word text => text
  | .ident id => id.text
  | .runtime => path
  | .group delimiter content => delimiter.wrap (" ".intercalate (renderAll path content))

/-- The texts of tokens, given the text of the runtime path. -/
def renderAll (path : String) : List Token → List String
  | [] => []
  | token :: tokens => renderToken path token :: renderAll path tokens

end

/-- Tokens as text. -/
def render (path : String) (tokens : Tokens) : String :=
  " ".intercalate (renderAll path tokens)

/-! ## Writing tokens down -/

/-- The words of a text, which single spaces separate. -/
def words (text : String) : Tokens :=
  (text.splitOn " ").map .word

/-- A group in parentheses. -/
def parens (content : Tokens) : Tokens :=
  [.group .parenthesis content]

/-- A group in square brackets. -/
def brackets (content : Tokens) : Tokens :=
  [.group .bracket content]

/-- A group in braces. -/
def braces (content : Tokens) : Tokens :=
  [.group .brace content]

/-- An identifier. -/
def name (id : Ident) : Tokens :=
  [.ident id]

/-- Something that the runtime provides. -/
def runtime (item : String) : Tokens :=
  .runtime :: words (":: " ++ item)

/-- Elements with commas between them. -/
def commaSeparated (elements : List Tokens) : Tokens :=
  ([Token.word ","] : Tokens).intercalate elements

/-- Elements with a comma behind each. -/
def commaTerminated (elements : List Tokens) : Tokens :=
  elements.flatMap fun element => element ++ words ","

end Tokens

namespace Literal

open Tokens

/-- A number with the suffix of its type. -/
def number (n : Nat) (suffix : String) : Tokens :=
  [.word (toString n ++ suffix)]

/-- A truth value. -/
def bool (value : Bool) : Tokens :=
  [.word (if value then "true" else "false")]

/-- Sixteen flags. -/
def flags (value : UInt16) : Tokens :=
  [.word ("0x" ++ Hex.lower 4 value.toNat ++ "u16")]

/-- Whether a zero in front of the character could be taken for part of an octal escape. -/
def isOctal (c : Char) : Bool :=
  '0' ≤ c && c ≤ '7'

/-- The zero character or octet in front of others. -/
def escapeZero (next : Option Char) : List Char :=
  if next.any isOctal then ['\\', 'x', '0', '0'] else ['\\', '0']

/-- Characters as they stand in a string. -/
def escapeText : List Char → List Char
  | [] => []
  | c :: rest =>
    (if c = '\x00' then escapeZero rest.head? else Quoted.escape c) ++ escapeText rest

/-- A string. -/
def text (value : String) : Tokens :=
  [.word (String.ofList ('"' :: escapeText value.toList ++ ['"']))]

/-- An octet other than zero as it stands in a string of octets. -/
def escapeOctet (octet : UInt8) : List Char :=
  let c := Char.ofNat octet.toNat
  if c = '\t' then ['\\', 't']
  else if c = '\n' then ['\\', 'n']
  else if c = '\r' then ['\\', 'r']
  else if c = '"' then ['\\', '"']
  else if c = '\\' then ['\\', '\\']
  else if 0x20 ≤ octet ∧ octet ≤ 0x7e then [c]
  else '\\' :: 'x' :: (Hex.upper 2 octet.toNat).toList

/-- Octets as they stand in a string of octets. -/
def escapeOctets : List UInt8 → List Char
  | [] => []
  | octet :: rest =>
    (if octet = 0 then escapeZero (rest.head?.map fun next => Char.ofNat next.toNat)
      else escapeOctet octet) ++ escapeOctets rest

/-- A string of octets. -/
def octets (value : List UInt8) : Tokens :=
  [.word (String.ofList ('b' :: '"' :: escapeOctets value ++ ['"']))]

end Literal

end WireProtocol
