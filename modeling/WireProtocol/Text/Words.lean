/-!
# Words of a name

A name is split into words at separators and where the case of its letters, or a digit, begins
something new. Written together with capitals the words make up the name of a type.

* `Words.split`: the words of a name.
* `Words.pascal`: the words, each with a capital in front.

Letters outside ASCII count only where a change of case turns them into ASCII letters. A name that
keeps any other letter is no identifier, whatever its case.
-/

namespace WireProtocol

namespace Words

/-- What a character does in a name. -/
inductive Role where
  | lower
  | upper
  | digit
  | separator
  | other
deriving DecidableEq, Repr

/-- The letters outside ASCII whose capitals are ASCII letters. -/
def capitals : List (Char × String) :=
  [('ß', "SS"), ('ı', "I"), ('ſ', "S"), ('ﬀ', "FF"), ('ﬁ', "FI"), ('ﬂ', "FL"), ('ﬃ', "FFI"),
    ('ﬄ', "FFL"), ('ﬅ', "ST"), ('ﬆ', "ST")]

/-- The sign for the kelvin, the one letter outside ASCII whose small letter is an ASCII letter. -/
def kelvin : Char := '\u212a'

/-- The capital of a letter, which may be several letters. -/
def toUpper (c : Char) : List Char :=
  match capitals.lookup c with
  | some letters => letters.toList
  | none => [c.toUpper]

/-- The small letter of a letter. -/
def toLower (c : Char) : Char :=
  if c = kelvin then 'k' else c.toLower

/-- The role of a character. -/
def role (c : Char) : Role :=
  if c = '_' ∨ c = '-' ∨ c = ' ' then .separator
  else if c.isDigit then .digit
  else if c.isUpper ∨ c = kelvin then .upper
  else if c.isLower ∨ (capitals.lookup c).isSome then .lower
  else .other

/-- Whether a word ends between two characters, the second of which is followed by a third. A run
of capitals ends in front of its last one if a small letter follows. -/
def isBoundary (a b : Char) (next : Option Char) : Bool :=
  match role a, role b with
  | .lower, .upper | .lower, .digit | .upper, .digit | .digit, .lower | .digit, .upper => true
  | .upper, .upper => next.any fun c => role c == .lower
  | _, _ => false

/-- A word in front of others, unless it is empty. -/
def flush (word : List Char) (words : List (List Char)) : List (List Char) :=
  if word.isEmpty then words else word :: words

/-- The words of a name of which the beginning of the first is already known. -/
def splitFrom (word : List Char) : List Char → List (List Char)
  | [] => flush word []
  | a :: rest =>
    if role a = .separator then
      flush word (splitFrom [] rest)
    else
      match rest with
      | [] => [word ++ [a]]
      | b :: after =>
        if isBoundary a b after.head? then
          (word ++ [a]) :: splitFrom [] rest
        else
          splitFrom (word ++ [a]) rest

/-- The words of a name, none of them empty. -/
def split (name : List Char) : List (List Char) :=
  splitFrom [] name

/-- A word with a capital in front and small letters behind it. -/
def capitalize : List Char → List Char
  | [] => []
  | c :: rest => toUpper c ++ rest.map toLower

/-- The words of a name, each with a capital in front, written together. -/
def pascal (name : String) : String :=
  String.ofList ((split name.toList).flatMap capitalize)

end Words

end WireProtocol
