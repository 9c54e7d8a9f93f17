import WireProtocol.Config.Basic
import WireProtocol.Json.Token

/-!
# Settings as TOML

Settings are written as TOML documents. Of these only strings under two keys are meant, so that a
document with anything else (tables, other kinds of values, dotted keys) holds no settings.

* `Toml.entries?`: the strings of a document that holds nothing but strings at its top level.
* `Config.ofToml?`: the settings of a document.
-/

namespace WireProtocol

namespace Toml

/-! ## Characters -/

/-- Whether a character separates tokens of a line. -/
def isSpace (c : Char) : Bool :=
  c == ' ' || c == '\t'

/-- Whether a character may stand in a line: a tab, or anything but a control character. -/
def isInline (c : Char) : Bool :=
  c == '\t' || (0x20 ≤ c.toNat && c.toNat != 0x7f)

/-- What follows the spaces at the front. -/
def skipSpaces (text : List Char) : List Char :=
  text.dropWhile isSpace

/-- What follows a line end at the front. -/
def newline? : List Char → Option (List Char)
  | '\n' :: rest => some rest
  | '\r' :: '\n' :: rest => some rest
  | _ => none

/-- What follows the line end at the front, if there is one. -/
def skipNewline (text : List Char) : List Char :=
  (newline? text).getD text

/-! ## Escapes -/

/-- The code that hexadecimal digits spell, all of them. -/
def hexCode? (digits : List Char) : Option Nat :=
  digits.foldlM (fun n c => (Json.hexValue? c).map (n * 16 + ·)) 0

/-- The character that so many hexadecimal digits at the front stand for, and what follows them. -/
def readCode? (count : Nat) (text : List Char) : Option (Char × List Char) := do
  let digits := text.take count
  if digits.length < count then none
  else
    let code ← hexCode? digits
    if code < 0xd800 ∨ (0xdfff < code ∧ code < 0x110000) then
      return (Char.ofNat code, text.drop count)
    else
      none

/-- The character that an escape stands for, and what follows it. The backslash has been read. -/
def readEscape? : List Char → Option (Char × List Char)
  | 'b' :: rest => some ('\x08', rest)
  | 't' :: rest => some ('\t', rest)
  | 'n' :: rest => some ('\n', rest)
  | 'f' :: rest => some ('\x0c', rest)
  | 'r' :: rest => some ('\r', rest)
  | 'e' :: rest => some ('\x1b', rest)
  | '"' :: rest => some ('"', rest)
  | '\\' :: rest => some ('\\', rest)
  | 'x' :: rest => readCode? 2 rest
  | 'u' :: rest => readCode? 4 rest
  | 'U' :: rest => readCode? 8 rest
  | _ => none

/-! ## Strings

Each reader is given the text behind the opening quotes and the characters of the string so far,
the last one first. It gives the string and what follows the closing quotes. A bound on the number
of steps, which the length of the document is, makes the readers finite. -/

/-- The outcome of reading a string. -/
abbrev Found := Option (String × List Char)

/-- A string of characters, the last one given first. -/
def finish (reversed : List Char) : String :=
  String.ofList reversed.reverse

/-- A string in single quotes, in one line. -/
def readLiteral? (reversed : List Char) : List Char → Found
  | [] => none
  | c :: rest =>
    if c = '\'' then some (finish reversed, rest)
    else if isInline c then readLiteral? (c :: reversed) rest
    else none

/-- A string in double quotes, in one line. -/
def readBasic? (steps : Nat) (reversed text : List Char) : Found :=
  match steps, text with
  | 0, _ => none
  | _, [] => none
  | steps + 1, c :: rest =>
    if c = '"' then some (finish reversed, rest)
    else if c = '\\' then do
      let (escaped, rest) ← readEscape? rest
      readBasic? steps (escaped :: reversed) rest
    else if isInline c then readBasic? steps (c :: reversed) rest
    else none

/-- What a run of quotes means inside a string between three of them: so many quotes that belong to
the string, and whether the string ends. -/
def quoteRun? (length : Nat) : Option (Nat × Bool) :=
  if length < 3 then some (length, false)
  else if length ≤ 5 then some (length - 3, true)
  else none

/-- What follows a backslash at the end of a line: the line end and all blanks behind it are
dropped. -/
def continueLine? (text : List Char) : Option (List Char) := do
  let rest ← newline? (skipSpaces text)
  let blanks := rest.takeWhile fun c => isSpace c || c == '\n' || c == '\r'
  -- A carriage return counts as a blank only in front of a line feed.
  let followers := (rest.drop 1).take blanks.length ++ [' ']
  if (blanks.zip followers).any fun (c, next) => c == '\r' && next != '\n' then none
  else return rest.drop blanks.length

/-- A string between three quotes, over any number of lines. Only in double quotes does it have
escapes. -/
def readLines? (quote : Char) (steps : Nat) (reversed text : List Char) : Found :=
  match steps, text with
  | 0, _ => none
  | _, [] => none
  | steps + 1, c :: rest =>
    if c = quote then do
      let run := (c :: rest).takeWhile (· == quote)
      let (kept, ends) ← quoteRun? run.length
      let reversed := List.replicate kept quote ++ reversed
      let rest := (c :: rest).drop run.length
      if ends then some (finish reversed, rest) else readLines? quote steps reversed rest
    else if c = '\\' ∧ quote = '"' then
      if rest.head?.any fun next => isSpace next || next == '\n' || next == '\r' then do
        readLines? quote steps reversed (← continueLine? rest)
      else do
        let (escaped, rest) ← readEscape? rest
        readLines? quote steps (escaped :: reversed) rest
    else if c = '\r' then
      if rest.head? = some '\n' then readLines? quote steps (c :: reversed) rest else none
    else if c = '\n' ∨ isInline c then
      readLines? quote steps (c :: reversed) rest
    else
      none

/-- A string of any of the four forms. -/
def readString? (steps : Nat) : List Char → Found
  | '"' :: '"' :: '"' :: rest => readLines? '"' steps [] (skipNewline rest)
  | '\'' :: '\'' :: '\'' :: rest => readLines? '\'' steps [] (skipNewline rest)
  | '"' :: rest => readBasic? steps [] rest
  | '\'' :: rest => readLiteral? [] rest
  | _ => none

/-! ## Lines -/

/-- Whether a character may stand in a key without quotes. -/
def isBare (c : Char) : Bool :=
  c.isAlphanum || c == '_' || c == '-'

/-- A key, quoted in one line or not at all. -/
def readKey? (steps : Nat) : List Char → Found
  | '"' :: rest => readBasic? steps [] rest
  | '\'' :: rest => readLiteral? [] rest
  | text =>
    let key := text.takeWhile isBare
    if key.isEmpty then none else some (String.ofList key, text.drop key.length)

/-- A key and its string. -/
def readEntry? (steps : Nat) (text : List Char) : Option ((String × String) × List Char) := do
  let (key, rest) ← readKey? steps text
  match skipSpaces rest with
  | '=' :: rest =>
    let (value, rest) ← readString? steps (skipSpaces rest)
    return ((key, value), rest)
  | _ => none

/-- What follows the rest of a line, which holds nothing but spaces and a comment. -/
def endLine? (text : List Char) : Option (List Char) :=
  let rest :=
    match skipSpaces text with
    | '#' :: comment => comment.dropWhile isInline
    | rest => rest
  match rest with
  | [] => some []
  | rest => newline? rest

/-- A line: at most one entry, and what follows the line. -/
def readLine? (steps : Nat) (text : List Char) :
    Option (Option (String × String) × List Char) :=
  match skipSpaces text with
  | [] => some (none, [])
  | c :: rest =>
    if c = '#' ∨ c = '\n' ∨ c = '\r' then do
      return (none, ← endLine? (c :: rest))
    else do
      let (entry, rest) ← readEntry? steps (c :: rest)
      return (some entry, ← endLine? rest)

/-- The entries of so many lines at most. -/
def readLinesOf? (steps lines : Nat) (text : List Char) : Option (List (String × String)) :=
  match lines, text with
  | _, [] => some []
  | 0, _ => none
  | lines + 1, text => do
    let (entry, rest) ← readLine? steps text
    let entries ← readLinesOf? steps lines rest
    return entry.toList ++ entries

/-- The strings of a document that holds nothing but strings at its top level, in order. A mark of
the byte order in front does not count. -/
def entries? (document : String) : Option (List (String × String)) :=
  let text :=
    match document.toList with
    | '\ufeff' :: rest => rest
    | text => text
  let steps := text.length + 1
  readLinesOf? steps steps text

end Toml

namespace Config

/-- The key of the runtime path. -/
def runtimeCrateKey : String := "runtime-crate"

/-- The key of what the names of files begin with. -/
def artifactStemKey : String := "artifact-prefix"

/-- The settings of a document. Each key may stand there once, and no other key at all. -/
def ofToml? (document : String) : Option Config := do
  let entries ← Toml.entries? document
  let keys := entries.map (·.1)
  if keys.all (fun key => key == runtimeCrateKey || key == artifactStemKey) && keys.Nodup then
    return {
      runtimeCrate := (entries.lookup runtimeCrateKey).getD standard.runtimeCrate
      artifactStem := (entries.lookup artifactStemKey).getD standard.artifactStem }
  else
    none

end Config

end WireProtocol
