import WireProtocol.Config.RuntimePath
import WireProtocol.Emit.Ident
import WireProtocol.Text.Identifier

/-!
# Paths of names

Most runtimes are found by names alone, with `::` between them, and perhaps in front.

* `NamePath`: such a path.
* `NamePath.parse?`: the path that a text spells.
* `PathGrammar.names`: the grammar of these paths. Paths with arguments in angle brackets are none of them.

Blanks and comments may stand around every name and every `::`. Comments that document something are
no blanks.
-/

namespace WireProtocol

/-- A path of names, perhaps with `::` in front. -/
structure NamePath where
  global : Bool
  names : List Ident
deriving DecidableEq, Repr

namespace NamePath

/-! ## Blanks -/

/-- Whether a character separates tokens. The marks of writing direction do, too. -/
def isBlank (c : Char) : Bool :=
  Text.isBlank c || c == '\u200e' || c == '\u200f'

/-- What follows the end of a comment that may hold others, so many of which are open. -/
def skipBlock? (depth : Nat) : List Char → Option (List Char)
  | '/' :: '*' :: rest => skipBlock? (depth + 1) rest
  | '*' :: '/' :: rest => if depth ≤ 1 then some rest else skipBlock? (depth - 1) rest
  | _ :: rest => skipBlock? depth rest
  | [] => none

/-- What follows a comment at the front. Comments that begin like documentation are none. -/
def skipComment? : List Char → Option (List Char)
  | '/' :: '/' :: '/' :: '/' :: rest => some (rest.dropWhile (· != '\n'))
  | '/' :: '/' :: '/' :: _ => none
  | '/' :: '/' :: '!' :: _ => none
  | '/' :: '/' :: rest => some (rest.dropWhile (· != '\n'))
  | '/' :: '*' :: '*' :: '/' :: rest => some rest
  | '/' :: '*' :: '*' :: '*' :: rest => skipBlock? 1 ('*' :: '*' :: rest)
  | '/' :: '*' :: '*' :: _ => none
  | '/' :: '*' :: '!' :: _ => none
  | '/' :: '*' :: rest => skipBlock? 1 rest
  | _ => none

theorem skipBlock?_length {depth : Nat} {text rest : List Char}
    (h : skipBlock? depth text = some rest) : rest.length < text.length := by
  fun_induction skipBlock? depth text with
  | case1 depth tail ih =>
    have := ih h
    simp only [List.length_cons]
    omega
  | case2 depth tail =>
    cases h
    simp only [List.length_cons]
    omega
  | case3 depth tail _ ih =>
    have := ih h
    simp only [List.length_cons]
    omega
  | case4 depth c tail _ _ ih =>
    have := ih h
    simp only [List.length_cons]
    omega
  | case5 => cases h

theorem skipComment?_length {text rest : List Char} (h : skipComment? text = some rest) :
    rest.length < text.length := by
  have line (tail : List Char) : (tail.dropWhile (· != '\n')).length ≤ tail.length :=
    (List.dropWhile_sublist _).length_le
  unfold skipComment? at h
  split at h
  case h_1 | h_4 =>
    cases h
    refine Nat.lt_of_le_of_lt (line _) ?_
    simp only [List.length_cons]
    omega
  case h_5 =>
    cases h
    simp only [List.length_cons]
    omega
  case h_6 | h_9 =>
    have := skipBlock?_length h
    simp only [List.length_cons] at *
    omega
  all_goals cases h

/-- What follows a blank or a comment at the front. -/
def skipOne? : List Char → Option (List Char)
  | [] => none
  | c :: rest => if isBlank c then some rest else skipComment? (c :: rest)

theorem skipOne?_length {text rest : List Char} (h : skipOne? text = some rest) :
    rest.length < text.length := by
  unfold skipOne? at h
  split at h
  · cases h
  · split at h
    · cases h
      simp
    · exact skipComment?_length h

/-- What follows all blanks and comments at the front. -/
def skipBlanks (text : List Char) : List Char :=
  match _h : skipOne? text with
  | none => text
  | some rest => skipBlanks rest
termination_by text.length
decreasing_by exact skipOne?_length _h

/-! ## Paths -/

/-- Words that are no names, though they look like names. -/
def reserved : List String :=
  ["_", "abstract", "as", "async", "await", "become", "box", "break", "const", "continue", "do",
    "dyn", "else", "enum", "extern", "false", "final", "fn", "for", "if", "impl", "in", "let",
    "loop", "macro", "match", "mod", "move", "mut", "override", "priv", "pub", "ref", "return",
    "static", "struct", "trait", "true", "type", "typeof", "unsafe", "unsized", "use", "virtual",
    "where", "while", "yield"]

/-- Words that the raw form does not turn into names. -/
def neverRaw : List String :=
  ["_", "super", "self", "Self", "crate"]

/-- A word at the front, and what follows it. -/
def readWord? : List Char → Option (String × List Char)
  | [] => none
  | c :: rest =>
    if c = '_' ∨ Text.isIdentifierStart c then
      let tail := rest.takeWhile Text.isIdentifierContinue
      some (String.ofList (c :: tail), rest.drop tail.length)
    else
      none

/-- A name at the front, and what follows it. -/
def readName? (text : List Char) : Option (Ident × List Char) :=
  match text with
  | 'r' :: '#' :: rest => do
    let (word, rest) ← readWord? rest
    if neverRaw.contains word then none else return (.raw word, rest)
  | text => do
    let (word, rest) ← readWord? text
    if reserved.contains word then none else return (.plain word, rest)

/-- So many names at most, with `::` between them and nothing behind. -/
def readNames? (count : Nat) (text : List Char) : Option (List Ident) :=
  match count with
  | 0 => none
  | count + 1 => do
    let (name, rest) ← readName? (skipBlanks text)
    match skipBlanks rest with
    | [] => return [name]
    | ':' :: ':' :: rest => return name :: (← readNames? count rest)
    | _ => none

/-- The path that a text spells. A mark of the byte order in front does not count. -/
def parse? (source : String) : Option NamePath :=
  let text :=
    match source.toList with
    | '\ufeff' :: rest => rest
    | text => text
  match skipBlanks text with
  | ':' :: ':' :: rest => (readNames? (rest.length + 1) rest).map (⟨true, ·⟩)
  | rest => (readNames? (rest.length + 1) rest).map (⟨false, ·⟩)

/-! ## Tokens -/

/-- The tokens of the path. -/
def tokens (path : NamePath) : List String :=
  let tokens := path.names.flatMap fun name => ["::", name.text]
  if path.global then tokens else tokens.tail

theorem readWord?_ne_empty {text rest : List Char} {word : String}
    (h : readWord? text = some (word, rest)) : word ≠ "" := by
  cases text with
  | nil => cases h
  | cons c behind =>
    rw [readWord?] at h
    split at h
    · cases h
      simp
    · cases h

theorem readName?_ne_empty {text rest : List Char} {name : Ident}
    (h : readName? text = some (name, rest)) : name.text ≠ "" := by
  unfold readName? at h
  split at h
  · obtain ⟨⟨word, behind⟩, -, h⟩ := Option.bind_eq_some_iff.mp h
    dsimp only at h
    split at h
    · cases h
    · cases h
      simp [Ident.text]
  · obtain ⟨⟨word, behind⟩, read, h⟩ := Option.bind_eq_some_iff.mp h
    dsimp only at h
    split at h
    · cases h
    · cases h
      exact readWord?_ne_empty read

/-- There is a name in a path, and none is empty. -/
theorem readNames?_ne_empty {count : Nat} {text : List Char} {names : List Ident}
    (h : readNames? count text = some names) : names ≠ [] ∧ ∀ name ∈ names, name.text ≠ "" := by
  induction count generalizing text names with
  | zero => cases h
  | succ count ih =>
    rw [readNames?] at h
    obtain ⟨⟨first, rest⟩, read, h⟩ := Option.bind_eq_some_iff.mp h
    dsimp only at h
    split at h
    · cases h
      simpa using readName?_ne_empty read
    · obtain ⟨others, among, h⟩ := Option.bind_eq_some_iff.mp h
      cases h
      exact ⟨List.cons_ne_nil _ _, List.forall_mem_cons.mpr ⟨readName?_ne_empty read, (ih among).2⟩⟩
    · cases h

theorem parse?_ne_empty {source : String} {path : NamePath} (h : parse? source = some path) :
    path.names ≠ [] ∧ ∀ name ∈ path.names, name.text ≠ "" := by
  unfold parse? at h
  dsimp only at h
  split at h
  all_goals
    obtain ⟨names, read, rfl⟩ := Option.map_eq_some_iff.mp h
    exact readNames?_ne_empty read

theorem tokens_ne_nil {path : NamePath} (some : path.names ≠ []) : path.tokens ≠ [] := by
  obtain ⟨first, others, names⟩ := List.exists_cons_of_ne_nil some
  unfold tokens
  cases path.global <;> simp [names]

theorem token_ne_empty {path : NamePath} (named : ∀ name ∈ path.names, name.text ≠ "") :
    ∀ token ∈ path.tokens, token ≠ "" := by
  have all : ∀ token ∈ path.names.flatMap fun name => ["::", name.text], token ≠ "" := by
    intro token member
    obtain ⟨name, listed, among⟩ := List.mem_flatMap.mp member
    obtain rfl | rfl : token = "::" ∨ token = name.text := by simpa using among
    · decide
    · exact named name listed
  unfold tokens
  cases path.global with
  | true => exact all
  | false => exact fun token member => all token (List.mem_of_mem_tail member)

end NamePath

/-- The grammar of the paths that consist of names. -/
def PathGrammar.names : PathGrammar where
  parse? source := (NamePath.parse? source).pmap
    (fun path named => ⟨path.tokens, NamePath.tokens_ne_nil named.1, NamePath.token_ne_empty named.2⟩)
    fun _ => NamePath.parse?_ne_empty

end WireProtocol
