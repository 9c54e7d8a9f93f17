import WireProtocol.Json.Tree

/-!
# Tokens of JSON

* `Json.Token`: the smallest pieces of a document.
* `Json.Token.read?`: the token at the front of a text, and what follows it.
* `Json.tokens?`: all tokens of a text.

Space, tab, line feed and carriage return separate tokens; nothing else does.
-/

namespace WireProtocol

namespace Json

/-- A piece of a document. -/
inductive Token where
  | openArray
  | closeArray
  | openObject
  | closeObject
  | comma
  | colon
  | null
  | bool (value : Bool)
  | number (literal : NumberLiteral)
  | text (value : Option String)

/-- Whether a character separates tokens. -/
def isSpace (c : Char) : Bool :=
  c == ' ' || c == '\t' || c == '\n' || c == '\r'

/-! ## Strings -/

/-- A unit of a string: a character, or one half of a surrogate pair. -/
inductive Unit16 where
  | char (c : Char)
  | leading (bits : Nat)
  | trailing (bits : Nat)

/-- The unit that an escaped code stands for. -/
def Unit16.ofCode (code : Nat) : Unit16 :=
  if 0xd800 ≤ code ∧ code < 0xdc00 then .leading (code - 0xd800)
  else if 0xdc00 ≤ code ∧ code < 0xe000 then .trailing (code - 0xdc00)
  else .char (Char.ofNat code)

/-- The text that units make up. Every leading half has to be followed at once by a trailing one,
and every trailing half to follow a leading one. -/
def join? : List Unit16 → Option (List Char)
  | [] => some []
  | .char c :: units => (join? units).map (c :: ·)
  | .leading high :: .trailing low :: units =>
    (join? units).map (Char.ofNat (0x10000 + high * 0x400 + low) :: ·)
  | .leading _ :: _ => none
  | .trailing _ :: _ => none

/-- The value of a hexadecimal digit. -/
def hexValue? (c : Char) : Option Nat :=
  if '0' ≤ c ∧ c ≤ '9' then some (c.toNat - '0'.toNat)
  else if 'a' ≤ c ∧ c ≤ 'f' then some (c.toNat - 'a'.toNat + 10)
  else if 'A' ≤ c ∧ c ≤ 'F' then some (c.toNat - 'A'.toNat + 10)
  else none

/-- The code that four hexadecimal digits spell. -/
def hexCode? (a b c d : Char) : Option Nat := do
  return (← hexValue? a) * 0x1000 + (← hexValue? b) * 0x100 + (← hexValue? c) * 0x10 +
    (← hexValue? d)

/-- The character that a short escape stands for. -/
def shortEscape? (c : Char) : Option Char :=
  match c with
  | '"' => some '"'
  | '\\' => some '\\'
  | '/' => some '/'
  | 'b' => some '\x08'
  | 'f' => some '\x0c'
  | 'n' => some '\n'
  | 'r' => some '\r'
  | 't' => some '\t'
  | _ => none

/-- The units up to the closing quote, and what follows the quote. -/
def readUnits? : List Char → Option (List Unit16 × List Char)
  | [] => none
  | '"' :: rest => some ([], rest)
  | '\\' :: 'u' :: a :: b :: c :: d :: rest => do
    let code ← hexCode? a b c d
    let (units, rest) ← readUnits? rest
    return (Unit16.ofCode code :: units, rest)
  | '\\' :: e :: rest => do
    let c ← shortEscape? e
    let (units, rest) ← readUnits? rest
    return (.char c :: units, rest)
  | c :: rest =>
    if c = '\\' ∨ c.toNat < 0x20 then none
    else do
      let (units, rest) ← readUnits? rest
      return (.char c :: units, rest)

theorem readUnits?_length {text rest : List Char} {units : List Unit16}
    (h : readUnits? text = some (units, rest)) : rest.length < text.length := by
  fun_induction readUnits? text generalizing units rest with
  | case1 => simp at h
  | case2 => simp_all
  | case3 a b c d tail ih =>
    simp only [bind, Option.bind_eq_some_iff, Prod.exists] at h
    obtain ⟨code, -, units', rest', tailUnits, h⟩ := h
    simp only [pure, Option.some.injEq, Prod.mk.injEq] at h
    obtain ⟨-, rfl⟩ := h
    have := ih tailUnits
    simp only [List.length_cons]
    omega
  | case4 e tail _ ih =>
    simp only [bind, Option.bind_eq_some_iff, Prod.exists] at h
    obtain ⟨c, -, units', rest', tailUnits, h⟩ := h
    simp only [pure, Option.some.injEq, Prod.mk.injEq] at h
    obtain ⟨-, rfl⟩ := h
    have := ih tailUnits
    simp only [List.length_cons]
    omega
  | case5 => simp at h
  | case6 c tail _ _ _ _ ih =>
    simp only [bind, Option.bind_eq_some_iff, Prod.exists] at h
    obtain ⟨units', rest', tailUnits, h⟩ := h
    simp only [pure, Option.some.injEq, Prod.mk.injEq] at h
    obtain ⟨-, rfl⟩ := h
    have := ih tailUnits
    simp only [List.length_cons]
    omega

/-! ## Numbers -/

/-- Whether a character is a decimal digit. -/
def isDigit (c : Char) : Bool :=
  '0' ≤ c && c ≤ '9'

/-- The digits at the front of a text, and what follows them. -/
def readDigits (text : List Char) : List Nat × List Char :=
  ((text.takeWhile isDigit).map fun c => c.toNat - '0'.toNat, text.dropWhile isDigit)

theorem readDigits_length (text : List Char) : (readDigits text).2.length ≤ text.length :=
  (List.dropWhile_sublist isDigit).length_le

/-- A point and the digits of a fraction, of which there is at least one, or nothing. -/
def readFraction? : List Char → Option (List Nat × List Char)
  | '.' :: text =>
    let (digits, rest) := readDigits text
    if digits.isEmpty then none else some (digits, rest)
  | text => some ([], text)

/-- The sign of an exponent and its digits, of which there is at least one. The sign is negative
when the first component is `true`. -/
def readExponentDigits? (text : List Char) : Option ((Bool × List Nat) × List Char) :=
  let (negative, text) :=
    match text with
    | '-' :: text => (true, text)
    | '+' :: text => (false, text)
    | text => (false, text)
  let (digits, rest) := readDigits text
  if digits.isEmpty then none else some ((negative, digits), rest)

/-- An exponent, or nothing. -/
def readExponent? : List Char → Option (Option (Bool × List Nat) × List Char)
  | c :: text =>
    if c = 'e' ∨ c = 'E' then
      (readExponentDigits? text).map fun (exponent, rest) => (some exponent, rest)
    else
      some (none, c :: text)
  | [] => some (none, [])

/-- The digits before the point. A zero in front stands alone. -/
def readWhole? : List Char → Option (List Nat × List Char)
  | '0' :: text => some ([0], text)
  | text =>
    let (digits, rest) := readDigits text
    if digits.isEmpty then none else some (digits, rest)

/-- A number without its sign. -/
def readMagnitude? (negative : Bool) (text : List Char) :
    Option (NumberLiteral × List Char) := do
  let (whole, text) ← readWhole? text
  let (fraction, text) ← readFraction? text
  let (exponent, text) ← readExponent? text
  return (⟨negative, whole, fraction, exponent⟩, text)

/-- A number. -/
def readNumber? : List Char → Option (NumberLiteral × List Char)
  | '-' :: text => readMagnitude? true text
  | text => readMagnitude? false text

/-- Digits that are there are taken from the text. -/
theorem readDigits_lt {text : List Char} (h : (readDigits text).1.isEmpty = false) :
    (readDigits text).2.length < text.length := by
  cases text with
  | nil => simp [readDigits] at h
  | cons c rest =>
    have digit : isDigit c = true := by
      cases hc : isDigit c
      · simp [readDigits, hc] at h
      · rfl
    have := (List.dropWhile_sublist isDigit (l := rest)).length_le
    simp only [readDigits, List.dropWhile_cons, digit, if_true, List.length_cons]
    omega

theorem readWhole?_length {text rest : List Char} {digits : List Nat}
    (h : readWhole? text = some (digits, rest)) : rest.length < text.length := by
  unfold readWhole? at h
  split at h
  · cases h
    simp
  · rename_i text _
    simp only at h
    split at h
    · cases h
    · rename_i some_digit
      cases h
      exact readDigits_lt (by simpa using some_digit)

theorem readFraction?_length {text rest : List Char} {digits : List Nat}
    (h : readFraction? text = some (digits, rest)) : rest.length ≤ text.length := by
  unfold readFraction? at h
  split at h
  · rename_i text
    simp only at h
    split at h
    · cases h
    · cases h
      have := readDigits_length text
      simp only [List.length_cons]
      omega
  · cases h
    exact Nat.le_refl _

theorem readExponentDigits?_length {text rest : List Char} {exponent : Bool × List Nat}
    (h : readExponentDigits? text = some (exponent, rest)) : rest.length ≤ text.length := by
  unfold readExponentDigits? at h
  split at h
  rename_i negative digits sign
  simp only at h
  split at h
  · cases h
  · cases h
    have := readDigits_length digits
    split at sign <;> cases sign
    case h_3 => exact this
    all_goals
      simp only [List.length_cons]
      omega

theorem readExponent?_length {text rest : List Char} {exponent : Option (Bool × List Nat)}
    (h : readExponent? text = some (exponent, rest)) : rest.length ≤ text.length := by
  unfold readExponent? at h
  split at h
  · split at h
    · obtain ⟨⟨found, rest'⟩, read, same⟩ := Option.map_eq_some_iff.mp h
      cases same
      have := readExponentDigits?_length read
      simp only [List.length_cons]
      omega
    · cases h
      exact Nat.le_refl _
  · cases h
    exact Nat.le_refl _

theorem readMagnitude?_length {negative : Bool} {text rest : List Char} {literal : NumberLiteral}
    (h : readMagnitude? negative text = some (literal, rest)) : rest.length < text.length := by
  simp only [readMagnitude?, bind, Option.bind_eq_some_iff, Prod.exists] at h
  obtain ⟨whole, text₁, h₁, fraction, text₂, h₂, exponent, text₃, h₃, same⟩ := h
  simp only [pure, Option.some.injEq, Prod.mk.injEq] at same
  obtain ⟨-, rfl⟩ := same
  have := readWhole?_length h₁
  have := readFraction?_length h₂
  have := readExponent?_length h₃
  omega

/-- A number is never empty. -/
theorem readNumber?_length {text rest : List Char} {literal : NumberLiteral}
    (h : readNumber? text = some (literal, rest)) : rest.length < text.length := by
  unfold readNumber? at h
  split at h
  · have := readMagnitude?_length h
    simp only [List.length_cons]
    omega
  · exact readMagnitude?_length h

/-! ## Tokens -/

/-- The token at the front of a text that begins with one, and what follows it. -/
def Token.read? : List Char → Option (Token × List Char)
  | '[' :: rest => some (openArray, rest)
  | ']' :: rest => some (closeArray, rest)
  | '\x7b' :: rest => some (openObject, rest)
  | '\x7d' :: rest => some (closeObject, rest)
  | ',' :: rest => some (comma, rest)
  | ':' :: rest => some (colon, rest)
  | '"' :: rest => do
    let (units, rest) ← readUnits? rest
    return (text ((join? units).map String.ofList), rest)
  | 'n' :: 'u' :: 'l' :: 'l' :: rest => some (null, rest)
  | 't' :: 'r' :: 'u' :: 'e' :: rest => some (bool true, rest)
  | 'f' :: 'a' :: 'l' :: 's' :: 'e' :: rest => some (bool false, rest)
  | c :: rest => do
    let (literal, rest) ← readNumber? (c :: rest)
    return (number literal, rest)
  | [] => none

theorem Token.read?_length {text rest : List Char} {token : Token}
    (h : read? text = some (token, rest)) : rest.length < text.length := by
  unfold read? at h
  split at h
  case h_7 tail =>
    simp only [bind, Option.bind_eq_some_iff, Prod.exists] at h
    obtain ⟨units, rest', read, h⟩ := h
    simp only [pure, Option.some.injEq, Prod.mk.injEq] at h
    obtain ⟨-, rfl⟩ := h
    have := readUnits?_length read
    simp only [List.length_cons]
    omega
  case h_11 =>
    simp only [bind, Option.bind_eq_some_iff, Prod.exists] at h
    obtain ⟨literal, rest', read, h⟩ := h
    simp only [pure, Option.some.injEq, Prod.mk.injEq] at h
    obtain ⟨-, rfl⟩ := h
    exact readNumber?_length read
  all_goals simp_all
  all_goals
    obtain ⟨-, rfl⟩ := h
    omega

/-- The tokens of a text, or `none` where it holds anything but tokens and the characters that
separate them. -/
def tokens? (text : List Char) : Option (List Token) :=
  match text with
  | [] => some []
  | c :: rest =>
    if isSpace c then
      tokens? rest
    else
      match _h : Token.read? (c :: rest) with
      | none => none
      | some (token, rest') => (tokens? rest').map (token :: ·)
termination_by text.length
decreasing_by
  · simp
  · exact Token.read?_length _h

end Json

end WireProtocol
