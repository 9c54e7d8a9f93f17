import Mathlib.Data.Nat.Digits.Defs
import WireProtocol.Emit.Token
import WireProtocol.Json.Token

/-!
# Reading literals

* `Literal.bool?`, `Literal.number?`, `Literal.text?`: what a literal in code stands for.
* `Literal.bool?_bool`, `Literal.number?_number`, `Literal.text?_text`: what has been written as a literal
  is read back.

A text is read by the rules of the language of generated code, whichever escapes it is written with.
-/

namespace WireProtocol

namespace Literal

/-! ## Reading -/

/-- The truth value that a word stands for. -/
def bool? (word : String) : Option Bool :=
  if word = "true" then some true else if word = "false" then some false else none

/-- The number of sixteen bits that a word stands for: decimal digits in front of the suffix. -/
def number? (word : String) : Option UInt16 :=
  let digits := word.toList.takeWhile Char.isDigit
  let n := Nat.ofDigitChars 10 digits 0
  if digits ≠ [] ∧ word.toList.drop digits.length = "u16".toList ∧ n < UInt16.size then
    some (UInt16.ofNat n)
  else
    none

/-- The character that a short escape stands for. -/
def shortEscape? (c : Char) : Option Char :=
  match c with
  | '0' => some '\x00'
  | 't' => some '\t'
  | 'r' => some '\r'
  | 'n' => some '\n'
  | '"' => some '"'
  | '\x27' => some '\x27'
  | '\\' => some '\\'
  | _ => none

mutual

/-- The characters behind the quote that opens a string. -/
def chars? : List Char → Option (List Char)
  | [] => none
  | c :: rest =>
    if c = '"' then if rest.isEmpty then some [] else none
    else if c = '\\' then escaped? rest
    else (chars? rest).map (c :: ·)

/-- The characters behind a backslash in a string. -/
def escaped? : List Char → Option (List Char)
  | 'x' :: first :: second :: rest => do
    let c := Char.ofNat (16 * (← Json.hexValue? first) + (← Json.hexValue? second))
    return c :: (← chars? rest)
  | 'u' :: '\x7b' :: rest => pointed? 0 rest
  | c :: rest => do return (← shortEscape? c) :: (← chars? rest)
  | [] => none

/-- The characters from a code point on, of which the number has been read that its first digits spell. -/
def pointed? (n : Nat) : List Char → Option (List Char)
  | [] => none
  | c :: rest =>
    if c = '\x7d' then (chars? rest).map (Char.ofNat n :: ·)
    else do pointed? (16 * n + (← Json.hexValue? c)) rest

end

/-- The text that a word stands for: what is between its quotes. -/
def text? (word : String) : Option String :=
  if word.toList.head? = some '"' then (chars? word.toList.tail).map String.ofList else none

/-! ## Reading back -/

@[simp] theorem bool?_bool (value : Bool) : bool? (if value then "true" else "false") = some value := by
  cases value <;> rfl

@[simp] theorem number?_number (n : UInt16) : number? (toString n.toNat ++ "u16") = some n := by
  have digits : (toString n.toNat).toList = Nat.toDigits 10 n.toNat := by
    rw [Nat.toString_eq_ofList_toDigits, String.toList_ofList]
  have whole : (toString n.toNat ++ "u16").toList = Nat.toDigits 10 n.toNat ++ ['u', '1', '6'] := by
    rw [String.toList_append, digits]
    rfl
  have front : (Nat.toDigits 10 n.toNat ++ ['u', '1', '6']).takeWhile Char.isDigit =
      Nat.toDigits 10 n.toNat := by
    rw [List.takeWhile_append_of_pos fun c member =>
      Nat.isDigit_of_mem_toDigits (by decide) (by decide) member]
    exact List.append_nil _
  have behind : (Nat.toDigits 10 n.toNat ++ ['u', '1', '6']).drop (Nat.toDigits 10 n.toNat).length =
      "u16".toList := List.drop_left
  rw [number?, whole, front, behind, Nat.ofDigitChars_ten_toDigits,
    if_pos ⟨Nat.toDigits_ne_nil, rfl, n.toNat_lt⟩, UInt16.ofNat_toNat]

/-- Numbers begin with a digit, so they are no texts. -/
theorem text?_number (n : UInt16) : text? (toString n.toNat ++ "u16") = none := by
  have read := number?_number n
  rw [text?, if_neg]
  intro quoted
  have digitless : (toString n.toNat ++ "u16").toList.takeWhile Char.isDigit = [] := by
    obtain ⟨rest, spelled⟩ := List.head?_eq_some_iff.mp quoted
    rw [spelled]
    rfl
  rw [number?, digitless, if_neg fun some => some.1 rfl] at read
  cases read

/-! ### Texts -/

theorem hexValue?_digitChar {d : Nat} (low : d < 16) : Json.hexValue? (Nat.digitChar d) = some d := by
  have all : ∀ d < 16, Json.hexValue? (Nat.digitChar d) = some d := by decide
  exact all d low

theorem pointed?_digitChar {d : Nat} (low : d < 16) (n : Nat) (rest : List Char) :
    pointed? n (Nat.digitChar d :: rest) = pointed? (16 * n + d) rest := by
  have other : ∀ d < 16, Nat.digitChar d ≠ '\x7d' := by decide
  rw [pointed?, if_neg (other d low), hexValue?_digitChar low]
  rfl

/-- The digits of a number are read one by one. -/
theorem pointed?_toDigits (n : Nat) (rest : List Char) :
    pointed? 0 (Nat.toDigits 16 n ++ rest) = pointed? n rest := by
  induction n using Nat.strongRecOn generalizing rest with
  | _ n ih =>
    by_cases low : n < 16
    · rw [Nat.toDigits_of_lt_base low, List.singleton_append, pointed?_digitChar low, Nat.mul_zero,
        Nat.zero_add]
    · have high := Nat.not_lt.mp low
      rw [Nat.toDigits_of_base_le (by decide) high, List.append_assoc,
        ih _ (Nat.div_lt_self (by omega) (by decide)), List.singleton_append,
        pointed?_digitChar (Nat.mod_lt n (by decide)), Nat.div_add_mod]

theorem chars?_backslash (rest : List Char) : chars? ('\\' :: rest) = escaped? rest := by
  rw [chars?, if_neg (by decide), if_pos rfl]

theorem chars?_codePoint (c : Char) (rest : List Char) :
    chars? (Quoted.codePoint c ++ rest) = (chars? rest).map (c :: ·) := by
  have digits : Hex.digits 1 c.toNat = Nat.toDigits 16 c.toNat := by
    rw [Hex.digits, List.leftpad, Nat.sub_eq_zero_of_le Nat.length_toDigits_pos]
    rfl
  have whole : Quoted.codePoint c ++ rest =
      '\\' :: 'u' :: '\x7b' :: (Nat.toDigits 16 c.toNat ++ '\x7d' :: rest) := by
    simp [Quoted.codePoint, digits]
  rw [whole, chars?_backslash, escaped?, pointed?_toDigits, pointed?, if_pos rfl, Char.ofNat_toNat]

/-- A short escape stands for its character. -/
theorem chars?_short {mark c : Char} (short : shortEscape? mark = some c) (rest : List Char) :
    chars? ('\\' :: mark :: rest) = (chars? rest).map (c :: ·) := by
  rw [chars?_backslash, escaped?, short]
  · cases chars? rest <;> rfl
  · intro first second behind same
    cases same
    cases short
  · intro behind same
    cases same
    cases short

/-- A character stands between quotes under a short escape, as its code point, or as itself. -/
theorem escape_cases (c : Char) :
    (∃ mark, shortEscape? mark = some c ∧ Quoted.escape c = ['\\', mark]) ∨
      Quoted.escape c = Quoted.codePoint c ∨ (c ≠ '"' ∧ c ≠ '\\' ∧ Quoted.escape c = [c]) := by
  by_cases zero : c = '\x00'
  · exact .inl ⟨'0', by rw [zero]; rfl, by rw [zero]; rfl⟩
  by_cases tab : c = '\t'
  · exact .inl ⟨'t', by rw [tab]; rfl, by rw [tab]; rfl⟩
  by_cases ret : c = '\r'
  · exact .inl ⟨'r', by rw [ret]; rfl, by rw [ret]; rfl⟩
  by_cases line : c = '\n'
  · exact .inl ⟨'n', by rw [line]; rfl, by rw [line]; rfl⟩
  by_cases quote : c = '"'
  · exact .inl ⟨'"', by rw [quote]; rfl, by rw [quote]; rfl⟩
  by_cases slash : c = '\\'
  · exact .inl ⟨'\\', by rw [slash]; rfl, by rw [slash]; rfl⟩
  right
  simp only [Quoted.escape, zero, tab, ret, line, quote, slash, if_false]
  split
  · exact .inl rfl
  · exact .inr ⟨quote, slash, rfl⟩

/-- A character as it stands between quotes is read back. -/
theorem chars?_escape (c : Char) (rest : List Char) :
    chars? (Quoted.escape c ++ rest) = (chars? rest).map (c :: ·) := by
  obtain ⟨mark, short, escaped⟩ | pointed | ⟨quote, slash, plain⟩ := escape_cases c
  · rw [escaped]
    exact chars?_short short rest
  · rw [pointed, chars?_codePoint]
  · rw [plain, List.singleton_append, chars?, if_neg quote, if_neg slash]

/-- So is a zero character, in either of its forms. -/
theorem chars?_escapeZero (next : Option Char) (rest : List Char) :
    chars? (escapeZero next ++ rest) = (chars? rest).map ('\x00' :: ·) := by
  unfold escapeZero
  split
  · change chars? ('\\' :: 'x' :: '0' :: '0' :: rest) = _
    rw [chars?_backslash, escaped?]
    cases chars? rest <;> rfl
  · exact chars?_short rfl rest

theorem chars?_escapeText (text : List Char) : chars? (escapeText text ++ ['"']) = some text := by
  induction text with
  | nil => rfl
  | cons c text ih =>
    rw [escapeText, List.append_assoc]
    by_cases zero : c = '\x00'
    · rw [if_pos zero, chars?_escapeZero, ih, zero]
      rfl
    · rw [if_neg zero, chars?_escape, ih]
      rfl

@[simp] theorem text?_text (value : String) :
    text? (String.ofList ('"' :: escapeText value.toList ++ ['"'])) = some value := by
  rw [text?, String.toList_ofList, List.cons_append, List.head?_cons, if_pos rfl, List.tail_cons,
    chars?_escapeText, Option.map_some, String.ofList_toList]

end Literal

end WireProtocol
