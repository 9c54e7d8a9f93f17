import WireProtocol.Emit.MethodCode
import WireProtocol.Proofs.Emit.Scan

/-!
# What the statements of method codecs say

The tokens of each statement, and what is found in them.

* `DecoderPiece`: the calls of the reader in a piece of a decoder, the locals that it defines, and the
  fields of the record.
* `DecoderCode.piece_body`: what there is in the body of a decoder.
* `EncoderCode.scans_body`: the calls of the writer in the body of an encoder.
-/

namespace WireProtocol

open Tokens

/-! ## Decoders -/

/-- The reader of a payload. -/
def readerValue (owner : String) : Tokens :=
  [.runtime, .word "::", .word "Reader", .word "::", .word "new",
    .group .parenthesis (Literal.text owner ++ [.word ",", .word "payload"])]

/-- What there is in a piece of a decoder: calls of the reader, locals with their values, and fields of
the record with theirs. -/
structure DecoderPiece (tokens : Tokens) (calls bindings : List (String × Tokens))
    (initializers : List (String × String)) : Prop where
  calls : Scans (callAt? "r") tokens calls
  bindings : Scans bindingAt? tokens bindings
  initializers : Scans initializerAt? tokens initializers

namespace DecoderPiece

variable {first second : Tokens} {calls calls' bindings bindings' : List (String × Tokens)}
  {initializers initializers' : List (String × String)}

theorem append (h : DecoderPiece first calls bindings initializers)
    (h' : DecoderPiece second calls' bindings' initializers') :
    DecoderPiece (first ++ second) (calls ++ calls') (bindings ++ bindings')
      (initializers ++ initializers') :=
  ⟨h.calls.append h'.calls, h.bindings.append h'.bindings, h.initializers.append h'.initializers⟩

theorem flatMap {α : Type} {code : α → Tokens} {calls bindings : α → List (String × Tokens)}
    {initializers : α → List (String × String)} {parts : List α}
    (each : ∀ part ∈ parts, DecoderPiece (code part) (calls part) (bindings part) (initializers part)) :
    DecoderPiece (parts.flatMap code) (parts.flatMap calls) (parts.flatMap bindings)
      (parts.flatMap initializers) :=
  ⟨.flatMap fun part inside => (each part inside).calls,
    .flatMap fun part inside => (each part inside).bindings,
    .flatMap fun part inside => (each part inside).initializers⟩

end DecoderPiece

namespace DecoderCode

/-- What is read by a step. -/
def readValue (call : Ident) : Tokens :=
  [.word "r", .word ".", .ident call, .group .parenthesis [], .word "?"]

/-- A bit of an octet. -/
def bitValue (source : Ident) (mask : UInt8) : Tokens :=
  [.group .parenthesis [.ident source, .word "&", .word (toString mask.toNat ++ "u8")], .word "!=",
    .word "0u8"]

/-- The locals that a statement behind the end of the payload defines. -/
def checkBindings : CheckStatement → List (String × Tokens)
  | .text _ => []
  | .bit target source mask => [(target.text, bitValue source mask)]

theorem readTokens_eq (s : ReadStatement) : readTokens s =
    .word "let" :: .ident s.target :: .word "=" :: (readValue s.call ++ [.word ";"]) := by
  simp only [readTokens, words_eq]
  rfl

theorem piece_readTokens (s : ReadStatement) : DecoderPiece (readTokens s) [(s.call.text, [])]
    [(s.target.text, readValue s.call)] [] where
  calls := by
    intro rest
    simp [readTokens_eq, readValue, callAt?]
  bindings := by
    intro rest
    simp [readTokens_eq, readValue, bindingAt?]
  initializers := by
    intro rest
    simp [readTokens_eq, readValue, initializerAt?]

theorem checkTokens_text (owner : String) (slot : Ident) : checkTokens owner (.text slot) =
    [.runtime, .word "::", .word "assert_utf8",
      .group .parenthesis (Literal.text owner ++ [.word ",", .word "&", .ident slot]), .word "?",
      .word ";"] := by
  simp only [checkTokens, runtime, words_eq]
  rfl

theorem checkTokens_bit (owner : String) (target source : Ident) (mask : UInt8) :
    checkTokens owner (.bit target source mask) =
      .word "let" :: .ident target :: .word "=" :: (bitValue source mask ++ [.word ";"]) := by
  simp only [checkTokens, words_eq]
  rfl

theorem piece_checkTokens (owner : String) (s : CheckStatement) :
    DecoderPiece (checkTokens owner s) [] (checkBindings s) [] := by
  cases s with
  | text slot =>
    refine ⟨fun rest => ?_, fun rest => ?_, fun rest => ?_⟩
    · simp [checkTokens_text, Literal.text, callAt?]
    · simp [checkTokens_text, Literal.text, checkBindings, bindingAt?]
    · simp [checkTokens_text, Literal.text, initializerAt?]
  | bit target source mask =>
    refine ⟨fun rest => ?_, fun rest => ?_, fun rest => ?_⟩
    · simp [checkTokens_bit, bitValue, callAt?]
    · simp [checkTokens_bit, checkBindings, bitValue, bindingAt?]
    · simp [checkTokens_bit, bitValue, initializerAt?]

theorem fieldTokens_eq (field slot : Ident) :
    name field ++ words ":" ++ name slot ++ words "," =
      [.ident field, .word ":", .ident slot, .word ","] := by
  simp only [words_eq]
  rfl

theorem piece_fieldTokens (field slot : Ident) :
    DecoderPiece (name field ++ words ":" ++ name slot ++ words ",") [] [] [(field.text, slot.text)] := by
  rw [fieldTokens_eq]
  refine ⟨fun rest => ?_, fun rest => ?_, fun rest => ?_⟩
  · simp [callAt?]
  · simp [bindingAt?]
  · simp [initializerAt?]

theorem piece_recordTokens (record : Ident) (fields : List (Ident × Ident)) :
    DecoderPiece (recordTokens record fields) [] []
      (fields.map fun field => (field.1.text, field.2.text)) := by
  have content := DecoderPiece.flatMap fun (field : Ident × Ident) (_ : field ∈ fields) =>
    piece_fieldTokens field.1 field.2
  have tokens : recordTokens record fields = [.word "Ok", .group .parenthesis [.ident record,
      .group .brace (fields.flatMap fun field =>
        name field.1 ++ words ":" ++ name field.2 ++ words ",")]] := by
    rw [recordTokens, words_eq]
    rfl
  rw [List.flatMap_eq_nil_iff.mpr fun _ _ => rfl, ← List.map_eq_flatMap] at content
  rw [tokens]
  generalize fields.flatMap _ = code at content ⊢
  refine ⟨fun rest => ?_, fun rest => ?_, fun rest => ?_⟩
  · simp [callAt?, content.calls.search_eq]
  · simp [bindingAt?, content.bindings.search_eq]
  · simp [initializerAt?, content.initializers.search_eq]

/-- What comes before the reading statements. The reader changes only if there are some. -/
def opening (code : DecoderCode) : Tokens :=
  (if code.reads.isEmpty then words "let r =" else words "let mut r =") ++ runtime "Reader :: new" ++
    parens (Literal.text code.owner ++ words ", payload") ++ words ";"

/-- The end of the payload. -/
def closing : Tokens :=
  words "r . finish" ++ parens [] ++ words "? ;"

/-- The statements of the function that decodes a method. -/
def body (code : DecoderCode) : Tokens :=
  code.opening ++ code.reads.flatMap readTokens ++ closing ++
    code.checks.flatMap (checkTokens code.owner) ++ recordTokens code.record code.fields

theorem item_eq (code : DecoderCode) : code.item =
    .function [] "fn" code.function payloadParameter (resultOf (name code.record)) code.body := by
  simp only [item, body, opening, closing, List.append_assoc]

theorem opening_eq (code : DecoderCode) : code.opening =
    .word "let" :: ((if code.reads.isEmpty then [] else [.word "mut"]) ++
      .word "r" :: .word "=" :: (readerValue code.owner ++ [.word ";"])) := by
  simp only [opening, runtime, words_eq]
  cases code.reads.isEmpty <;> rfl

theorem piece_opening (code : DecoderCode) :
    DecoderPiece code.opening [] [("r", readerValue code.owner)] [] := by
  rw [opening_eq]
  cases code.reads.isEmpty <;> refine ⟨fun rest => ?_, fun rest => ?_, fun rest => ?_⟩ <;>
    simp [readerValue, Literal.text, callAt?, bindingAt?, initializerAt?]

theorem piece_closing : DecoderPiece closing [("finish", [])] [] [] := by
  have tokens : closing = [.word "r", .word ".", .word "finish", .group .parenthesis [], .word "?",
      .word ";"] := by
    simp only [closing, words_eq]
    rfl
  rw [tokens]
  refine ⟨fun rest => ?_, fun rest => ?_, fun rest => ?_⟩ <;> simp [callAt?, bindingAt?, initializerAt?]

/-- What there is in the body of a decoder. -/
theorem piece_body (code : DecoderCode) : DecoderPiece code.body
    (code.reads.map (fun s => (s.call.text, [])) ++ [("finish", [])])
    (("r", readerValue code.owner) :: (code.reads.map (fun s => (s.target.text, readValue s.call)) ++
      code.checks.flatMap checkBindings))
    (code.fields.map fun field => (field.1.text, field.2.text)) := by
  have reads := DecoderPiece.flatMap fun s (_ : s ∈ code.reads) => piece_readTokens s
  have checks := DecoderPiece.flatMap fun s (_ : s ∈ code.checks) => piece_checkTokens code.owner s
  have whole := (((code.piece_opening.append reads).append piece_closing).append checks).append
    (piece_recordTokens code.record code.fields)
  have none {α β : Type} (xs : List α) : xs.flatMap (fun _ => ([] : List β)) = [] :=
    List.flatMap_eq_nil_iff.mpr fun _ _ => rfl
  simpa [none, List.map_eq_flatMap, body] using whole

end DecoderCode

/-! ## Encoders -/

namespace EncoderCode

theorem memberTokens_zero (id : Ident) : memberTokens (id, 0) =
    [.word "u8", .word "::", .word "from",
      .group .parenthesis [.word "record", .word ".", .ident id]] := by
  simp only [memberTokens, words_eq]
  rfl

theorem memberTokens_succ (id : Ident) (j : Nat) : memberTokens (id, j + 1) =
    [.group .parenthesis [.word "u8", .word "::", .word "from",
      .group .parenthesis [.word "record", .word ".", .ident id], .word "<<",
      .word (toString (j + 1) ++ "u8")]] := by
  simp only [memberTokens, words_eq]
  rfl

/-- How far a bit is shifted that has that place. -/
def shift (place : Nat) : List String :=
  if place = 0 then [] else [toString place ++ "u8"]

theorem scans_memberTokens (member : Ident × Nat) :
    Scans (callAt? "w") (memberTokens member) [] ∧
      Scans (selectionAt? "record") (memberTokens member) [member.1.text] ∧
      shifts (memberTokens member) = shift member.2 := by
  obtain ⟨id, place⟩ := member
  cases place with
  | zero =>
    rw [memberTokens_zero]
    refine ⟨fun rest => ?_, fun rest => ?_, ?_⟩
    · simp [callAt?]
    · simp [selectionAt?]
    · simp [shifts, shiftAt?, shift]
  | succ j =>
    rw [memberTokens_succ]
    refine ⟨fun rest => ?_, fun rest => ?_, ?_⟩
    · simp [callAt?]
    · simp [selectionAt?]
    · simp [shifts, shiftAt?, shift]

/-- What a statement hands to the writer. -/
def arguments : WriteStatement → Tokens
  | .integer _ field => [.word "record", .word ".", .ident field]
  | .counted _ field => [.word "&", .word "record", .word ".", .ident field]
  | .bits _ members => (words "|").intercalate (members.map memberTokens)

/-- The step that a statement takes. -/
def call : WriteStatement → Ident
  | .integer call _ | .counted call _ | .bits call _ => call

theorem writeTokens_eq (s : WriteStatement) : ∃ ending, ending ∈ [[], [Token.word "?"]] ∧
    writeTokens s = .word "w" :: .word "." :: .ident (call s) ::
      .group .parenthesis (arguments s) :: (ending ++ [.word ";"]) := by
  cases s with
  | integer call field =>
    refine ⟨[], by simp, ?_⟩
    simp only [writeTokens, words_eq]
    rfl
  | counted call field =>
    refine ⟨[.word "?"], by simp, ?_⟩
    simp only [writeTokens, words_eq]
    rfl
  | bits call members =>
    refine ⟨[], by simp, ?_⟩
    rw [writeTokens, arguments]
    generalize (words "|").intercalate _ = code
    simp only [words_eq]
    rfl

/-- Nothing is called while bits are put together. -/
theorem scans_members (members : List (Ident × Nat)) :
    Scans (callAt? "w") ((words "|").intercalate (members.map memberTokens)) [] ∧
      Scans (selectionAt? "record") ((words "|").intercalate (members.map memberTokens))
        (members.map (·.1.text)) := by
  rw [words_singleton (by decide)]
  have called : Scans (callAt? "w") [.word "|"] [] := fun rest => by simp [callAt?]
  have selected : Scans (selectionAt? "record") [.word "|"] [] := fun rest => by simp [selectionAt?]
  have calls := called.intercalate fun member (_ : member ∈ members) => (scans_memberTokens member).1
  have fields := selected.intercalate fun member (_ : member ∈ members) =>
    (scans_memberTokens member).2.1
  rw [List.flatMap_eq_nil_iff.mpr fun _ _ => rfl] at calls
  rw [← List.map_eq_flatMap] at fields
  exact ⟨calls, fields⟩

theorem scans_writeTokens (s : WriteStatement) :
    Scans (callAt? "w") (writeTokens s) [((call s).text, arguments s)] := by
  have inner : search (callAt? "w") (arguments s) = [] := by
    cases s with
    | integer | counted => simp [arguments, callAt?]
    | bits call members => exact (scans_members members).1.search_eq
  obtain ⟨ending, few, tokens⟩ := writeTokens_eq s
  intro rest
  rw [tokens]
  generalize arguments s = content at inner ⊢
  rcases List.mem_pair.mp few with rfl | rfl <;> simp [callAt?, inner]

/-- The payload with nothing in it. -/
def emptyPayload : Tokens :=
  words "Ok" ++ parens (runtime "Writer :: new" ++ parens [] ++ words ". into_bytes" ++ parens [])

/-- What comes before the writing statements. -/
def opening : Tokens :=
  words "let mut w =" ++ runtime "Writer :: new" ++ parens [] ++ words ";"

/-- The payload that has been written. -/
def closing : Tokens :=
  words "Ok" ++ parens (words "w . into_bytes" ++ parens [])

/-- The statements of the function that encodes a method. A record without fields is not looked at. -/
def body (code : EncoderCode) : Tokens :=
  if code.writes.isEmpty then emptyPayload else opening ++ code.writes.flatMap writeTokens ++ closing

theorem item_eq (code : EncoderCode) : ∃ parameters,
    code.item = .function [] "fn" code.function parameters (resultOf octetsType) code.body := by
  rw [item, body]
  split
  · exact ⟨_, rfl⟩
  · refine ⟨words "record : &" ++ name code.record, ?_⟩
    simp only [opening, closing, List.append_assoc]

theorem scans_emptyPayload : Scans (callAt? "w") emptyPayload [] := by
  have tokens : emptyPayload = [.word "Ok", .group .parenthesis [.runtime, .word "::", .word "Writer",
      .word "::", .word "new", .group .parenthesis [], .word ".", .word "into_bytes",
      .group .parenthesis []]] := by
    simp only [emptyPayload, runtime, words_eq]
    rfl
  rw [tokens]
  intro rest
  simp [callAt?]

theorem scans_opening : Scans (callAt? "w") opening [] := by
  have tokens : opening = [.word "let", .word "mut", .word "w", .word "=", .runtime, .word "::",
      .word "Writer", .word "::", .word "new", .group .parenthesis [], .word ";"] := by
    simp only [opening, runtime, words_eq]
    rfl
  rw [tokens]
  intro rest
  simp [callAt?]

theorem scans_closing : Scans (callAt? "w") closing [("into_bytes", [])] := by
  have tokens : closing = [.word "Ok", .group .parenthesis
      [.word "w", .word ".", .word "into_bytes", .group .parenthesis []]] := by
    simp only [closing, words_eq]
    rfl
  rw [tokens]
  intro rest
  simp [callAt?]

/-- The calls of the writer in the body of an encoder. -/
theorem scans_body (code : EncoderCode) : Scans (callAt? "w") code.body
    (code.writes.map (fun s => ((call s).text, arguments s)) ++
      if code.writes.isEmpty then [] else [("into_bytes", [])]) := by
  rw [body]
  cases empty : code.writes.isEmpty with
  | true =>
    rw [if_pos rfl, if_pos rfl, List.isEmpty_iff.mp empty]
    exact scans_emptyPayload
  | false =>
    have writes := Scans.flatMap fun s (_ : s ∈ code.writes) => scans_writeTokens s
    rw [← List.map_eq_flatMap] at writes
    exact (scans_opening.append writes).append scans_closing

end EncoderCode

end WireProtocol
