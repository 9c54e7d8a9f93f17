import WireProtocol.Emit.PropertyCode
import WireProtocol.Proofs.Emit.MethodStatements

/-!
# What the statements of property codecs say

The tokens of each statement, and what is found in them.

* `flagWord`: how flags are spelled.
* `PropertyDecoderCode.piece_body`: what there is in the body of a decoder.
* `PropertyDecoderCode.conditionals_value`: the condition under which a property is read, and the step.
* `EncoderPiece`, `PropertyEncoderCode.piece_body`: the calls of the writer in the body of an encoder, and
  its conditional blocks.
* `PropertyEncoderCode.fields_condition`, `PropertyEncoderCode.flags_block`, `PropertyEncoderCode.calls_block`:
  what these blocks depend on, the flags that they set, and the step.
-/

namespace WireProtocol

open Tokens

/-! ## Flags -/

/-- How flags are spelled. -/
def flagWord (flags : Nat) : String :=
  String.join ["0x", Hex.lower 4 flags, "u16"]

theorem flags_eq (flags : UInt16) : Literal.flags flags = [.word (flagWord flags.toNat)] := by
  simp [Literal.flags, flagWord, String.join]

/-- Flags are no keyword and no sign. -/
theorem flagWord_ne {text : String} (short : text.length < 5) (flags : Nat) : flagWord flags ≠ text := by
  rintro rfl
  have length : (flagWord flags).length = 2 + (Hex.lower 4 flags).length + 3 := by
    simp only [flagWord, String.length_join, List.map_cons, List.map_nil, List.sum_cons, List.sum_nil,
      Nat.add_zero, Nat.add_assoc]
    rfl
  omega

/-! ## Decoders -/

namespace PropertyDecoderCode

/-- The condition under which a property is there. -/
def condition (mask : UInt16) : Tokens :=
  [.word "flags", .word "&", .word (flagWord mask.toNat), .word "!=", .word "0u16"]

/-- What a property is if it is there. -/
def present (call : Option Ident) : Tokens :=
  [.word "Some", .group .parenthesis (call.elim [.word "true"] DecoderCode.readValue)]

/-- What a statement reads. -/
def readValue (s : PropertyRead) : Tokens :=
  .word "if" :: (condition s.mask ++
    [.group .brace (present s.call), .word "else", .group .brace [.word "None"]])

theorem readTokens_eq (s : PropertyRead) : readTokens s =
    .word "let" :: .ident s.target :: .word "=" :: (readValue s ++ [.word ";"]) := by
  obtain ⟨target, mask, call⟩ := s
  cases call <;>
  · simp only [readTokens, flags_eq, words_eq]
    rfl

theorem calls_present (call : Option Ident) :
    search (callAt? "r") (present call) = call.toList.map fun call => (call.text, []) := by
  cases call <;> simp [present, DecoderCode.readValue, callAt?]

theorem piece_readTokens (s : PropertyRead) :
    DecoderPiece (readTokens s) (s.call.toList.map fun call => (call.text, []))
      [(s.target.text, readValue s)] [] := by
  have called := calls_present s.call
  have bound : search bindingAt? (present s.call) = [] := by
    cases s.call <;> simp [present, DecoderCode.readValue, bindingAt?]
  have initialized : search initializerAt? (present s.call) = [] := by
    cases s.call <;> simp [present, DecoderCode.readValue, initializerAt?]
  rw [readTokens_eq, readValue]
  generalize present s.call = content at called bound initialized ⊢
  have sign := flagWord_ne (show ";".length < 5 by decide) s.mask.toNat
  refine ⟨fun rest => ?_, fun rest => ?_, fun rest => ?_⟩
  · simp [condition, callAt?, called]
  · simp [condition, bindingAt?, bound, sign]
  · simp [condition, initializerAt?, initialized]

/-- A property is read in a block under the condition that its flag is set. -/
theorem conditionals_value (s : PropertyRead) :
    conditionals (readValue s) = [(condition s.mask, present s.call)] := by
  have nested : search conditionalAt? (present s.call) = [] := by
    cases s.call <;> simp [present, DecoderCode.readValue, conditionalAt?]
  have keyword := flagWord_ne (show "if".length < 5 by decide) s.mask.toNat
  rw [readValue]
  generalize present s.call = content at nested ⊢
  simp [conditionals, condition, conditionalAt?, nested, keyword]

theorem masks_condition (mask : UInt16) : masks "flags" (condition mask) = [flagWord mask.toNat] := by
  simp [masks, condition, maskAt?]

/-- The statements that come before those of the properties. -/
def opening (code : PropertyDecoderCode) : Tokens :=
  words "let mut r =" ++ (runtime "Reader :: new" ++ parens (Literal.text code.owner ++ words ", payload")) ++
    words ";" ++ words "let flags = r . short" ++ parens [] ++ words "? ;" ++
    reservedTokens code.classId (reservedMask code.reads.length)

/-- The end of a payload in which nothing is expected. -/
def emptyPayload (owner : String) : Tokens :=
  runtime "Reader :: new" ++ parens (Literal.text owner ++ words ", payload") ++ words ". finish" ++
    parens [] ++ words "? ;"

/-- The statements of the function that decodes the properties of a class. -/
def body (code : PropertyDecoderCode) : Tokens :=
  (if code.reads.isEmpty then emptyPayload code.owner
  else code.opening ++ code.reads.flatMap readTokens ++ DecoderCode.closing) ++
    DecoderCode.recordTokens code.record code.fields

theorem item_eq (code : PropertyDecoderCode) : code.item =
    .function [] "fn" code.function payloadParameter (resultOf (name code.record)) code.body := by
  simp only [item, body, emptyPayload, opening, DecoderCode.closing, List.append_assoc]

/-- The flags in front of a payload. -/
def flagsValue : Tokens :=
  [.word "r", .word ".", .word "short", .group .parenthesis [], .word "?"]

theorem reservedTokens_eq (classId mask : UInt16) : reservedTokens classId mask =
    .word "if" :: (condition mask ++ [.group .brace [.word "return", .word "Err", .group .parenthesis
      [.runtime, .word "::", .word "FrameError", .word "::", .word "ReservedFlags", .group .brace
        [.word "class_id", .word ":", .word (toString classId.toNat ++ "u16"), .word ",", .word "flags"]],
      .word ";"]]) := by
  simp only [reservedTokens, runtime, flags_eq, words_eq]
  rfl

theorem opening_eq (code : PropertyDecoderCode) : code.opening =
    .word "let" :: .word "mut" :: .word "r" :: .word "=" :: (readerValue code.owner ++ .word ";" ::
      .word "let" :: .word "flags" :: .word "=" :: (flagsValue ++ .word ";" ::
        reservedTokens code.classId (reservedMask code.reads.length))) := by
  rw [opening]
  generalize reservedTokens _ _ = reserved
  simp only [runtime, words_eq]
  rfl

theorem piece_opening (code : PropertyDecoderCode) : DecoderPiece code.opening [("short", [])]
    [("r", readerValue code.owner), ("flags", flagsValue)] [] := by
  rw [opening_eq, reservedTokens_eq]
  refine ⟨fun rest => ?_, fun rest => ?_, fun rest => ?_⟩ <;>
    simp [readerValue, Literal.text, flagsValue, condition, callAt?, bindingAt?, initializerAt?]

theorem piece_emptyPayload (owner : String) : DecoderPiece (emptyPayload owner) [] [] [] := by
  have tokens : emptyPayload owner = readerValue owner ++
      [.word ".", .word "finish", .group .parenthesis [], .word "?", .word ";"] := by
    simp only [emptyPayload, runtime, words_eq]
    rfl
  rw [tokens]
  refine ⟨fun rest => ?_, fun rest => ?_, fun rest => ?_⟩ <;>
    simp [readerValue, Literal.text, callAt?, bindingAt?, initializerAt?]

theorem piece_body (code : PropertyDecoderCode) : DecoderPiece code.body
    (if code.reads.isEmpty then [] else ("short", []) ::
      (code.reads.flatMap (fun s => s.call.toList.map fun call => (call.text, [])) ++ [("finish", [])]))
    (if code.reads.isEmpty then [] else ("r", readerValue code.owner) ::
      ("flags", flagsValue) ::
        code.reads.map fun s => (s.target.text, readValue s))
    (code.fields.map fun field => (field.1.text, field.2.text)) := by
  have record := DecoderCode.piece_recordTokens code.record code.fields
  rw [body]
  cases empty : code.reads.isEmpty with
  | true =>
    exact (piece_emptyPayload code.owner).append record
  | false =>
    have reads := DecoderPiece.flatMap fun s (_ : s ∈ code.reads) => piece_readTokens s
    have whole := ((code.piece_opening.append reads).append DecoderCode.piece_closing).append record
    have none : code.reads.flatMap (fun _ => ([] : List (String × String))) = [] :=
      List.flatMap_eq_nil_iff.mpr fun _ _ => rfl
    simpa [none, List.map_eq_flatMap] using whole

end PropertyDecoderCode

/-! ## Encoders -/

/-- What there is in a piece of an encoder: calls of the writer, and conditional blocks. -/
structure EncoderPiece (tokens : Tokens) (calls : List (String × Tokens))
    (conditionals : List (Tokens × Tokens)) : Prop where
  calls : Scans (callAt? "w") tokens calls
  conditionals : Scans conditionalAt? tokens conditionals

namespace EncoderPiece

variable {first second : Tokens} {calls calls' : List (String × Tokens)}
  {conditionals conditionals' : List (Tokens × Tokens)}

theorem append (h : EncoderPiece first calls conditionals) (h' : EncoderPiece second calls' conditionals') :
    EncoderPiece (first ++ second) (calls ++ calls') (conditionals ++ conditionals') :=
  ⟨h.calls.append h'.calls, h.conditionals.append h'.conditionals⟩

theorem flatMap {α : Type} {code : α → Tokens} {calls : α → List (String × Tokens)}
    {conditionals : α → List (Tokens × Tokens)} {parts : List α}
    (each : ∀ part ∈ parts, EncoderPiece (code part) (calls part) (conditionals part)) :
    EncoderPiece (parts.flatMap code) (parts.flatMap calls) (parts.flatMap conditionals) :=
  ⟨.flatMap fun part inside => (each part inside).calls,
    .flatMap fun part inside => (each part inside).conditionals⟩

end EncoderPiece

namespace PropertyEncoderCode

/-- The field of a statement. -/
def field : PropertyWrite → Ident
  | .bit field _ | .integer _ field _ | .counted _ field _ => field

/-- The flag of a statement. -/
def mask : PropertyWrite → UInt16
  | .bit _ mask | .integer _ _ mask | .counted _ _ mask => mask

/-- The step that a statement takes, unless it is about a bit. -/
def call? : PropertyWrite → Option Ident
  | .bit _ _ => none
  | .integer call _ _ | .counted call _ _ => some call

/-- The condition of a statement. -/
def condition : PropertyWrite → Tokens
  | .bit field _ => [.word "properties", .word ".", .ident field, .word "==", .word "Some",
      .group .parenthesis [.word "true"]]
  | .integer _ field _ => [.word "let", .word "Some", .group .parenthesis [.word "value"], .word "=",
      .word "properties", .word ".", .ident field]
  | .counted _ field _ => [.word "let", .word "Some", .group .parenthesis [.word "value"], .word "=",
      .word "&", .word "properties", .word ".", .ident field]

/-- What a statement does with the value of a property. -/
def writing : PropertyWrite → Tokens
  | .bit _ _ => []
  | .integer call _ _ => [.word "w", .word ".", .ident call, .group .parenthesis [.word "value"], .word ";"]
  | .counted call _ _ => [.word "w", .word ".", .ident call, .group .parenthesis [.word "value"],
      .word "?", .word ";"]

/-- What a statement does under its condition. -/
def block (s : PropertyWrite) : Tokens :=
  [.word "flags", .word "|=", .word (flagWord (mask s).toNat), .word ";"] ++ writing s

theorem writeTokens_eq (s : PropertyWrite) :
    writeTokens s = .word "if" :: (condition s ++ [.group .brace (block s)]) := by
  cases s <;>
  · simp only [writeTokens, flagTokens, flags_eq, words_eq]
    rfl

theorem fields_condition (s : PropertyWrite) :
    selections "properties" (condition s) = [(field s).text] := by
  cases s <;> simp [condition, selections, selectionAt?, field]

theorem flags_block (s : PropertyWrite) : settings "flags" (block s) = [flagWord (mask s).toNat] := by
  cases s <;> simp [block, writing, settings, settingAt?]

theorem calls_block (s : PropertyWrite) :
    calls "w" (block s) = (call? s).toList.map fun call => (call.text, [.word "value"]) := by
  cases s <;> simp [block, writing, calls, callAt?, call?]

theorem piece_writeTokens (s : PropertyWrite) : EncoderPiece (writeTokens s)
    ((call? s).toList.map fun call => (call.text, [.word "value"])) [(condition s, block s)] := by
  have called : search (callAt? "w") (block s) = _ := calls_block s
  have nested : search conditionalAt? (block s) = [] := by
    have keyword := flagWord_ne (show "if".length < 5 by decide) (mask s).toNat
    cases s <;> simp [block, writing, conditionalAt?, keyword]
  rw [writeTokens_eq]
  generalize block s = content at called nested ⊢
  constructor <;> intro rest
  · cases s <;> simp [condition, callAt?, called]
  · cases s <;> simp [condition, conditionalAt?, nested]

/-- The statements that come before those of the properties. -/
def opening (code : PropertyEncoderCode) : Tokens :=
  words "let mut flags : u16 = 0 ;" ++
    (if code.writes.any writesValue then words "let mut w =" else words "let w =") ++
    runtime "Writer :: new" ++ parens [] ++ words ";"

/-- The payload with the flags in front. -/
def closing : Tokens :=
  words "Ok" ++ parens (words "w . into_flagged" ++ parens (words "flags"))

/-- The payload with nothing in it. -/
def emptyPayload : Tokens :=
  words "Ok" ++ parens (words "Vec :: new" ++ parens [])

/-- The statements of the function that encodes the properties of a class. -/
def body (code : PropertyEncoderCode) : Tokens :=
  if code.writes.isEmpty then emptyPayload
  else code.opening ++ code.writes.flatMap writeTokens ++ closing

theorem item_eq (code : PropertyEncoderCode) : ∃ parameters,
    code.item = .function [] "fn" code.function parameters (resultOf octetsType) code.body := by
  rw [item, body]
  split
  · exact ⟨_, rfl⟩
  · refine ⟨words "properties : &" ++ name code.record, ?_⟩
    simp only [opening, closing, List.append_assoc]

theorem piece_opening (code : PropertyEncoderCode) : EncoderPiece code.opening [] [] := by
  have tokens : code.opening = ([.word "let", .word "mut", .word "flags", .word ":", .word "u16",
      .word "=", .word "0", .word ";", .word "let"] : Tokens) ++
        (if code.writes.any writesValue then [.word "mut"] else [] : Tokens) ++
          ([.word "w", .word "=", .runtime, .word "::", .word "Writer", .word "::", .word "new",
            .group .parenthesis [], .word ";"] : Tokens) := by
    simp only [opening, runtime, words_eq]
    cases code.writes.any writesValue <;> rfl
  rw [tokens]
  cases code.writes.any writesValue <;> constructor <;> intro rest <;> simp [callAt?, conditionalAt?]

theorem piece_closing : EncoderPiece closing [("into_flagged", [.word "flags"])] [] := by
  have tokens : closing = [.word "Ok", .group .parenthesis [.word "w", .word ".", .word "into_flagged",
      .group .parenthesis [.word "flags"]]] := by
    simp only [closing, words_eq]
    rfl
  rw [tokens]
  constructor <;> intro rest <;> simp [callAt?, conditionalAt?]

theorem piece_emptyPayload : EncoderPiece emptyPayload [] [] := by
  have tokens : emptyPayload = [.word "Ok", .group .parenthesis
      [.word "Vec", .word "::", .word "new", .group .parenthesis []]] := by
    simp only [emptyPayload, words_eq]
    rfl
  rw [tokens]
  constructor <;> intro rest <;> simp [callAt?, conditionalAt?]

theorem piece_body (code : PropertyEncoderCode) : EncoderPiece code.body
    (code.writes.flatMap (fun s => (call? s).toList.map fun call => (call.text, [.word "value"])) ++
      if code.writes.isEmpty then [] else [("into_flagged", [.word "flags"])])
    (code.writes.map fun s => (condition s, block s)) := by
  rw [body]
  cases empty : code.writes.isEmpty with
  | true =>
    rw [if_pos rfl, if_pos rfl, List.isEmpty_iff.mp empty]
    exact piece_emptyPayload
  | false =>
    have writes := EncoderPiece.flatMap fun s (_ : s ∈ code.writes) => piece_writeTokens s
    have whole := (code.piece_opening.append writes).append piece_closing
    simpa [List.map_eq_flatMap] using whole

end PropertyEncoderCode

end WireProtocol
