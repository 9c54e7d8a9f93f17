import Mathlib.Data.List.Nodup
import WireProtocol.Proofs.Correspondence
import WireProtocol.Proofs.Emit.MethodStatements
import WireProtocol.Proofs.Layout.Chunk
import WireProtocol.Proofs.Layout.Fields

/-!
# Method codecs and the chunks of their arguments

What the code for a method does is determined by the chunks of its arguments.

* `Chunk.step`, `Chunk.slot`: the step that reads or writes a chunk, and the local that it is read into.
* `DecodesChunks`, `DecoderCode.decodesChunks`: a decoder reads every chunk once, in order; it takes each
  bit out of its octet by its mask, defines the local of every argument once, and uses it for the field.
* `EncodesChunks`, `EncoderCode.encodesChunks`: an encoder writes every chunk once, in order, and puts each
  bit at its place.
-/

namespace WireProtocol

open Tokens

/-! ## Chunks -/

namespace Chunk

/-- The step that reads or writes the chunk: that of its wire type, and for bits that of octets. -/
def step : Chunk Field → String
  | fixedWidth _ ty => ty.name
  | variableWidth _ ty => ty.name
  | bits _ => WireType.octet.name

/-- The local that the chunk is read into. -/
def slot : Chunk Field → Ident
  | fixedWidth field _ => field.local
  | variableWidth field _ => field.local
  | bits members => bitsLocal (groupStart members)

end Chunk

theorem callName_text {ty : WireType} (h : ty.isBit = false) : (callName ty).text = ty.name := by
  cases ty with
  | bit => cases h
  | _ => rfl

/-- The field goes by that name in code. -/
def Field.Named (field : Field) (text : String) : Prop :=
  ∃ id, Ident.ofField field.name = .ok id ∧ id.text = text

variable {d : Description} {m : Method} {function record : Ident} {chunks : List (Chunk Field)}

theorem Description.sound_of_packFields {fields : FieldList} (packed : d.packFields fields = .ok chunks) :
    (∀ chunk ∈ chunks, chunk.Sound) ∧ chunks.flatMap Chunk.values = fields.toList := by
  obtain ⟨arguments, classified, same⟩ := Except.bind_eq_ok.mp packed
  cases same
  refine ⟨coalesce_sound arguments, ?_⟩
  rw [Chunk.flatMap_values, coalesce_members, (classify_eq_ok.mp classified).1]

/-! ## Decoders -/

/-- A local with each step of the reader by which its value is found. -/
def Tokens.readsOf (binding : String × Tokens) : List (String × String) :=
  (calls "r" binding.2).map fun call => (binding.1, call.1)

/-- What a decoder does: it reads every chunk into a local of its own, each by one call; the local of a bit
is the octet of its group under the mask of its place; and the locals of the arguments, each of which is
defined once, become the fields of the record. -/
structure DecodesChunks (arguments : FieldList) (chunks : List (Chunk Field)) (decoder : Tokens) : Prop where
  calls : calls "r" decoder = chunks.map (fun chunk => (chunk.step, [])) ++ [("finish", [])]
  slots : (bindings decoder).flatMap readsOf = chunks.map fun chunk => (chunk.slot.text, chunk.step)
  distinct : (chunks.map fun chunk => chunk.slot.text).Nodup
  masks : ∀ members, .bits members ∈ chunks → ∀ j field, members[j]? = some field →
    ∃ value, (field.local.text, value) ∈ bindings decoder ∧
      masks (bitsLocal (groupStart members)).text value = [toString (Nat.pow 2 j) ++ "u8"]
  once : ∀ field ∈ arguments.toList, ((bindings decoder).map (·.1)).count field.local.text = 1
  fields : List.Forall₂ (fun field given => field.Named given.1 ∧ given.2 = field.local.text)
    arguments.toList (initializers decoder)

/-- A decoder takes the steps of its chunks and looks for the end. -/
theorem DecodesChunks.steps {arguments : FieldList} {decoder : Tokens}
    (h : DecodesChunks arguments chunks decoder) :
    (Tokens.calls "r" decoder).map (·.1) = chunks.map Chunk.step ++ ["finish"] := by
  rw [h.calls, List.map_append, List.map_map]
  rfl

namespace DecoderCode

theorem call_readOf {chunk : Chunk Field} (sound : chunk.Sound) : (readOf chunk).call.text = chunk.step := by
  cases chunk with
  | fixedWidth field ty => exact callName_text (WireType.isBit_eq_false_of_isInteger sound)
  | variableWidth field ty => exact callName_text sound.2
  | bits members => rfl

theorem target_readOf (chunk : Chunk Field) : (readOf chunk).target = chunk.slot := by
  cases chunk <;> rfl

theorem readsOf_read (s : ReadStatement) :
    readsOf (s.target.text, readValue s.call) = [(s.target.text, s.call.text)] := by
  simp [readsOf, calls, readValue, callAt?]

theorem readsOf_reader (owner : String) : readsOf ("r", readerValue owner) = [] := by
  simp [readsOf, calls, readerValue, Literal.text, callAt?]

theorem readsOf_check (s : CheckStatement) : (checkBindings s).flatMap readsOf = [] := by
  cases s with
  | text => rfl
  | bit => simp [checkBindings, readsOf, calls, bitValue, callAt?]

theorem masks_bitValue (source : Ident) (mask : UInt8) :
    masks source.text (bitValue source mask) = [toString mask.toNat ++ "u8"] := by
  simp [masks, bitValue, maskAt?]

/-- The mask of a bit is the power of two of its place. -/
theorem toNat_mask {offset : Nat} (room : offset < maxBitGroup) :
    (mask offset).toNat = Nat.pow 2 offset := by
  have all : ∀ offset < maxBitGroup, (mask offset).toNat = Nat.pow 2 offset := by decide
  exact all offset room

/-! ### Locals -/

theorem local_text (field : Field) : field.local.text = "f" ++ toString field.index := rfl

theorem bitsLocal_text (start : Nat) : (bitsLocal start).text = "bits" ++ toString start := rfl

theorem bitsLocal_ne (field : Field) (start : Nat) : (bitsLocal start).text ≠ field.local.text := by
  rw [bitsLocal_text, local_text]
  intro same
  have front := congrArg (·.toList.head?) same
  simp at front

theorem reader_ne (field : Field) : "r" ≠ field.local.text := by
  rw [local_text]
  intro same
  have front := congrArg (·.toList.head?) same
  simp at front

/-- Locals of one kind are told apart by their numbers. -/
theorem eq_of_numbered {kind : String} {i j : Nat} (same : kind ++ toString i = kind ++ toString j) :
    i = j := by
  have digits := congrArg (fun text => Nat.ofDigitChars 10 text.toList 0)
    ((String.append_right_inj kind).mp same)
  simpa [Nat.ofDigitChars_ten_toDigits] using digits

/-- The fields of a list have locals of their own. -/
theorem nodup_locals (fields : FieldList) : (fields.toList.map (·.local.text)).Nodup := by
  have names : fields.toList.map (·.local.text) =
      (List.range fields.toList.length).map fun i => "f" ++ toString i := by
    rw [← fields.indexed, List.map_map]
    rfl
  rw [names]
  exact List.Nodup.map (fun _ _ => eq_of_numbered) List.nodup_range

/-- A chunk is read into a local with the number of one of its fields. -/
theorem slot_text {chunk : Chunk Field} (sound : chunk.Sound) : ∃ field ∈ chunk.values,
    chunk.slot.text = field.local.text ∨ chunk.slot.text = (bitsLocal field.index).text := by
  cases chunk with
  | fixedWidth field ty | variableWidth field ty => exact ⟨field, List.mem_singleton_self field, .inl rfl⟩
  | bits members =>
    cases members with
    | nil => exact (sound.1 rfl).elim
    | cons first members => exact ⟨first, List.mem_cons_self, .inr rfl⟩

/-- The chunks of a list of fields are read into locals of their own. -/
theorem nodup_slots {fields : FieldList} (sound : ∀ chunk ∈ chunks, chunk.Sound)
    (values : chunks.flatMap Chunk.values = fields.toList) :
    (chunks.map fun chunk => chunk.slot.text).Nodup := by
  have indices : (chunks.flatMap fun chunk => chunk.values.map (·.index)).Nodup := by
    rw [← List.map_flatMap, values, fields.indexed]
    exact List.nodup_range
  refine List.pairwise_map.mpr (List.Pairwise.imp_of_mem (fun listed listed' apart same => ?_)
    (List.nodup_flatMap.mp indices).2)
  obtain ⟨field, inside, text⟩ := slot_text (sound _ listed)
  obtain ⟨field', inside', text'⟩ := slot_text (sound _ listed')
  have number : field.index = field'.index := by
    rcases text with text | text <;> rcases text' with text' | text' <;> rw [text, text'] at same
    · exact eq_of_numbered same
    · exact (bitsLocal_ne _ _ same.symm).elim
    · exact (bitsLocal_ne _ _ same).elim
    · exact eq_of_numbered same
  exact apart (List.mem_map_of_mem inside) (number ▸ List.mem_map_of_mem inside')

/-- The bits of a group are taken out of its octet. -/
theorem checkBindings_bits (hasContent : Bool) (members : List Field) :
    (checksOf hasContent (.bits members)).flatMap checkBindings = members.zipIdx.map fun (field, offset) =>
      (field.local.text, bitValue (bitsLocal (groupStart members)) (mask offset)) := by
  rw [checksOf, List.flatMap_map, List.map_eq_flatMap]
  rfl

/-- The statements for a chunk define the locals of its fields, each as often as the field is in it. -/
theorem count_bindings (hasContent : Bool) (field : Field) (chunk : Chunk Field) :
    [(readOf chunk).target.text].count field.local.text +
        (((checksOf hasContent chunk).flatMap checkBindings).map (·.1)).count field.local.text =
      (chunk.values.map (·.local.text)).count field.local.text := by
  cases chunk with
  | fixedWidth own ty => rfl
  | variableWidth own ty =>
    have none : (checksOf hasContent (.variableWidth own ty)).flatMap checkBindings = [] := by
      rw [checksOf]
      split <;> rfl
    rw [none]
    rfl
  | bits members =>
    have octet : [(readOf (.bits members)).target.text].count field.local.text = 0 := by
      refine List.count_eq_zero_of_not_mem fun inside => ?_
      exact bitsLocal_ne field (groupStart members) (List.mem_singleton.mp inside).symm
    have bits : ((checksOf hasContent (.bits members)).flatMap checkBindings).map (·.1) =
        members.map (·.local.text) := by
      rw [checkBindings_bits, List.map_map]
      conv_rhs => rw [← List.zipIdx_map_fst 0 members, List.map_map]
      rfl
    rw [octet, bits, Nat.zero_add]
    rfl

theorem count_all (hasContent : Bool) (field : Field) (chunks : List (Chunk Field)) :
    (chunks.map fun chunk => (readOf chunk).target.text).count field.local.text +
        (((chunks.flatMap (checksOf hasContent)).flatMap checkBindings).map (·.1)).count field.local.text =
      ((chunks.flatMap Chunk.values).map (·.local.text)).count field.local.text := by
  induction chunks with
  | nil => rfl
  | cons chunk chunks ih =>
    have here := count_bindings hasContent field chunk
    rw [List.map_cons, ← List.singleton_append, List.flatMap_cons, List.flatMap_cons,
      List.flatMap_append, List.map_append, List.map_append, List.count_append, List.count_append,
      List.count_append]
    omega

/-! ### The whole decoder -/

theorem ofMethod_eq_ok {code : DecoderCode} (h : ofMethod m function record chunks = .ok code) :
    code.reads = chunks.map readOf ∧ code.checks = chunks.flatMap (checksOf m.hasContent) ∧
      List.Forall₂ (fun field given => field.Named given.1.text ∧ given.2 = field.local)
        m.arguments.toList code.fields := by
  obtain ⟨fields, named, same⟩ := Except.bind_eq_ok.mp h
  cases same
  refine ⟨rfl, rfl, (Except.forall₂_of_mapM named).imp fun field given made => ?_⟩
  obtain ⟨id, known, same⟩ := Except.bind_eq_ok.mp made
  cases same
  exact ⟨⟨id, known, rfl⟩, rfl⟩

theorem decodesChunks {code : DecoderCode} (packed : d.packFields m.arguments = .ok chunks)
    (h : ofMethod m function record chunks = .ok code) : DecodesChunks m.arguments chunks code.body := by
  obtain ⟨sound, values⟩ := Description.sound_of_packFields packed
  obtain ⟨reads, checks, fields⟩ := ofMethod_eq_ok h
  have piece := code.piece_body
  rw [reads, checks, List.map_map, List.map_map, List.flatMap_assoc] at piece
  constructor
  case calls =>
    rw [calls, piece.calls.search_eq, List.append_left_inj]
    exact List.map_congr_left fun chunk inside => congrArg (·, []) (call_readOf (sound chunk inside))
  case slots =>
    have slots : (chunks.map fun chunk => ((readOf chunk).target.text, readValue (readOf chunk).call)).flatMap
        readsOf = chunks.map fun chunk => (chunk.slot.text, chunk.step) := by
      rw [List.flatMap_map, List.map_eq_flatMap]
      refine List.flatMap_congr fun chunk inside => ?_
      rw [readsOf_read, target_readOf, call_readOf (sound chunk inside)]
    have others : (chunks.flatMap fun chunk => (checksOf m.hasContent chunk).flatMap checkBindings).flatMap
        readsOf = [] := by
      simp [List.flatMap_assoc, readsOf_check]
    rw [bindings, piece.bindings.search_eq, List.flatMap_cons, readsOf_reader, List.flatMap_append, others,
      List.nil_append, List.append_nil]
    exact slots
  case distinct => exact nodup_slots sound values
  case masks =>
    intro members listed j field inside
    refine ⟨bitValue (bitsLocal (groupStart members)) (mask j), ?_, ?_⟩
    · rw [bindings, piece.bindings.search_eq]
      refine List.mem_cons_of_mem _ (List.mem_append_right _ (List.mem_flatMap.mpr ⟨_, listed, ?_⟩))
      rw [checkBindings_bits]
      exact List.mem_map.mpr ⟨(field, j), List.mk_mem_zipIdx_iff_getElem?.mpr inside, rfl⟩
    · have room : j < maxBitGroup :=
        Nat.lt_of_lt_of_le (List.getElem?_eq_some_iff.mp inside).1 (sound _ listed).2
      rw [masks_bitValue, toNat_mask room]
  case once =>
    intro field inside
    have once := List.count_eq_one_of_mem (nodup_locals m.arguments)
      (List.mem_map_of_mem (f := (·.local.text)) inside)
    rw [← values, ← count_all m.hasContent, List.flatMap_assoc] at once
    rw [bindings, piece.bindings.search_eq, List.map_cons, List.map_append, List.map_map,
      List.count_cons_of_ne (reader_ne field), List.count_append]
    exact once
  case fields =>
    rw [initializers, piece.initializers.search_eq, List.forall₂_map_right_iff]
    exact fields.imp fun field given same => ⟨same.1, congrArg Ident.text same.2⟩

end DecoderCode

/-! ## Encoders -/

/-- The call hands the values of the chunk to the writer, in order, and each bit at its place. -/
structure Chunk.WrittenBy (chunk : Chunk Field) (call : String × Tokens) : Prop where
  step : call.1 = chunk.step
  values : List.Forall₂ Field.Named chunk.values (selections "record" call.2)
  places : ∀ members, chunk = .bits members →
    List.Forall₂ (fun member operand => ∃ text, member.1.Named text ∧
        selections "record" operand = [text] ∧ shifts operand = EncoderCode.shift member.2)
      members.zipIdx (operands "|" call.2)

/-- What an encoder does: it writes every chunk, each by one call. -/
def EncodesChunks (chunks : List (Chunk Field)) (encoder : Tokens) : Prop :=
  ∃ written, List.Forall₂ Chunk.WrittenBy chunks written ∧
    calls "w" encoder = written ++ if chunks.isEmpty then [] else [("into_bytes", [])]

/-- An encoder takes the steps of its chunks. -/
theorem EncodesChunks.steps {encoder : Tokens} (h : EncodesChunks chunks encoder) :
    (calls "w" encoder).map (·.1) = chunks.map Chunk.step ++ if chunks.isEmpty then [] else ["into_bytes"] := by
  obtain ⟨written, each, called⟩ := h
  have steps : chunks.map Chunk.step = written.map (·.1) :=
    (each.imp fun chunk call own => own.step.symm).map_eq
  rw [called, List.map_append, steps]
  cases chunks <;> rfl

namespace EncoderCode

theorem isWord_memberTokens (member : Ident × Nat) :
    ∀ token ∈ memberTokens member, token.isWord "|" = false := by
  obtain ⟨id, place⟩ := member
  cases place with
  | zero => simp [memberTokens_zero]
  | succ j => simp [memberTokens_succ]

theorem writtenBy {chunk : Chunk Field} {s : WriteStatement} (sound : chunk.Sound)
    (h : writeOf chunk = .ok s) : chunk.WrittenBy ((call s).text, arguments s) := by
  cases chunk with
  | fixedWidth field ty =>
    obtain ⟨id, known, same⟩ := Except.bind_eq_ok.mp h
    cases same
    have selected : selections "record" (arguments (.integer (callName ty) id)) = [id.text] := by
      simp [selections, arguments, selectionAt?]
    refine ⟨callName_text (WireType.isBit_eq_false_of_isInteger sound), ?_, fun _ same => ?_⟩
    · rw [selected]
      exact .cons ⟨id, known, rfl⟩ .nil
    · cases same
  | variableWidth field ty =>
    obtain ⟨id, known, same⟩ := Except.bind_eq_ok.mp h
    cases same
    have selected : selections "record" (arguments (.counted (callName ty) id)) = [id.text] := by
      simp [selections, arguments, selectionAt?]
    refine ⟨callName_text sound.2, ?_, fun _ same => ?_⟩
    · rw [selected]
      exact .cons ⟨id, known, rfl⟩ .nil
    · cases same
  | bits members =>
    obtain ⟨ids, known, same⟩ := Except.bind_eq_ok.mp h
    cases same
    have named := Except.forall₂_of_mapM known
    refine ⟨rfl, ?_, ?_⟩
    · have selected : selections "record" (arguments (.bits (callName .bit) ids.zipIdx)) =
          ids.map Ident.text := by
        rw [selections, arguments, (scans_members ids.zipIdx).2.search_eq]
        conv_rhs => rw [← List.zipIdx_map_fst 0 ids, List.map_map]
        rfl
      rw [selected, List.forall₂_map_right_iff]
      exact named.imp fun field id known => ⟨id, known, rfl⟩
    · intro members' same
      cases same
      have some : ids.zipIdx.map memberTokens ≠ [] := by
        cases named with
        | nil => exact (sound.1 rfl).elim
        | cons => simp
      have own : ∀ part ∈ ids.zipIdx.map memberTokens, ∀ token ∈ part, token.isWord "|" = false :=
        List.forall_mem_map.mpr fun member _ => isWord_memberTokens member
      rw [arguments, words_singleton (by decide), operands_intercalate some own, List.forall₂_map_right_iff]
      refine (named.zipIdx 0).imp fun member operand same => ?_
      obtain ⟨-, selected, shifted⟩ := scans_memberTokens operand
      exact ⟨operand.1.text, ⟨operand.1, same.1, rfl⟩, selected.search_eq, same.2 ▸ shifted⟩

theorem encodesChunks {code : EncoderCode} (sound : ∀ chunk ∈ chunks, chunk.Sound)
    (h : ofChunks function record chunks = .ok code) : EncodesChunks chunks code.body := by
  obtain ⟨writes, known, same⟩ := Except.bind_eq_ok.mp h
  cases same
  have written := Except.forall₂_of_mapM known
  refine ⟨writes.map fun s => ((call s).text, arguments s), ?_, ?_⟩
  · rw [List.forall₂_map_right_iff]
    exact ((List.forall₂_and_left _ _).mpr ⟨sound, written⟩).imp fun chunk s h => writtenBy h.1 h.2
  · have both : writes.isEmpty = chunks.isEmpty := by
      cases written <;> rfl
    rw [calls, (scans_body _).search_eq, both]

end EncoderCode

end WireProtocol
