import WireProtocol.Codec.Dispatch
import WireProtocol.Proofs.Codec.Dispatch
import WireProtocol.Proofs.Emit.LookupCalls
import WireProtocol.Proofs.Emit.Yields

/-!
# Calls of the functions that dispatch

* `MethodCode.call_lookup_method_name`, `MethodCode.call_method_id`: what calls of the functions for methods
  end as.
* `Code.Calls.Follow`: calls of the functions for single classes end as layouts say.
* `PropertyCode.call_decode_properties`, `PropertyCode.call_encode_properties`: then so do calls of the
  functions for the properties of any class.
* `Declarations.call_class_id`: what the question for the class of properties ends as.
-/

namespace WireProtocol

open Tokens Code

variable {d : Description}

/-! ## Methods -/

/-- The value is the name of the method. -/
def Method.IsNamed (m : Method) (value : Value) : Prop :=
  ∃ name, m.typeIdent = .ok name ∧ value = .variant "MethodName" name

namespace MethodCode

theorem outcome?_unknownIds {calls : Calls} {owner : String} (classId methodId : UInt16) :
    outcome? calls owner [("class_id", .number classId), ("method_id", .number methodId)]
        (words "Err" ++ parens (runtime "FrameError :: UnknownMethodId" ++
          braces (words "class_id , method_id"))) =
      some (.result (.error (.unknownMethodId classId methodId))) := by
  simp only [runtime, words_eq]
  rfl

theorem chooses_ids (classId methodId : UInt16) :
    Chooses (words "class_id : u16 , method_id : u16 ,") (parens (words "class_id , method_id"))
      [.number classId, .number methodId] [("class_id", .number classId), ("method_id", .number methodId)]
      (.numbers classId methodId) := by
  simp only [words_eq]
  exact ⟨rfl, rfl, rfl, fun _ => rfl⟩

theorem chooses_name (id : Ident) :
    Chooses (words "name : MethodName") (words "name") [.variant "MethodName" id]
      [("name", .variant "MethodName" id)] (.variant "MethodName" id) := by
  simp only [words_eq]
  exact ⟨rfl, rfl, rfl, fun _ => rfl⟩

theorem entries_of_methods {entries : List Entry} (made : d.methods.mapM (entry d) = .ok entries) :
    List.Forall₂ (fun m e => e.method = m ∧ m.typeIdent = .ok e.id) d.methods entries := by
  refine (Except.forall₂_of_mapM made).imp fun m e here => ?_
  obtain ⟨id, named, here⟩ := Except.bind_eq_ok.mp here
  obtain ⟨arm, -, same⟩ := Except.bind_eq_ok.mp here
  cases same
  exact ⟨rfl, named⟩

variable {items : List Item} (calls : Calls)

theorem call_lookup_method_name (h : tables d = .ok items) (classId methodId : UInt16) :
    CallReturns items calls "lookup_method_name" [.number classId, .number methodId] Method.IsNamed
      (d.methodOfIds classId methodId) := by
  obtain ⟨entries, made, same⟩ := Except.bind_eq_ok.mp h
  cases same
  have keys : ∀ e ∈ entries, Denotes "Self" (idsTokens e.method) (.numbers e.method.classId e.method.id) :=
    fun e _ => denotes_numbers e.method.classId e.method.id
  have searched := (entries_of_methods made).find? (p := fun m => m.classId == classId && m.id == methodId)
    (q := fun e => Atom.numbers e.method.classId e.method.id == .numbers classId methodId)
    fun m e here => by simp [here.1]
  obtain ⟨m, e, found, found', -, named⟩ | ⟨missed, missed'⟩ := searched
  · rw [Description.methodOfIds, found]
    refine ⟨_, ⟨e.id, named, rfl⟩, _, .head _, ?_⟩
    rw [Item.call?_table (chooses_ids classId methodId) keys (fun e _ => whole_holding rfl _)
      (whole_holding rfl _), found']
    exact outcome?_ok (denotes_variant rfl e.id)
  · rw [Description.methodOfIds, missed]
    refine ⟨_, .head _, ?_⟩
    rw [Item.call?_table (chooses_ids classId methodId) keys (fun e _ => whole_holding rfl _)
      (whole_holding rfl _), missed']
    exact outcome?_unknownIds classId methodId

theorem call_method_id (h : tables d = .ok items) {m : Method} {name : Ident}
    (found : d.methodOfName? name = some m) :
    CallEnds items calls "method_id" [.variant "MethodName" name] (.value (.numbers m.classId m.id)) := by
  obtain ⟨entries, made, same⟩ := Except.bind_eq_ok.mp h
  cases same
  have searched := (entries_of_methods made).find? (p := fun m => m.typeIdent.toOption == some name)
    (q := fun e => e.id == name) fun m e here => by rw [here.2]; rfl
  rw [← Description.methodOfName?, found] at searched
  obtain ⟨m', e, same, found', rfl, -⟩ | ⟨missed, -⟩ := searched
  · cases same
    have ids (e : Entry) : Denotes "Self" (idsTokens e.method) (.numbers e.method.classId e.method.id) :=
      denotes_numbers e.method.classId e.method.id
    have keys : ∀ e ∈ entries, ∃ pattern, pattern? "Self" (member "MethodName" e.id) = some pattern ∧
        pattern.match? (.variant "MethodName" name) = if e.id == name then some [] else none :=
      fun e _ => ⟨_, (denotes_variant rfl e.id).pattern, by simp [Pattern.match?, typeName]⟩
    refine ⟨_, .tail _ (.head _), ?_⟩
    rw [table, Item.call?_variants (chooses_name name) keys, found']
    · exact congrArg (Option.map _) (ids e).read
    · exact fun e _ => ⟨whole_member rfl e.id, (ids e).whole⟩
  · cases missed

end MethodCode

/-! ## Properties -/

/-- The value holds the properties, as those of their class. -/
def Properties.IsHeld (p : Properties) (value : Value) : Prop :=
  ∃ id, Ident.ofType [p.layout.name] = .ok id ∧ value = .holding "Properties" id (.record p.record)

/-- Calls of the functions for single classes end as their layouts say. -/
structure Code.Calls.Follow (calls : Calls) (layouts : List PropertyLayout) : Prop where
  decode : ∀ p ∈ layouts, ∀ function, Ident.ofFunction ["decode", p.name, "properties"] = .ok function →
    ∀ payload, calls function (.octets payload) = some (.result ((p.decode payload).map .record))
  encode : ∀ p ∈ layouts, ∀ function, Ident.ofFunction ["encode", p.name, "properties"] = .ok function →
    ∀ record, TypedProperties p.types record →
      calls function (.record record) = some (.result ((p.encode record).map .octets))

namespace PropertyCode

/-- The entry is that of a class with the id and the name. -/
structure Entry.IsFor (e : Entry) (classId : UInt16) (className : String) : Prop where
  classId : e.classId = classId
  id : Ident.ofType [className] = .ok e.id
  decode : Ident.ofFunction ["decode", className, "properties"] = .ok e.decoder.function
  encode : Ident.ofFunction ["encode", className, "properties"] = .ok e.encoder.function

theorem isFor_of_entry {c : Class} {e : Entry} (h : (entry d c).Yields e) : e.IsFor c.id c.name := by
  obtain ⟨-, -, h⟩ := h.bind
  obtain ⟨id, named, h⟩ := h.bind
  obtain ⟨record, -, h⟩ := h.bind
  obtain ⟨decode, decodes, h⟩ := h.bind
  obtain ⟨encode, encodes, h⟩ := h.bind
  obtain ⟨decoder, decoded, h⟩ := h.bind
  obtain ⟨encoder, encoded, h⟩ := h.bind
  obtain ⟨reads, -, decoded⟩ := Except.bind_eq_ok.mp decoded.ofExcept
  obtain ⟨writes, -, encoded⟩ := Except.bind_eq_ok.mp encoded.ofExcept
  cases decoded
  cases encoded
  cases h.eq_of_pure
  exact ⟨rfl, named.ofExcept, decodes.ofExcept, encodes.ofExcept⟩

theorem chooses_class_id (id : UInt16) (payload : Bytes) :
    Chooses (words "class_id : u16 ," ++ payloadParameter ++ words ",") (words "class_id")
      [.number id, .octets payload] [("class_id", .number id), ("payload", .octets payload)] (.number id) := by
  simp only [payloadParameter, words_eq]
  exact ⟨rfl, rfl, rfl, fun _ => rfl⟩

theorem chooses_properties (value : Value) :
    Chooses (words "properties : & Properties") (words "* properties") [value] [("properties", value)]
      value := by
  simp only [words_eq]
  exact ⟨rfl, rfl, rfl, fun _ => rfl⟩

section

variable {calls : Calls} {owner : String}

theorem whole_decode (function id : Ident) :
    Whole (name function ++ parens (words "payload") ++ words ". map" ++ parens (member "Properties" id)) := by
  simp only [words_eq]
  exact whole_iff.mpr rfl

theorem outcome?_decode {function id : Ident} {classId : UInt16} {value : Value}
    {result : Except FrameError Value} (called : calls function value = some (.result result)) :
    outcome? calls owner [("class_id", .number classId), ("payload", value)]
        (name function ++ parens (words "payload") ++ words ". map" ++ parens (member "Properties" id)) =
      some (.result (result.map (.holding "Properties" id))) := by
  simp only [member, words_eq]
  change (calls function value).bind (Outcome.map? (.holding "Properties" id)) = _
  rw [called]
  rfl

theorem outcome?_encode {function : Ident} {value : Value} {locals : Locals} :
    outcome? calls owner (("properties", value) :: locals) (name function ++ parens (words "properties")) =
      calls function value := by
  simp only [words_eq]
  rfl

end

theorem pattern?_ref (id : Ident) :
    pattern? "Self" (member "Properties" id ++ parens (words "ref properties")) =
      some (.holding "Properties" id (some "properties")) := by
  simp only [member, words_eq]
  rfl

theorem whole_ref (id : Ident) : Whole (member "Properties" id ++ parens (words "ref properties")) := by
  simp only [member, words_eq]
  exact whole_iff.mpr rfl

theorem whole_encode (function : Ident) : Whole (name function ++ parens (words "properties")) :=
  whole_iff.mpr rfl

variable {entries : List Entry} {layouts : List PropertyLayout} {items : List Item} {calls : Calls}

theorem call_decode_properties
    (each : List.Forall₂ (fun p e => Entry.IsFor e p.classId p.name) layouts entries)
    (inside : decodeDispatch entries ∈ items) (follow : calls.Follow layouts) (id : UInt16) (payload : Bytes) :
    CallReturns items calls "decode_properties" [.number id, .octets payload] Properties.IsHeld
      (Properties.decode layouts id payload) := by
  have called : (decodeDispatch entries).call? calls "Self" "decode_properties" [.number id, .octets payload] =
      _ :=
    Item.call?_table (chooses_class_id id payload) (fun e _ => denotes_number e.classId)
      (fun e _ => whole_decode e.decoder.function e.id) (whole_holding rfl _) calls
  have searched := each.find? (p := fun p => decide (p.classId = id))
    (q := fun e => Atom.number e.classId == .number id)
    fun p e here => Bool.eq_iff_iff.mpr (by simp [here.classId])
  obtain ⟨p, e, found, found', own⟩ | ⟨missed, missed'⟩ := searched
  · have ends := follow.decode p (List.mem_of_find?_eq_some found) e.decoder.function own.decode payload
    rw [Properties.decode_of_first (FirstWith.iff_find?.mpr found)]
    rw [found'] at called
    have ended := called.trans (outcome?_decode ends)
    cases decoded : p.decode payload with
    | ok record =>
      rw [decoded] at ended
      exact ⟨_, ⟨e.id, own.id, rfl⟩, _, inside, ended⟩
    | error e =>
      rw [decoded] at ended
      exact ⟨_, inside, ended⟩
  · have none : ∀ p ∈ layouts, p.classId ≠ id := by simpa using missed
    rw [Properties.decode_of_unknown none]
    rw [missed'] at called
    exact ⟨_, inside, called.trans (outcome?_unknownClassId id)⟩

theorem call_encode_properties
    (each : List.Forall₂ (fun p e => Entry.IsFor e p.classId p.name) layouts entries)
    (inside : encodeDispatch entries ∈ items) (follow : calls.Follow layouts) {id : Ident} {p : PropertyLayout}
    (first : FirstWith (fun p => Ident.ofType [p.name] = .ok id) layouts p)
    {record : List (Option WireValue)} (typed : TypedProperties p.types record) :
    CallEnds items calls "encode_properties" [.holding "Properties" id (.record record)]
      (.result ((p.encode record).map .octets)) := by
  have keys : ∀ e ∈ entries, ∃ pattern,
      pattern? "Self" (member "Properties" e.id ++ parens (words "ref properties")) = some pattern ∧
        pattern.match? (.holding "Properties" id (.record record)) =
          if e.id == id then some [("properties", .record record)] else none :=
    fun e _ => ⟨_, pattern?_ref e.id, by simp [Pattern.match?]⟩
  have called : (encodeDispatch entries).call? calls "Self" "encode_properties"
      [.holding "Properties" id (.record record)] = _ :=
    Item.call?_variants (chooses_properties _) keys (fun e _ => ⟨whole_ref e.id, whole_encode _⟩) calls
  have searched := each.find? (p := fun p => (Ident.ofType [p.name]).toOption == some id)
    (q := fun e => e.id == id) fun p e here => by rw [here.id]; rfl
  rw [first.find?_eq fun p _ => by rw [beq_iff_eq, Except.toOption_eq_some]] at searched
  obtain ⟨p', e, same, found, own⟩ | ⟨missed, -⟩ := searched
  · cases same
    rw [found] at called
    have ends := follow.encode p first.mem e.encoder.function own.encode record typed
    exact ⟨_, inside, called.trans (outcome?_encode.trans ends)⟩
  · cases missed

end PropertyCode

namespace Declarations

theorem chooses_self (value : Value) :
    Chooses (words "& self") (words "* self") [value] [("self", value)] value := by
  simp only [words_eq]
  exact ⟨rfl, rfl, rfl, fun _ => rfl⟩

theorem pattern?_any (id : Ident) :
    pattern? "Properties" (member "Self" id ++ parens (words "_")) = some (.holding "Properties" id none) := by
  simp only [member, words_eq]
  rfl

theorem whole_any (id : Ident) : Whole (member "Self" id ++ parens (words "_")) := by
  simp only [member, words_eq]
  exact whole_iff.mpr rfl

/-- The variants are those of the classes, each with the id of its class. -/
theorem variants_of_layouts {variants : List (Ident × Ident × Tokens)} {layouts : List PropertyLayout}
    (listed : d.classes.mapM (fun c => do
      let id ← c.typeIdent
      let record ← c.propertiesIdent
      return (id, record, Literal.number c.id.toNat "u16")) = .ok variants)
    (made : d.propertyLayouts = .ok layouts) :
    List.Forall₂ (fun p v => Ident.ofType [p.name] = .ok v.1 ∧ v.2.2 = Literal.number p.classId.toNat "u16")
      layouts variants := by
  refine (Except.forall₂_of_mapM made).flip.comp (Except.forall₂_of_mapM listed) fun p c v laid made => ?_
  obtain ⟨id, name, -⟩ := Description.propertyLayout_eq_ok.mp laid
  obtain ⟨variant, named, made⟩ := Except.bind_eq_ok.mp made
  obtain ⟨record, -, same⟩ := Except.bind_eq_ok.mp made
  cases same
  rw [id, name]
  exact ⟨named, rfl⟩

theorem call_class_id {items : List Item} {layouts : List PropertyLayout}
    (h : propertiesChoice d = .ok items) (made : d.propertyLayouts = .ok layouts) (calls : Calls) {id : Ident}
    {p : PropertyLayout} (first : FirstWith (fun p => Ident.ofType [p.name] = .ok id) layouts p)
    (held : Value) :
    CallOnEnds items calls "Properties" "class_id" [.holding "Properties" id held]
      (.value (.number p.classId)) := by
  obtain ⟨variants, listed, same⟩ := Except.bind_eq_ok.mp h
  cases same
  have each := variants_of_layouts listed made
  refine ⟨_, .tail _ (.head _), ?_⟩
  have keys : ∀ v ∈ variants, ∃ pattern,
      pattern? "Properties" (member "Self" v.1 ++ parens (words "_")) = some pattern ∧
        pattern.match? (.holding "Properties" id held) = if v.1 == id then some [] else none :=
    fun v _ => ⟨_, pattern?_any v.1, by simp [Pattern.match?]⟩
  have searched := each.find? (p := fun p => (Ident.ofType [p.name]).toOption == some id)
    (q := fun v => v.1 == id) fun p e here => by rw [here.1]; rfl
  rw [first.find?_eq fun p _ => by rw [beq_iff_eq, Except.toOption_eq_some]] at searched
  obtain ⟨p', v, same, found, own⟩ | ⟨missed, -⟩ := searched
  · cases same
    have numbers : ∀ v ∈ variants, ∃ n : UInt16, v.2.2 = Literal.number n.toNat "u16" := by
      intro v member
      obtain ⟨p, -, own⟩ := each.flip.exists_of_mem member
      exact ⟨p.classId, own.2⟩
    have whole : ∀ v ∈ variants, Whole (member "Self" v.1 ++ parens (words "_")) ∧ Whole v.2.2 := by
      intro v member
      obtain ⟨n, written⟩ := numbers v member
      exact ⟨whole_any v.1, written ▸ whole_literal (literal?_number n)⟩
    refine (Item.call?_variants (chooses_self _) keys whole calls).trans ?_
    rw [found, Option.bind_some, own.2]
    exact outcome?_literal (literal?_number p.classId)
  · cases missed

end Declarations

end WireProtocol
