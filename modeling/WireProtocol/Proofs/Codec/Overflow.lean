import WireProtocol.Proofs.Codec.Method
import WireProtocol.Proofs.Codec.Presence
import WireProtocol.Proofs.Table.Names

/-!
# Records that cannot be written

* `ShortText`: what stands behind a length of one octet, a short string or a name in a table.
* `WireValue.shortTexts`: the short texts of a value, in the order in which they are written.
* `WireValue.wire_ends`, `Chunk.wires_ends`: values and chunks are refused for the first short text
  that is too long, as long as nothing outgrows a length of four octets.
* `records_overflow_at_first`: the same for the records of methods and of properties.
-/

namespace WireProtocol

/-- What stands behind a length of one octet. -/
inductive ShortText where
  | string (bytes : Bytes)
  | name (bytes : Bytes)

namespace ShortText

def bytes : ShortText → Bytes
  | string bytes => bytes
  | name bytes => bytes

/-- The text is not too long for its length. -/
def Fits (text : ShortText) : Prop :=
  text.bytes.length ≤ 255

instance (text : ShortText) : Decidable text.Fits :=
  inferInstanceAs (Decidable (text.bytes.length ≤ 255))

/-- The error for a text that is too long. -/
def overflow : ShortText → FrameError
  | string bytes => .shortStrOverflow bytes.length
  | name bytes => .table "table" (.nameTooLong bytes.length)

def overflow? (text : ShortText) : Option FrameError :=
  if text.Fits then none else some text.overflow

theorem overflow?_eq_none {text : ShortText} : text.overflow? = none ↔ text.Fits := by
  simp [overflow?]

theorem overflow?_of_not_fits {text : ShortText} (h : ¬ text.Fits) :
    text.overflow? = some text.overflow :=
  if_neg h

theorem overflow?_name (bytes : Bytes) :
    (name bytes).overflow? = (FieldTable.nameOverflow? bytes).map (.table "table") := by
  unfold overflow? FieldTable.nameOverflow?
  by_cases short : bytes.length ≤ 255
  · rw [if_pos short, if_pos (show (name bytes).Fits from short)]
    rfl
  · rw [if_neg short, if_neg (show ¬ (name bytes).Fits from short)]
    rfl

end ShortText

namespace WireValue

/-- The short texts of a value: itself, or the names of a table. -/
def shortTexts : WireValue → List ShortText
  | shortstr bytes => [.string bytes]
  | table entries => (FieldTable.names entries).map .name
  | _ => []

/-- The error for the first short text of a value that is too long. -/
def overflow? (value : WireValue) : Option FrameError :=
  value.shortTexts.findSome? ShortText.overflow?

/-- Nothing of the value outgrows a length of four octets: neither a long string nor the body of a
table, which is longer than all that is inside it. -/
def Countable : WireValue → Prop
  | longstr bytes => bytes.length < UInt32.size
  | table entries => FieldTable.size entries < UInt32.size
  | _ => True

theorem overflow?_of_isBit {value : WireValue} (h : value.wireType.isBit = true) :
    value.overflow? = none := by
  obtain ⟨set, rfl⟩ := eq_bit_of_isBit h
  rfl

/-- A value of which nothing is too large is refused for its first short text that is too long. -/
theorem wire_ends {value : WireValue} (countable : value.Countable) :
    value.wire.Ends value.overflow? := by
  cases value with
  | shortstr bytes =>
    have only : (shortstr bytes).overflow? = (ShortText.string bytes).overflow? :=
      List.findSome?_singleton
    rw [only]
    by_cases fits : (ShortText.string bytes).Fits
    · rw [ShortText.overflow?_eq_none.mpr fits]
      exact .value (countedWire_eq_ok.mpr ⟨Nat.lt_succ_of_le fits, rfl⟩)
    · rw [ShortText.overflow?_of_not_fits fits]
      exact .error (if_neg fun short => fits (Nat.le_of_lt_succ short))
  | longstr bytes => exact .value (countedWire_eq_ok.mpr ⟨countable, rfl⟩)
  | table entries =>
    have names : (table entries).overflow? =
        ((FieldTable.names entries).findSome? FieldTable.nameOverflow?).map (.table "table") := by
      rw [overflow?, shortTexts, List.findSome?_map, List.map_findSome?]
      exact congrArg (List.findSome? · _) (funext ShortText.overflow?_name)
    have written := FieldTable.encode_ends countable
    rw [names]
    cases first : (FieldTable.names entries).findSome? FieldTable.nameOverflow? with
    | none =>
      rw [first] at written
      obtain ⟨body, encoded⟩ := written.exists_ok
      have fits : body.length < UInt32.size := by
        rwa [(EntriesForm.of_encode entries body encoded).length_eq_size]
      rw [wire, encoded]
      exact .value (countedWire_eq_ok.mpr ⟨fits, rfl⟩)
    | some source =>
      rw [first] at written
      rw [wire, written.eq_error]
      exact .error rfl
  | _ => exact .value rfl

end WireValue

open WireValue

namespace Chunk

/-- Chunks are refused for the first short text that is too long. -/
theorem wires_ends {chunks : List (Chunk WireValue)} (typed : ∀ chunk ∈ chunks, chunk.Typed)
    (countable : ∀ value ∈ chunks.flatMap values, value.Countable) :
    (wires chunks).Ends ((chunks.flatMap values).findSome? WireValue.overflow?) := by
  induction chunks with
  | nil => exact .value rfl
  | cons chunk chunks ih =>
    rw [List.forall_mem_cons] at typed
    rw [List.flatMap_cons, List.forall_mem_append] at countable
    have first : chunk.wire.Ends (chunk.values.findSome? WireValue.overflow?) := by
      cases chunk with
      | fixedWidth value ty | variableWidth value ty =>
        rw [values, List.findSome?_singleton]
        exact wire_ends (countable.1 value List.mem_cons_self)
      | bits members =>
        have none : members.findSome? WireValue.overflow? = none := by
          rw [List.findSome?_eq_none_iff]
          intro value member
          apply overflow?_of_isBit
          rw [typed.1 value .bit (List.mem_map.mpr ⟨value, member, rfl⟩)]
          rfl
        rw [values, none]
        exact .value rfl
    rw [wires, List.flatMap_cons, List.findSome?_append]
    exact first.bind fun front _ => (ih typed.2 countable.2).map fun back => front ++ back

end Chunk

/-! ## Records -/

/-- What becomes of short texts: octets if each of them fits, and otherwise the error for the first
one that does not. -/
structure OverflowsAtFirst (texts : List ShortText) (outcome : Except FrameError Bytes) : Prop where
  written : (∃ octets, outcome = .ok octets) ↔ ∀ text ∈ texts, text.Fits
  refused : ∀ before text after, texts = before ++ text :: after →
    (∀ earlier ∈ before, earlier.Fits) → ¬ text.Fits → outcome = .error text.overflow

theorem OverflowsAtFirst.of_ends {record : List WireValue} {outcome : Except FrameError Bytes}
    (h : outcome.Ends (record.findSome? WireValue.overflow?)) :
    OverflowsAtFirst (record.flatMap shortTexts) outcome := by
  have first : outcome.Ends ((record.flatMap shortTexts).findSome? ShortText.overflow?) := by
    rwa [List.findSome?_flatMap]
  constructor
  · simp only [first.exists_ok_iff_forall, ShortText.overflow?_eq_none]
  · intro before text after split passed failed
    rw [split] at first
    exact first.error_of_first (fun earlier member => ShortText.overflow?_eq_none.mpr
      (passed earlier member)) (ShortText.overflow?_of_not_fits failed)

theorem MethodLayout.encode_ends {m : MethodLayout} {record : List WireValue}
    (typed : record.map WireValue.wireType = m.types)
    (countable : ∀ value ∈ record, value.Countable) :
    (m.encode record).Ends (record.findSome? WireValue.overflow?) := by
  have values := recordChunks_values typed
  have ends := Chunk.wires_ends (typed_recordChunks typed) (by rwa [values])
  rwa [values, ← encode_eq] at ends

theorem PropertyLayout.encode_ends {p : PropertyLayout} {record : List (Option WireValue)}
    (typed : TypedProperties p.types record)
    (countable : ∀ value, some value ∈ record → value.Countable) :
    (p.encode record).Ends ((record.filterMap id).findSome? WireValue.overflow?) := by
  by_cases none : p.properties = []
  · have types : p.types = [] := by rw [PropertyLayout.types, none, List.map_nil]
    rw [types] at typed
    cases typed
    rw [encode, none]
    exact .value rfl
  · have carried : (carriedValues record).findSome? WireValue.overflow? =
        (record.filterMap id).findSome? WireValue.overflow? := by
      rw [carriedValues]
      induction record.filterMap id with
      | nil => rfl
      | cons value values ih =>
        cases single : value.wireType.isBit with
        | true => simp [single, overflow?_of_isBit single, ih]
        | false => simp [single, List.findSome?_cons, ih]
    rw [encode_of_nonempty none typed, propertiesWire_eq, ← carried]
    refine ((Except.Ends.mapM fun value member => wire_ends ?_).map List.flatten).map _
    obtain ⟨present, -⟩ := List.mem_filter.mp member
    apply countable
    simpa using present

/-- A record of which nothing is too large is refused for the first text in it, in the order of
writing, that is too long for a length of one octet: a short string, or a name in a table or in what
the table holds. -/
theorem records_overflow_at_first :
    (∀ (m : MethodLayout) record, record.map WireValue.wireType = m.types →
      (∀ value ∈ record, value.Countable) →
        OverflowsAtFirst (record.flatMap shortTexts) (m.encode record)) ∧
    ∀ (p : PropertyLayout) record, TypedProperties p.types record →
      (∀ value, some value ∈ record → value.Countable) →
        OverflowsAtFirst ((record.filterMap id).flatMap shortTexts) (p.encode record) :=
  ⟨fun _ _ typed countable => .of_ends (MethodLayout.encode_ends typed countable),
    fun _ _ typed countable => .of_ends (PropertyLayout.encode_ends typed countable)⟩

namespace LongNames

/-- A text of so many octets. -/
def text (length : Nat) : Bytes :=
  List.replicate length 0x6E

@[simp] theorem length_text (length : Nat) : (text length).length = length :=
  List.length_replicate

/-- A table with a name inside an array, in front of another one. -/
def entries (inner outer : Nat) : FieldTable :=
  [(text 1, .array [.bool true, .table [(text inner, .void)]]), (text outer, .void)]

/-- The arguments of a declaration with these names in its table. -/
def arguments (inner outer : Nat) : List WireValue :=
  [.short 7, .shortstr (text 255), .bit true, .bit false, .table (entries inner outer), .bit true]

/-- Properties with a short string in front of a table. -/
def properties (type inner outer : Nat) : List (Option WireValue) :=
  [some (.shortstr (text type)), some (.table (entries inner outer)), none, some (.bit true), none]

/-- Of several texts that are too long the one inside the array is reported before the name behind
it, and a short string before the names of the table that follows. -/
theorem first_overflow_is_reported :
    (∃ octets, QueueDeclare.layout.encode (arguments 255 255) = .ok octets) ∧
      QueueDeclare.layout.encode (arguments 256 300) = .error (.table "table" (.nameTooLong 256)) ∧
      BasicContent.layout.encode (properties 300 256 256) = .error (.shortStrOverflow 300) := by
  have small (inner outer : Nat) (h : inner + outer ≤ 600) :
      FieldTable.size (entries inner outer) < UInt32.size := by
    simp only [entries, FieldTable.size, FieldTable.valueSize, FieldTable.valuesSize, length_text,
      UInt32.size]
    omega
  have declared (inner outer : Nat) (h : inner + outer ≤ 600) :=
    records_overflow_at_first.1 QueueDeclare.layout (arguments inner outer) rfl
      (by simp [arguments, WireValue.Countable, small inner outer h])
  have described := records_overflow_at_first.2 BasicContent.layout (properties 300 256 256)
    (.present rfl (.present rfl (.absent (.present rfl (.absent .nil)))))
      (by simp [properties, WireValue.Countable, small 256 256 (by decide)])
  refine ⟨(declared 255 255 (by decide)).written.mpr ?_, ?_, ?_⟩
  · simp [arguments, entries, shortTexts, FieldTable.names, FieldTable.valueNames,
      FieldTable.valuesNames, ShortText.Fits, ShortText.bytes]
  · have refused := (declared 256 300 (by decide)).refused [.string (text 255), .name (text 1)]
      (.name (text 256)) [.name (text 300)] rfl (by simp [ShortText.Fits, ShortText.bytes])
      (by simp [ShortText.Fits, ShortText.bytes])
    rwa [ShortText.overflow, length_text] at refused
  · have refused := described.refused [] (.string (text 300)) _ rfl nofun
      (by simp [ShortText.Fits, ShortText.bytes])
    rwa [ShortText.overflow, length_text] at refused

end LongNames

end WireProtocol
