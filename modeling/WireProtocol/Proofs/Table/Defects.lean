import WireProtocol.Proofs.Bytes.Shortage
import WireProtocol.Proofs.Table.Concatenation

/-!
# Defects of table bodies

A body that is no table has a defect: an octet that announces no value, or an item that runs past the
end of the container that it stands in. What is read before the defect is in order.

* `Container.Awaits`: the item that comes next in the body of a container.
* `Container.Within`: the bodies of the containers inside a body.
* `Container.Defect`: what is wrong with the body of a container, and the error that tells it.
* `FieldTable.errors_point_at_defects`: a body is refused with the error of a defect in it, and with no
  other one.
-/

namespace WireProtocol

open BigEndian
open FieldValue (Kind)

/-! ## Steps of a cursor that fail -/

namespace Cursor

variable {c : Cursor} {width n : Nat} {e : TableError}

theorem take_eq_error : c.take n = .error e ↔ c.rest.length < n ∧ e = .truncated c.pos := by
  have length : (c.rest.take n).length = min n c.rest.length := List.length_take
  unfold take
  simp only
  split
  · refine iff_of_false nofun fun h => ?_
    omega
  · rw [Except.error.injEq, eq_comm]
    refine (and_iff_right ?_).symm
    omega

theorem takeNat_eq_error :
    c.takeNat width = .error e ↔ c.rest.length < width ∧ e = .truncated c.pos := by
  rw [takeNat, Except.bind_eq_error, take_eq_error]
  refine or_iff_left ?_
  rintro ⟨taken, -, h⟩
  cases h

/-- Octets behind their number fail where the cursor runs out of octets. -/
theorem takePrefixed_eq_error :
    c.takePrefixed width = .error e ↔
      ∃ n, ShortAt (CountedAwaits width) c.rest n ∧ e = .truncated (c.pos + n) := by
  rw [takePrefixed, Except.bind_eq_error, takeNat_eq_error]
  constructor
  · rintro (⟨short, rfl⟩ | ⟨⟨n, c₁⟩, counted, failed⟩)
    · exact ⟨0, .of_nil .number short, rfl⟩
    · obtain ⟨bound, parts, pos⟩ := takeNat_eq_ok.mp counted
      obtain ⟨short, rfl⟩ := take_eq_error.mp failed
      refine ⟨(encode width n).length, ?_, ?_⟩
      · rw [parts]
        exact .of_append (.octets bound) short
      · rw [pos, length_encode]
  · rintro ⟨n, short, rfl⟩
    obtain ⟨part, needed, rest, next, parts, few, rfl⟩ := shortAt_iff.mp short
    cases next with
    | number => exact .inl ⟨parts ▸ few, rfl⟩
    | octets bound =>
      refine .inr ⟨(needed, ⟨c.pos + width, rest⟩), takeNat_eq_ok.mpr ⟨bound, parts, rfl⟩,
        take_eq_error.mpr ⟨few, ?_⟩⟩
      rw [length_encode]

end Cursor

/-- What comes next in a payload. A scaled payload is read in two steps. -/
inductive PayloadForm.Awaits : PayloadForm → Bytes → Nat → Prop where
  | fixed {width : Nat} : Awaits (.fixed width) [] width
  | scale {width : Nat} : Awaits (.scaled width) [] 1
  | scaled {width : Nat} (scale : UInt8) : Awaits (.scaled width) [scale] width
  | counted {part : Bytes} {needed : Nat} (next : CountedAwaits 4 part needed) :
    Awaits .counted part needed

theorem PayloadForm.read_eq_error {form : PayloadForm} {c : Cursor} {e : TableError} :
    form.read c = .error e ↔ ∃ n, ShortAt form.Awaits c.rest n ∧ e = .truncated (c.pos + n) := by
  cases form with
  | fixed width =>
    rw [PayloadForm.read, Cursor.take_eq_error]
    constructor
    · rintro ⟨short, rfl⟩
      exact ⟨0, .of_nil .fixed short, rfl⟩
    · rintro ⟨n, short, rfl⟩
      obtain ⟨part, needed, rest, ⟨⟩, parts, few, rfl⟩ := shortAt_iff.mp short
      exact ⟨parts ▸ few, rfl⟩
  | scaled width =>
    simp only [PayloadForm.read, Except.bind_eq_error]
    constructor
    · rintro (failed | ⟨⟨scale, c₁⟩, first, failed | ⟨second, -, h⟩⟩)
      · obtain ⟨short, rfl⟩ := Cursor.take_eq_error.mp failed
        exact ⟨0, .of_nil .scale short, rfl⟩
      · obtain ⟨one, parts, pos⟩ := Cursor.take_eq_ok.mp first
        obtain ⟨octet, rfl⟩ := List.length_eq_one_iff.mp one
        obtain ⟨short, rfl⟩ := Cursor.take_eq_error.mp failed
        refine ⟨1, ?_, by rw [pos]⟩
        rw [parts]
        exact .of_append (.scaled octet) short
      · cases h
    · rintro ⟨n, short, rfl⟩
      obtain ⟨part, needed, rest, next, parts, few, rfl⟩ := shortAt_iff.mp short
      cases next with
      | scale => exact .inl (Cursor.take_eq_error.mpr ⟨parts ▸ few, rfl⟩)
      | scaled octet =>
        exact .inr ⟨([octet], ⟨c.pos + 1, rest⟩), Cursor.take_eq_ok.mpr ⟨rfl, parts, rfl⟩,
          .inl (Cursor.take_eq_error.mpr ⟨few, rfl⟩)⟩
  | counted =>
    rw [PayloadForm.read, Cursor.takePrefixed_eq_error]
    refine exists_congr fun n => and_congr_left fun _ => ShortAt.congr fun part needed => ?_
    constructor
    · exact .counted
    · intro h
      cases h with
      | counted next => exact next

theorem FieldValue.Kind.ofTag?_eq_none_iff {tag : UInt8} :
    Kind.ofTag? tag = none ↔ ∀ kind : Kind, kind.tag ≠ tag := by
  rw [Kind.ofTag?, List.find?_eq_none]
  constructor
  · intro h kind same
    exact h kind kind.mem_all (beq_iff_eq.mpr same)
  · intro h kind _ same
    exact h kind (beq_iff_eq.mp same)

namespace FieldItem

variable {pos : Nat} {rest : Bytes} {e : TableError}

theorem read_of_unknown {tag : UInt8} (unknown : ∀ kind : Kind, kind.tag ≠ tag) :
    read ⟨pos, tag :: rest⟩ = .error (.unknownTag tag pos) := by
  have first : Cursor.take 1 ⟨pos, tag :: rest⟩ = .ok ([tag], ⟨pos + 1, rest⟩) :=
    Cursor.take_eq_ok.mpr ⟨rfl, rfl, rfl⟩
  simp only [read, first, List.headD_cons, Kind.ofTag?_eq_none_iff.mpr unknown]

/-- Behind a tag that announces a value only its payload can be at fault. -/
theorem read_of_kind {kind : Kind} :
    read ⟨pos, kind.tag :: rest⟩ = .error e ↔ kind.form.read ⟨pos + 1, rest⟩ = .error e := by
  have first : Cursor.take 1 ⟨pos, kind.tag :: rest⟩ = .ok ([kind.tag], ⟨pos + 1, rest⟩) :=
    Cursor.take_eq_ok.mpr ⟨rfl, rfl, rfl⟩
  simp only [read, first, List.headD_cons, Kind.ofTag?_tag]
  cases kind.form.read ⟨pos + 1, rest⟩ with
  | error e' => rw [Except.error.injEq, Except.error.injEq]
  | ok =>
    constructor
    · intro h
      cases h
    · intro h
      cases h

/-- A value cannot be read up to the end of its payload where its tag is missing, where its tag
announces none, and where its payload is cut. -/
theorem read_eq_error {c : Cursor} :
    read c = .error e ↔
      c.rest = [] ∧ e = .truncated c.pos ∨
      (∃ tag rest, c.rest = tag :: rest ∧ (∀ kind : Kind, kind.tag ≠ tag) ∧
        e = .unknownTag tag c.pos) ∨
      ∃ (kind : Kind) (rest : Bytes) (n : Nat), c.rest = kind.tag :: rest ∧
        ShortAt kind.form.Awaits rest n ∧ e = .truncated (c.pos + (1 + n)) := by
  obtain ⟨pos, octets⟩ := c
  constructor
  · intro failed
    rcases octets with _ | ⟨tag, rest⟩
    · cases failed
      exact .inl ⟨rfl, rfl⟩
    · cases known : Kind.ofTag? tag with
      | none =>
        have unknown := Kind.ofTag?_eq_none_iff.mp known
        cases (read_of_unknown unknown).symm.trans failed
        exact .inr (.inl ⟨tag, rest, rfl, unknown, rfl⟩)
      | some kind =>
        cases Kind.tag_of_ofTag? known
        obtain ⟨n, short, rfl⟩ := PayloadForm.read_eq_error.mp (read_of_kind.mp failed)
        exact .inr (.inr ⟨kind, rest, n, rfl, short, by rw [Nat.add_assoc]⟩)
  · rintro (⟨rfl, rfl⟩ | ⟨tag, rest, rfl, unknown, rfl⟩ | ⟨kind, rest, n, rfl, short, rfl⟩)
    · rfl
    · exact read_of_unknown unknown
    · exact read_of_kind.mpr (PayloadForm.read_eq_error.mpr ⟨n, short, by rw [Nat.add_assoc]⟩)

end FieldItem

/-! ## Containers -/

/-- What holds values in a row: a table gives each of them a name, an array does not. -/
inductive Container where
  | table
  | array
deriving DecidableEq, Repr

namespace Container

def kind : Container → Kind
  | table => .table
  | array => .array

/-- The octets in front of a value of a container are in order: whole entries and the name of the
value, or whole values. -/
inductive Passed : Container → Bytes → Prop where
  | table {entries : FieldTable} {front name : Bytes} (spelled : EntriesForm entries front)
    (bound : name.length < capacity 1) :
    Passed .table (front ++ (encode 1 name.length ++ name))
  | array {values : List FieldValue} {front : Bytes} (spelled : ValuesForm values front) :
    Passed .array front

/-- What comes next in the body of a container, behind octets that are in order: a name of which the
length has been read, the tag of a named value, or a part of the payload of a value. The length of a
name is never missing, nor is the tag of a value in an array, because the body ends in front of
them. -/
inductive Awaits : Container → Bytes → Nat → Prop where
  | name {entries : FieldTable} {front : Bytes} {n : Nat} (spelled : EntriesForm entries front)
    (bound : n < capacity 1) : Awaits .table (front ++ encode 1 n) n
  | tag {front : Bytes} (passed : Passed .table front) : Awaits .table front 1
  | payload {k : Container} {front part : Bytes} {kind : Kind} {needed : Nat}
    (passed : k.Passed front) (next : kind.form.Awaits part needed) :
    Awaits k (front ++ kind.tag :: part) needed

/-- The body of a container is this one, or it stands in it behind octets that are in order, at any
depth. -/
inductive Within (k : Container) (inner : Bytes) : Container → Bytes → Prop where
  | here : Within k inner k inner
  | inside {outer next : Container} {front body rest : Bytes} (passed : outer.Passed front)
    (bound : body.length < capacity 4) (within : Within k inner next body) :
    Within k inner outer (front ++ (next.kind.tag :: (encode 4 body.length ++ body)) ++ rest)

/-- What is wrong with the body of a container, and the error that tells it. Behind octets that are in
order, fewer are left than the next item takes, or an octet announces no value. -/
inductive Defect (k : Container) (body : Bytes) : TableError → Prop where
  | truncated {offset : Nat} (short : ShortAt k.Awaits body offset) :
    Defect k body (.truncated offset)
  | unknownTag {tag : UInt8} {offset : Nat} (passed : k.Passed (body.take offset))
    (there : body[offset]? = some tag) (unknown : ∀ kind : Kind, kind.tag ≠ tag) :
    Defect k body (.unknownTag tag offset)

/-- The body has the defect of the error, or a container inside it has. -/
def Defective (k : Container) (body : Bytes) (e : TableError) : Prop :=
  ∃ k' inner, Within k' inner k body ∧ k'.Defect inner e

/-- The item of a container of which only the body is known. -/
def item : Container → Bytes → FieldItem
  | table, body => .table body
  | array, body => .array body

/-- The contents of a container cannot be read from a place on. -/
def Fails : Container → Cursor → TableError → Prop
  | table, c, e => FieldTable.decodeEntries c = .error e
  | array, c, e => FieldTable.decodeValues c = .error e

end Container

/-! ## Steps of a decoder that fail -/

theorem FieldItem.ofPayload_eq_item {kind : Kind} {payload body : Bytes} {k : Container} :
    ofPayload kind payload = k.item body ↔ kind = k.kind ∧ payload = body := by
  cases k <;> cases kind <;> simp [ofPayload, Container.item, Container.kind]

namespace FieldTable

variable {c : Cursor} {e : TableError}

/-- Only what a container holds can still be at fault in an item. -/
theorem decodeItem_eq_error {item : FieldItem} :
    decodeItem item = .error e ↔
      ∃ (k : Container) (body : Bytes), item = k.item body ∧ k.Fails (Cursor.start body) e := by
  cases item with
  | value v =>
    rw [decodeItem]
    refine iff_of_false nofun ?_
    rintro ⟨⟨⟩, body, ⟨⟩, -⟩
  | table body =>
    have own : decodeItem (.table body) = .error e ↔
        decodeEntries (Cursor.start body) = .error e := by
      cases contents : decodeEntries (Cursor.start body) <;> simp [decodeItem, contents]
    rw [own]
    constructor
    · exact fun failed => ⟨.table, body, rfl, failed⟩
    · rintro ⟨⟨⟩, body', ⟨⟩, failed⟩
      exact failed
  | array body =>
    have own : decodeItem (.array body) = .error e ↔
        decodeValues (Cursor.start body) = .error e := by
      cases contents : decodeValues (Cursor.start body) <;> simp [decodeItem, contents]
    rw [own]
    constructor
    · exact fun failed => ⟨.array, body, rfl, failed⟩
    · rintro ⟨⟨⟩, body', ⟨⟩, failed⟩
      exact failed

/-- A value fails where it cannot be read up to the end of its payload, and where it is a container of
which the contents fail. -/
theorem decodeValue_eq_error :
    decodeValue c = .error e ↔
      FieldItem.read c = .error e ∨
      ∃ (k : Container) (body rest : Bytes), body.length < capacity 4 ∧
        c.rest = (k.kind.tag :: (encode 4 body.length ++ body)) ++ rest ∧
        k.Fails (Cursor.start body) e := by
  rw [decodeValue, Except.bind_eq_error]
  refine or_congr_right ⟨?_, ?_⟩
  · rintro ⟨⟨item, c'⟩, read, h⟩
    rcases Except.bind_eq_error.mp h with failed | ⟨value, -, h⟩
    · obtain ⟨k, body, rfl, fails⟩ := decodeItem_eq_error.mp failed
      obtain ⟨kind, payload, same, admits, parts, -⟩ := FieldItem.read_eq_ok.mp read
      obtain ⟨rfl, rfl⟩ := FieldItem.ofPayload_eq_item.mp same.symm
      refine ⟨k, payload, c'.rest, ?_, ?_, fails⟩
      · cases k <;> exact admits
      · cases k <;> exact parts
    · cases h
  · rintro ⟨k, body, rest, bound, parts, fails⟩
    have read : FieldItem.read c =
        .ok (k.item body, ⟨c.pos + (k.kind.tag :: k.kind.form.carried body).length, rest⟩) := by
      refine FieldItem.read_eq_ok.mpr ⟨k.kind, body, ?_, ?_, ?_, rfl⟩
      · exact (FieldItem.ofPayload_eq_item.mpr ⟨rfl, rfl⟩).symm
      · cases k <;> exact bound
      · cases k <;> exact parts
    exact ⟨_, read, Except.bind_eq_error.mpr (.inl (decodeItem_eq_error.mpr ⟨k, body, rfl, fails⟩))⟩

theorem decodeEntries_eq_error :
    decodeEntries c = .error e ↔
      c.rest ≠ [] ∧ (c.takePrefixed 1 = .error e ∨
        ∃ name c₁, c.takePrefixed 1 = .ok (name, c₁) ∧ (decodeValue c₁ = .error e ∨
          ∃ value c₂, decodeValue c₁ = .ok (value, c₂) ∧ decodeEntries c₂ = .error e)) := by
  by_cases done : c.rest = []
  · rw [decodeEntries_eq_ok.mpr (.inl ⟨done, rfl⟩)]
    exact iff_of_false nofun fun h => h.1 done
  · rw [and_iff_right done, decodeEntries_of_ne_nil done, Except.bind_eq_error]
    refine or_congr_right ⟨?_, ?_⟩
    · rintro ⟨⟨name, c₁⟩, named, h⟩
      refine ⟨name, c₁, named, (Except.bind_eq_error.mp h).imp_right ?_⟩
      rintro ⟨⟨value, c₂⟩, read, h⟩
      rcases Except.bind_eq_error.mp h with failed | ⟨entries, -, h⟩
      · exact ⟨value, c₂, read, failed⟩
      · cases h
    · rintro ⟨name, c₁, named, h⟩
      refine ⟨(name, c₁), named, Except.bind_eq_error.mpr (h.imp_right ?_)⟩
      rintro ⟨value, c₂, read, failed⟩
      exact ⟨(value, c₂), read, Except.bind_eq_error.mpr (.inl failed)⟩

theorem decodeValues_eq_error :
    decodeValues c = .error e ↔
      c.rest ≠ [] ∧ (decodeValue c = .error e ∨
        ∃ value c₁, decodeValue c = .ok (value, c₁) ∧ decodeValues c₁ = .error e) := by
  by_cases done : c.rest = []
  · rw [decodeValues_eq_ok.mpr (.inl ⟨done, rfl⟩)]
    exact iff_of_false nofun fun h => h.1 done
  · rw [and_iff_right done, decodeValues_of_ne_nil done, Except.bind_eq_error]
    refine or_congr_right ⟨?_, ?_⟩
    · rintro ⟨⟨value, c₁⟩, read, h⟩
      rcases Except.bind_eq_error.mp h with failed | ⟨values, -, h⟩
      · exact ⟨value, c₁, read, failed⟩
      · cases h
    · rintro ⟨value, c₁, read, failed⟩
      exact ⟨(value, c₁), read, Except.bind_eq_error.mpr (.inl failed)⟩

end FieldTable

open FieldTable

namespace Container

variable {k outer : Container} {front rest body inner : Bytes} {e : TableError}

/-! ## Defects are reported -/

/-- What is in order in front of a value makes no difference to how the value fails. -/
theorem Passed.fails (passed : k.Passed front) (more : k = .array → rest ≠ [])
    (failed : decodeValue ⟨front.length, rest⟩ = .error e) :
    k.Fails (Cursor.start (front ++ rest)) e := by
  cases passed with
  | @table entries front name spelled bound =>
    have named : Cursor.takePrefixed 1
        ⟨0 + front.length, encode 1 name.length ++ name ++ rest⟩ =
          .ok (name, ⟨(front ++ (encode 1 name.length ++ name)).length, rest⟩) := by
      refine Cursor.takePrefixed_eq_ok.mpr ⟨bound, rfl, ?_⟩
      simp only [List.length_append, length_encode]
      omega
    change decodeEntries ⟨0, front ++ (encode 1 name.length ++ name) ++ rest⟩ = .error e
    rw [List.append_assoc, spelled.decode_append, Except.map_eq_error]
    exact decodeEntries_eq_error.mpr
      ⟨List.cons_ne_nil _ _, .inr ⟨name, _, named, .inl failed⟩⟩
  | array spelled =>
    change decodeValues ⟨0, front ++ rest⟩ = .error e
    rw [spelled.decode_append, Nat.zero_add, Except.map_eq_error]
    exact decodeValues_eq_error.mpr ⟨more rfl, .inl failed⟩

/-- A body is refused with the error of its defect. -/
theorem Defect.fails (defect : k.Defect body e) : k.Fails (Cursor.start body) e := by
  cases defect with
  | truncated short =>
    obtain ⟨part, needed, rest, next, rfl, few, rfl⟩ := shortAt_iff.mp short
    cases next with
    | @name entries front _ spelled bound =>
      change decodeEntries ⟨0, front ++ encode 1 needed ++ rest⟩ = _
      rw [List.append_assoc, spelled.decode_append, Except.map_eq_error, Nat.zero_add]
      refine decodeEntries_eq_error.mpr ⟨List.cons_ne_nil _ _, .inl ?_⟩
      refine Cursor.takePrefixed_eq_error.mpr ⟨_, .of_append (.octets bound) few, ?_⟩
      rw [List.length_append]
    | tag passed =>
      cases List.eq_nil_of_length_eq_zero (Nat.lt_one_iff.mp few)
      exact passed.fails nofun (decodeValue_eq_error.mpr (.inl rfl))
    | @payload _ front part kind _ passed next =>
      rw [List.append_assoc]
      refine passed.fails (fun _ => List.cons_ne_nil _ _) (decodeValue_eq_error.mpr (.inl ?_))
      refine FieldItem.read_eq_error.mpr
        (.inr (.inr ⟨kind, part ++ rest, _, rfl, .of_append next few, ?_⟩))
      rw [List.length_append, List.length_cons, Nat.add_comm 1]
  | @unknownTag tag offset passed there unknown =>
    obtain ⟨within, own⟩ := List.getElem?_eq_some_iff.mp there
    have parts : body = body.take offset ++ tag :: body.drop (offset + 1) := by
      rw [← own, List.getElem_cons_drop, List.take_append_drop]
    have length : (body.take offset).length = offset := List.length_take_of_le (Nat.le_of_lt within)
    rw [parts]
    refine passed.fails (fun _ => List.cons_ne_nil _ _) (decodeValue_eq_error.mpr (.inl ?_))
    exact FieldItem.read_eq_error.mpr (.inr (.inl ⟨tag, _, rfl, unknown, by rw [length]⟩))

/-- What fails inside a container fails the container. -/
theorem Within.fails (within : Within k inner outer body) (failed : k.Fails (Cursor.start inner) e) :
    outer.Fails (Cursor.start body) e := by
  induction within with
  | here => exact failed
  | @inside outer next front body rest passed bound within ih =>
    rw [List.append_assoc]
    refine passed.fails (fun _ => List.cons_ne_nil _ _) (decodeValue_eq_error.mpr (.inr ?_))
    exact ⟨next, body, rest, bound, rfl, ih⟩

/-! ## What is reported is a defect -/

theorem Defect.of_read (passed : k.Passed front) (more : k = .array → rest ≠ [])
    (failed : FieldItem.read ⟨front.length, rest⟩ = .error e) : k.Defect (front ++ rest) e := by
  rcases FieldItem.read_eq_error.mp failed with ⟨done, rfl⟩ | ⟨tag, rest', parts, unknown, rfl⟩ |
    ⟨kind, rest', n, parts, short, rfl⟩
  · cases k with
    | table =>
      have missing : ([] : Bytes).length < 1 := Nat.zero_lt_one
      rw [show rest = [] from done]
      exact .truncated (.of_append (.tag passed) missing)
    | array => exact absurd done (more rfl)
  · rw [show rest = _ from parts]
    refine .unknownTag ?_ ?_ unknown
    · rwa [List.take_left]
    · rw [List.getElem?_append_right (Nat.le_refl _), Nat.sub_self]
      rfl
  · rw [show rest = _ from parts]
    have behind : ShortAt k.Awaits (front ++ [kind.tag] ++ rest')
        ((front ++ [kind.tag]).length + n) := by
      refine short.behind fun part needed next => ?_
      rw [List.append_assoc]
      exact .payload passed next
    rw [List.append_assoc, List.length_append, Nat.add_assoc] at behind
    exact .truncated behind

/-- A defect of a container inside a value is one of the container that the value stands in. -/
theorem Passed.defective {next : Container} (passed : outer.Passed front)
    (bound : body.length < capacity 4) (inside : Defective next body e) :
    Defective outer (front ++ ((next.kind.tag :: (encode 4 body.length ++ body)) ++ rest)) e := by
  obtain ⟨k, inner, within, defect⟩ := inside
  rw [← List.append_assoc]
  exact ⟨k, inner, .inside passed bound within, defect⟩

mutual

theorem Defective.of_entries (c : Cursor) (entries : FieldTable) (front : Bytes)
    (spelled : EntriesForm entries front) (pos : c.pos = front.length)
    (failed : decodeEntries c = .error e) : Defective .table (front ++ c.rest) e := by
  obtain ⟨more, h⟩ := decodeEntries_eq_error.mp failed
  rcases h with failed | ⟨name, c₁, named, h⟩
  · obtain ⟨n, short, rfl⟩ := Cursor.takePrefixed_eq_error.mp failed
    refine ⟨.table, _, .here, ?_⟩
    rw [pos]
    obtain ⟨part, needed, rest, next, parts, few, rfl⟩ := shortAt_iff.mp short
    cases next with
    | number => exact absurd (List.eq_nil_of_length_eq_zero (Nat.lt_one_iff.mp (parts ▸ few))) more
    | octets bound =>
      rw [parts, ← List.append_assoc, ← List.length_append]
      exact .truncated (.of_append (.name spelled bound) few)
  · obtain ⟨bound, parts, pos'⟩ := Cursor.takePrefixed_eq_ok.mp named
    have := Cursor.takePrefixed_length named
    rw [parts]
    rcases h with failed | ⟨value, c₂, read, failed⟩
    · have here : c₁.pos = (front ++ (encode 1 name.length ++ name)).length := by
        simp only [List.length_append, length_encode, pos', pos]
      rw [← List.append_assoc]
      exact Defective.of_value c₁ .table _ (.table spelled bound) here nofun failed
    · obtain ⟨first, spelled', parts', pos''⟩ := decodeValue_eq_ok.mp read
      have shorter : c₁.rest.length = first.length + c₂.rest.length := by
        rw [parts', List.length_append]
      have here : c₂.pos = (front ++ (encode 1 name.length ++ name ++ first ++ [])).length := by
        simp only [List.length_append, length_encode, pos'', pos', pos, List.length_nil]
        omega
      have others := Defective.of_entries c₂ _ _
        (spelled.append (.cons bound spelled' .nil)) here failed
      rwa [List.append_nil, List.append_assoc, List.append_assoc, ← parts'] at others
termination_by 2 * c.rest.length + 1
decreasing_by
  all_goals omega

theorem Defective.of_value (c : Cursor) (k : Container) (front : Bytes) (passed : k.Passed front)
    (pos : c.pos = front.length) (more : k = .array → c.rest ≠ [])
    (failed : decodeValue c = .error e) : Defective k (front ++ c.rest) e := by
  rcases decodeValue_eq_error.mp failed with failed | ⟨next, body, rest, bound, parts, failed⟩
  · refine ⟨k, _, .here, .of_read passed more ?_⟩
    rwa [← pos]
  · have longer : c.rest.length = 1 + (4 + body.length) + rest.length := by
      simp only [parts, List.length_append, List.length_cons, length_encode]
      omega
    rw [parts]
    refine passed.defective bound ?_
    cases next with
    | table => exact Defective.of_entries (Cursor.start body) [] [] .nil rfl failed
    | array => exact Defective.of_values (Cursor.start body) [] [] .nil rfl failed
termination_by 2 * c.rest.length
decreasing_by
  all_goals
    simp only [Cursor.start]
    omega

theorem Defective.of_values (c : Cursor) (values : List FieldValue) (front : Bytes)
    (spelled : ValuesForm values front) (pos : c.pos = front.length)
    (failed : decodeValues c = .error e) : Defective .array (front ++ c.rest) e := by
  obtain ⟨more, failed | ⟨value, c₁, read, failed⟩⟩ := decodeValues_eq_error.mp failed
  · exact Defective.of_value c .array front (.array spelled) pos (fun _ => more) failed
  · obtain ⟨first, spelled', parts, pos'⟩ := decodeValue_eq_ok.mp read
    have some := List.length_pos_iff.mpr spelled'.ne_nil
    have shorter : c.rest.length = first.length + c₁.rest.length := by
      rw [parts, List.length_append]
    have here : c₁.pos = (front ++ (first ++ [])).length := by
      rw [pos', pos, List.append_nil, List.length_append]
    have others := Defective.of_values c₁ _ _ (spelled.append (.cons spelled' .nil)) here failed
    rwa [List.append_nil, List.append_assoc, ← parts] at others
termination_by 2 * c.rest.length + 1
decreasing_by
  all_goals omega

end

end Container

/-! ## Whole bodies -/

/-- A body is refused with the error of a defect in it or inside it. -/
theorem FieldTable.decode_eq_error {body : Bytes} {e : TableError} :
    FieldTable.decode body = .error e ↔ Container.Defective .table body e := by
  constructor
  · intro failed
    exact Container.Defective.of_entries (Cursor.start body) [] [] .nil rfl failed
  · rintro ⟨k, inner, within, defect⟩
    exact within.fails defect.fails

/-- A body is refused with the error of the defect of a container, itself or one inside it, that is
reached behind values that are in order, and with no other error. So it is never refused for a name
or a body that is too long. -/
theorem FieldTable.errors_point_at_defects (body : Bytes) :
    (∀ e, FieldTable.decode body = .error e ↔
      ∃ k inner, Container.Within k inner .table body ∧ k.Defect inner e) ∧
    (∀ length, FieldTable.decode body ≠ .error (.nameTooLong length)) ∧
      ∀ length, FieldTable.decode body ≠ .error (.tooLarge length) := by
  refine ⟨fun e => decode_eq_error, ?_, ?_⟩
  · intro length failed
    obtain ⟨k, inner, -, defect⟩ := decode_eq_error.mp failed
    cases defect
  · intro length failed
    obtain ⟨k, inner, -, defect⟩ := decode_eq_error.mp failed
    cases defect

namespace InnerDefects

/-- A table with an array, in which a table of two octets stands behind another value. -/
def body (tag : UInt8) : Bytes :=
  [1, 0x6B, 0x74, 1, 1, 0x6E, 0x41, 0, 0, 0, 8, 0x56, 0x46, 0, 0, 0, 2, 0, tag]

/-- The innermost table is reached behind an entry and a value that are in order. -/
theorem within_body (tag : UInt8) : Container.Within .table [0, tag] .table (body tag) := by
  have entry : EntriesForm [([0x6B], .bool true)] [1, 0x6B, 0x74, 1] :=
    @EntriesForm.cons [0x6B] _ _ _ _ (by decide) (.bool 1) .nil
  have named : Container.Passed .table ([1, 0x6B, 0x74, 1] ++ (encode 1 [0x6E].length ++ [0x6E])) :=
    @Container.Passed.table _ _ [0x6E] entry (by decide)
  have two : encode 4 [0, tag].length = [0, 0, 0, 2] := show encode 4 2 = _ by decide
  have eight : encode 4 [0x56, 0x46, 0, 0, 0, 2, 0, tag].length = [0, 0, 0, 8] :=
    show encode 4 8 = _ by decide
  have inner := @Container.Within.inside .table [0, tag] .array .table [0x56] [0, tag] []
    (.array (.cons .void .nil)) (show 2 < capacity 4 by decide) .here
  rw [two] at inner
  have outer := @Container.Within.inside .table [0, tag] .table .array _
    [0x56, 0x46, 0, 0, 0, 2, 0, tag] [] named (show 8 < capacity 4 by decide) inner
  rwa [eight] at outer

/-- A tag that announces no value, and one that announces four octets which are not there. Offsets
count from the beginning of the innermost table. -/
theorem errors_of_innermost_table :
    FieldTable.decode (body 0x3F) = .error (.unknownTag 0x3F 1) ∧
      FieldTable.decode (body 0x49) = .error (.truncated 2) := by
  have named : Container.Passed .table [0] :=
    .table .nil (show ([] : Bytes).length < capacity 1 by decide)
  have unknown : ∀ kind : Kind, kind.tag ≠ 0x3F := by
    intro kind
    cases kind <;> decide
  have missing : ([] : Bytes).length < 4 := by decide
  have short : ShortAt (Container.Awaits .table) ([0] ++ [Kind.int32.tag] ++ []) 2 :=
    .of_append (.payload named .fixed) missing
  exact ⟨((FieldTable.errors_point_at_defects _).1 _).mpr
      ⟨.table, _, within_body 0x3F, .unknownTag named rfl unknown⟩,
    ((FieldTable.errors_point_at_defects _).1 _).mpr
      ⟨.table, _, within_body 0x49, .truncated short⟩⟩

end InnerDefects

end WireProtocol
