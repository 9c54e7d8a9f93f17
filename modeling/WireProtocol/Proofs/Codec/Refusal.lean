import WireProtocol.Proofs.Codec.Texts
import WireProtocol.Proofs.Payload.Refusal

/-!
# Payloads of methods that are refused

* `WireType.Awaits`, `WireType.Flawed`: what comes next in a value that stands alone, and what is wrong
  with octets from which it cannot be read.
* `Chunk.Awaits`, `Chunk.Flawed`: the same for a chunk.
* `Chunk.Leaves`: chunks stand at the front of octets, and leave the others.
* `Refuses.value`, `Refuses.chunk`: a value and a chunk are refused where the octets that come next are
  flawed.
* `Refuses.chunks`: chunks are refused for the first of them that is flawed.
* `MethodLayout.Rejects`: why a payload is no payload of a method, and the error that tells it.
* `Description.payloads_rejected_at_first_flaw`: a payload is refused with the error of the first such
  reason, and with no other one.
-/

namespace WireProtocol

open BigEndian

/-- What is neither a bit nor an integer stands behind its length. -/
theorem WireType.exists_lengthPrefix {ty : WireType} (integer : ty.isInteger = false)
    (bit : ty.isBit = false) : ∃ width, ty.lengthPrefix? = some width := by
  cases ty with
  | shortstr => exact ⟨1, rfl⟩
  | longstr | table => exact ⟨4, rfl⟩
  | bit => cases bit
  | octet | short | long | longlong | timestamp => cases integer

namespace WireType

/-- What comes next in a value that stands alone: a number, or octets behind their number. -/
inductive Awaits (ty : WireType) : Bytes → Nat → Prop where
  | number {width : Nat} (fixed : ty.fixedWidth? = some width) : Awaits ty [] width
  | counted {width needed : Nat} {part : Bytes} (prefixed : ty.lengthPrefix? = some width)
    (next : CountedAwaits width part needed) : Awaits ty part needed

/-- What is wrong with octets from which a value that stands alone cannot be read. -/
inductive Flawed (ty : WireType) : PayloadFlaw → Bytes → Prop where
  | short {octets : Bytes} {n : Nat} (short : ShortAt ty.Awaits octets n) : Flawed ty .short octets
  | malformed {body rest : Bytes} {source : TableError} (isTable : ty = .table)
    (bound : body.length < capacity 4) (refused : FieldTable.decode body = .error source) :
    Flawed ty (.malformed source) (encode 4 body.length ++ body ++ rest)

variable {ty : WireType} {width n : Nat} {octets : Bytes}

/-- A number has no length in front of it. -/
theorem fixedWidth?_ne_some (prefixed : ty.lengthPrefix? = some width) (n : Nat) :
    ty.fixedWidth? ≠ some n := by
  cases ty <;> cases prefixed <;> exact nofun

theorem shortAt_number (fixed : ty.fixedWidth? = some width) :
    ShortAt ty.Awaits octets n ↔ octets.length < width ∧ n = 0 := by
  constructor
  · intro short
    obtain ⟨part, needed, rest, next, rfl, few, rfl⟩ := shortAt_iff.mp short
    cases next with
    | number fixed' =>
      cases fixed.symm.trans fixed'
      exact ⟨few, rfl⟩
    | counted prefixed => exact absurd fixed (fixedWidth?_ne_some prefixed width)
  · rintro ⟨few, rfl⟩
    exact .of_nil (.number fixed) few

theorem shortAt_counted (prefixed : ty.lengthPrefix? = some width) :
    ShortAt ty.Awaits octets n ↔ ShortAt (CountedAwaits width) octets n := by
  refine ShortAt.congr fun part needed => ?_
  constructor
  · intro h
    cases h with
    | number fixed => exact absurd fixed (fixedWidth?_ne_some prefixed needed)
    | counted prefixed' next =>
      cases prefixed.symm.trans prefixed'
      exact next
  · exact .counted prefixed

end WireType

namespace Chunk

variable {α : Type}

/-- What comes next in a chunk: the octet that bits share, a number, or octets behind their
number. -/
inductive Awaits : Chunk α → Bytes → Nat → Prop where
  | shared {values : List α} : Awaits (.bits values) [] 1
  | number {value : α} {ty : WireType} {width : Nat} (fixed : ty.fixedWidth? = some width) :
    Awaits (.fixedWidth value ty) [] width
  | counted {value : α} {ty : WireType} {width needed : Nat} {part : Bytes}
    (prefixed : ty.lengthPrefix? = some width) (next : CountedAwaits width part needed) :
    Awaits (.variableWidth value ty) part needed

/-- What is wrong with octets from which a chunk cannot be read: they run out before the chunk ends,
or it is a table of which the body is there but malformed. -/
inductive Flawed : Chunk α → PayloadFlaw → Bytes → Prop where
  | short {chunk : Chunk α} {octets : Bytes} {n : Nat} (short : ShortAt chunk.Awaits octets n) :
    Flawed chunk .short octets
  | malformed {value : α} {body rest : Bytes} {source : TableError}
    (bound : body.length < capacity 4) (refused : FieldTable.decode body = .error source) :
    Flawed (.variableWidth value .table) (.malformed source) (encode 4 body.length ++ body ++ rest)

section

variable {value : α} {ty : WireType} {octets : Bytes} {n : Nat}

/-- Octets run out in a chunk where they run out in its value. -/
theorem shortAt_fixedWidth (sound : (fixedWidth value ty).Sound) :
    ShortAt (fixedWidth value ty).Awaits octets n ↔ ShortAt ty.Awaits octets n := by
  obtain ⟨width, fixed⟩ := Option.isSome_iff_exists.mp sound
  refine ShortAt.congr fun part needed => ?_
  constructor
  · intro h
    cases h with
    | number fixed => exact .number fixed
  · intro h
    cases h with
    | number fixed => exact .number fixed
    | counted prefixed => exact absurd fixed (WireType.fixedWidth?_ne_some prefixed width)

theorem shortAt_variableWidth (sound : (variableWidth value ty).Sound) :
    ShortAt (variableWidth value ty).Awaits octets n ↔ ShortAt ty.Awaits octets n := by
  obtain ⟨width, prefixed⟩ := WireType.exists_lengthPrefix sound.1 sound.2
  refine ShortAt.congr fun part needed => ?_
  constructor
  · intro h
    cases h with
    | counted prefixed next => exact .counted prefixed next
  · intro h
    cases h with
    | number fixed => exact absurd fixed (WireType.fixedWidth?_ne_some prefixed needed)
    | counted prefixed next => exact .counted prefixed next

end

/-- The octets begin with octets of the chunks, and the rest is what is behind these. -/
def Leaves (chunks : List (Chunk α)) (octets rest : Bytes) : Prop :=
  ∃ (read : List (Chunk WireValue)) (front : Bytes), read.map shape = chunks.map shape ∧
    Forms read front ∧ octets = front ++ rest

theorem leaves_nil {octets rest : Bytes} : Leaves ([] : List (Chunk α)) octets rest ↔ octets = rest := by
  constructor
  · rintro ⟨read, front, same, forms, rfl⟩
    cases List.map_eq_nil_iff.mp same
    cases show front = [] from forms
    rfl
  · rintro rfl
    exact ⟨[], [], rfl, rfl, rfl⟩

theorem leaves_cons {chunk : Chunk α} {chunks : List (Chunk α)} {octets rest : Bytes} :
    Leaves (chunk :: chunks) octets rest ↔
      ∃ (chunk' : Chunk WireValue) (front back : Bytes), chunk'.shape = chunk.shape ∧
        chunk'.Form front ∧ octets = front ++ back ∧ Leaves chunks back rest := by
  constructor
  · rintro ⟨read, octets, same, forms, rfl⟩
    cases read with
    | nil => cases same
    | cons chunk' read =>
      obtain ⟨front, back, form, forms, rfl⟩ := forms
      rw [List.map_cons, List.map_cons, List.cons.injEq] at same
      exact ⟨chunk', front, back ++ rest, same.1, form, List.append_assoc .., read, back, same.2,
        forms, rfl⟩
  · rintro ⟨chunk', front, _, same, form, rfl, read, back, same', forms, rfl⟩
    refine ⟨chunk' :: read, front ++ back, ?_, ⟨front, back, form, forms, rfl⟩,
      (List.append_assoc ..).symm⟩
    rw [List.map_cons, List.map_cons, same, same']

end Chunk

open Chunk

namespace Refuses

variable {α : Type}

/-- A number is refused where its octets run out. -/
theorem number_value {ty : WireType} {width : Nat} (fixed : ty.fixedWidth? = some width) :
    Refuses (WireValue.read ty) fun flaw octets => flaw = .short ∧ octets.length < width := by
  cases ty <;> cases fixed
  case octet => exact octet.map WireValue.octet
  case short => exact short.map WireValue.short
  case long => exact long.map WireValue.long
  case longlong => exact longlong.map WireValue.longlong
  case timestamp => exact longlong.map WireValue.timestamp

/-- A string is refused where its length or its octets run out. -/
theorem string_value {ty : WireType} {width : Nat} (prefixed : ty.lengthPrefix? = some width)
    (string : ty ≠ .table) :
    Refuses (WireValue.read ty) fun flaw octets =>
      flaw = .short ∧ ∃ n, ShortAt (CountedAwaits width) octets n := by
  cases ty <;> cases prefixed
  case shortstr => exact (counted 1).map WireValue.shortstr
  case longstr => exact (counted 4).map WireValue.longstr
  case table => exact absurd rfl string

/-- A value that stands alone is refused where the octets that come next are flawed. -/
theorem value {ty : WireType} (single : ty.isBit = false) : Refuses (WireValue.read ty) ty.Flawed := by
  cases integer : ty.isInteger with
  | true =>
    obtain ⟨width, fixed⟩ := Option.isSome_iff_exists.mp integer
    refine (number_value fixed).congr fun flaw octets => ?_
    constructor
    · rintro ⟨rfl, few⟩
      exact .short ((WireType.shortAt_number fixed).mpr ⟨few, rfl⟩)
    · rintro (⟨short⟩ | ⟨rfl, -, -⟩)
      · exact ⟨rfl, ((WireType.shortAt_number fixed).mp short).1⟩
      · cases fixed
  | false =>
    obtain ⟨width, prefixed⟩ := WireType.exists_lengthPrefix integer single
    by_cases isTable : ty = .table
    · subst isTable
      refine (table.map WireValue.table).congr fun flaw octets => ?_
      constructor
      · rintro (⟨rfl, n, short⟩ | ⟨body, rest, source, rfl, bound, rfl, refused⟩)
        · exact .short ((WireType.shortAt_counted rfl).mpr short)
        · exact .malformed rfl bound refused
      · rintro (⟨short⟩ | ⟨-, bound, refused⟩)
        · exact .inl ⟨rfl, _, (WireType.shortAt_counted rfl).mp short⟩
        · exact .inr ⟨_, _, _, rfl, bound, rfl, refused⟩
    · refine (string_value prefixed isTable).congr fun flaw octets => ?_
      constructor
      · rintro ⟨rfl, n, short⟩
        exact .short ((WireType.shortAt_counted prefixed).mpr short)
      · rintro (⟨short⟩ | ⟨rfl, -, -⟩)
        · exact ⟨rfl, _, (WireType.shortAt_counted prefixed).mp short⟩
        · exact absurd rfl isTable

/-- A chunk is refused where the octets that come next are flawed. -/
theorem chunk {chunk : Chunk α} (sound : chunk.Sound) : Refuses chunk.read chunk.Flawed := by
  cases chunk with
  | fixedWidth v ty =>
    refine ((value (WireType.isBit_eq_false_of_isInteger sound)).map fun v => [v]).congr
      fun flaw octets => ?_
    constructor
    · rintro (⟨short⟩ | ⟨rfl, -, -⟩)
      · exact .short ((shortAt_fixedWidth sound).mpr short)
      · cases sound
    · rintro ⟨short⟩
      exact .short ((shortAt_fixedWidth sound).mp short)
  | variableWidth v ty =>
    refine ((value sound.2).map fun v => [v]).congr fun flaw octets => ?_
    constructor
    · rintro (⟨short⟩ | ⟨rfl, bound, refused⟩)
      · exact .short ((shortAt_variableWidth sound).mpr short)
      · exact .malformed bound refused
    · rintro (⟨short⟩ | ⟨bound, refused⟩)
      · exact .short ((shortAt_variableWidth sound).mp short)
      · exact .malformed rfl bound refused
  | bits values =>
    refine (octet.map fun o => (unpackBits values.length o).map WireValue.bit).congr
      fun flaw octets => ?_
    constructor
    · rintro ⟨rfl, short⟩
      exact .short (.of_nil .shared short)
    · rintro ⟨short⟩
      obtain ⟨part, needed, rest, ⟨⟩, rfl, few, rfl⟩ := shortAt_iff.mp short
      exact ⟨rfl, few⟩

/-- Chunks are refused for the first of them that is flawed. -/
theorem chunks {chunks : List (Chunk α)} (sound : ∀ chunk ∈ chunks, chunk.Sound) :
    Refuses (readAll chunks) fun flaw octets => ∃ before chunk after rest,
      chunks = before ++ chunk :: after ∧ Leaves before octets rest ∧ chunk.Flawed flaw rest := by
  induction chunks with
  | nil =>
    refine (pure []).congr fun flaw octets => iff_of_false id ?_
    rintro ⟨before, chunk, after, rest, split, -⟩
    cases List.append_eq_nil_iff.mp split.symm with
    | intro _ h => cases h
  | cons first others ih =>
    rw [List.forall_mem_cons] at sound
    refine ((chunk sound.1).bind (Reads.chunk sound.1) fun values =>
      (ih sound.2).map (values ++ ·)).congr fun flaw octets => ?_
    constructor
    · rintro (flawed | ⟨values, front, back, ⟨chunk', same, -, form⟩, rfl, before, chunk, after, rest,
        rfl, leaves, flawed⟩)
      · exact ⟨[], first, others, octets, rfl, leaves_nil.mpr rfl, flawed⟩
      · exact ⟨first :: before, chunk, after, rest, rfl,
          leaves_cons.mpr ⟨chunk', front, back, same, form, rfl, leaves⟩, flawed⟩
    · rintro ⟨before, chunk, after, rest, split, leaves, flawed⟩
      cases before with
      | nil =>
        obtain ⟨rfl, rfl⟩ := List.cons.inj split
        rw [leaves_nil.mp leaves]
        exact .inl flawed
      | cons _ before =>
        obtain ⟨rfl, rfl⟩ := List.cons.inj split
        obtain ⟨chunk', front, back, same, form, rfl, others⟩ := leaves_cons.mp leaves
        exact .inr ⟨_, front, back, ⟨chunk', same, rfl, form⟩, rfl, before, chunk, after, rest, rfl,
          others, flawed⟩

end Refuses

namespace MethodLayout

/-- Why a payload is no payload of a method, and the error that tells it. Behind chunks that can be
read, a chunk runs past the end of the payload, or the body of a table is malformed, whatever follows
it; or octets are left over behind all chunks; or there is none of this and a short string that has to
be a text is none. -/
inductive Rejects (m : MethodLayout) (payload : Bytes) : FrameError → Prop where
  | runsPast {before after : List (Chunk Field)} {chunk : Chunk Field} {rest : Bytes} {n : Nat}
    (split : m.chunks = before ++ chunk :: after) (passed : Leaves before payload rest)
    (short : ShortAt chunk.Awaits rest n) : Rejects m payload (.framing m.name payload)
  | malformed {before after : List (Chunk Field)} {field : Field} {body rest : Bytes}
    {source : TableError} (split : m.chunks = before ++ .variableWidth field .table :: after)
    (passed : Leaves before payload (BigEndian.encode 4 body.length ++ body ++ rest))
    (bound : body.length < capacity 4) (refused : FieldTable.decode body = .error source) :
    Rejects m payload (.table m.name source)
  | leftOver {rest : Bytes} (passed : Leaves m.chunks payload rest) (more : rest ≠ []) :
    Rejects m payload (.framing m.name payload)
  | noText {record : List WireValue} (holds : m.Holds record payload)
    (checked : m.hasContent = false) (broken : ¬ Textual record) :
    Rejects m payload (.invalidUtf8 m.name)

variable {m : MethodLayout} {payload : Bytes} {e : FrameError}

/-- A payload is refused when it cannot be read to its end, and when a short string that has been read
is no text although it has to be. -/
theorem decode_eq_error :
    m.decode payload = .error e ↔
      (m.readRecord.run (Reader.start m.name payload)).1 = .error e ∨
        ∃ record, m.Holds record payload ∧ m.hasContent = false ∧ ¬ Textual record ∧
          e = .invalidUtf8 m.name := by
  cases content : m.hasContent with
  | true =>
    rw [decode_of_content content]
    refine (or_iff_left ?_).symm
    rintro ⟨record, -, ⟨⟩, -⟩
  | false =>
    rw [decode_of_plain content, Except.bind_eq_error]
    refine or_congr_right (exists_congr fun record => ?_)
    rw [readRecord_eq_ok, eq_self_iff_true, true_and]
    refine and_congr_right fun _ => ?_
    rcases checkTexts_cases m.name record with ⟨texts, passed⟩ | ⟨broken, failed⟩
    · rw [passed]
      exact iff_of_false nofun fun impossible => impossible.1 texts
    · rw [failed, and_iff_right broken]
      constructor
      · rintro ⟨⟩
        rfl
      · rintro rfl
        rfl

/-- A payload is refused for the first reason that there is, and only for that one. -/
theorem decode_eq_error_iff : m.decode payload = .error e ↔ m.Rejects payload e := by
  have sound : ∀ chunk ∈ m.chunks, chunk.Sound := coalesce_sound m.arguments
  have read : m.readRecord = (readAll m.chunks).toEnd := rfl
  rw [decode_eq_error, read, (Refuses.chunks sound).whole (Reads.chunks sound)]
  constructor
  · rintro ((⟨flaw, ⟨before, chunk, after, rest, split, passed, flawed⟩, rfl⟩ |
      ⟨values, front, rest, ⟨chunks, same, -, forms⟩, parts, more, rfl⟩) |
      ⟨record, holds, checked, broken, rfl⟩)
    · cases flawed with
      | short short => exact .runsPast split passed short
      | malformed bound refused => exact .malformed split passed bound refused
    · exact .leftOver ⟨chunks, front, same, forms, parts⟩ more
    · exact .noText holds checked broken
  · rintro (⟨split, passed, short⟩ | ⟨split, passed, bound, refused⟩ |
      ⟨⟨chunks, front, same, forms, parts⟩, more⟩ | ⟨holds, checked, broken⟩)
    · exact .inl (.inl ⟨.short, ⟨_, _, _, _, split, passed, .short short⟩, rfl⟩)
    · exact .inl (.inl ⟨_, ⟨_, _, _, _, split, passed, .malformed bound refused⟩, rfl⟩)
    · exact .inl (.inr ⟨_, front, _, ⟨chunks, same, rfl, forms⟩, parts, more, rfl⟩)
    · exact .inr ⟨_, holds, checked, broken, rfl⟩

end MethodLayout

/-- A payload of a method is refused for the first of its chunks that cannot be read, or else for octets
that are left over, or else for a short string that is no text; and with no other error. Each error
names the method, and it tells the whole payload, or what is wrong with the body of a table. -/
theorem Description.payloads_rejected_at_first_flaw {d : Description} {method : Method}
    {m : MethodLayout} (resolved : d.methodLayout method = .ok m) (payload : Bytes) :
    m.name = method.qualifiedName ∧ ∀ e, m.decode payload = .error e ↔ m.Rejects payload e := by
  obtain ⟨name, -⟩ := methodLayout_eq_ok.mp resolved
  exact ⟨name, fun e => MethodLayout.decode_eq_error_iff⟩

namespace QueueDeclare

/-- A payload names a queue by half of a character and ends before its last flag. It is refused for the
body of its table, in which a value has an unknown tag, and with a greater length of that body it is
refused because the body runs past its end. -/
theorem malformed_table_comes_first :
    layout.decode [0, 7, 1, 0xC3, 0, 0, 0, 0, 3, 1, 0x6B, 0x3F] =
        .error (.table "queue.declare" (.unknownTag 0x3F 2)) ∧
      layout.decode [0, 7, 1, 0xC3, 0, 0, 0, 0, 4, 1, 0x6B, 0x3F] =
        .error (.framing "queue.declare" [0, 7, 1, 0xC3, 0, 0, 0, 0, 4, 1, 0x6B, 0x3F]) := by
  have resolved : (Description.new ⟨0, 9, 1⟩ 5672).methodLayout method = .ok layout := rfl
  have refused := Description.payloads_rejected_at_first_flaw resolved
  have split : layout.chunks = layout.chunks.take 3 ++
      .variableWidth layout.arguments[4].1 .table :: layout.chunks.drop 4 := rfl
  have passed (rest : Bytes) :
      Leaves (layout.chunks.take 3) ([0, 7, 1, 0xC3, 0] ++ rest) rest :=
    ⟨[.fixedWidth (.short 7) .short, .variableWidth (.shortstr [0xC3]) .shortstr,
      .bits [.bit false, .bit false]], [0, 7, 1, 0xC3, 0], rfl,
      ⟨[0, 7], [1, 0xC3, 0], ⟨rfl, rfl⟩,
        ⟨[1, 0xC3], [0], ⟨rfl, by decide, rfl⟩, ⟨[0], [], ⟨0, rfl, rfl⟩, rfl, rfl⟩, rfl⟩, rfl⟩, rfl⟩
  constructor
  · have unknown : FieldTable.decode [1, 0x6B, 0x3F] = .error (.unknownTag 0x3F 2) := by
      with_unfolding_all rfl
    have behind : Leaves (layout.chunks.take 3) [0, 7, 1, 0xC3, 0, 0, 0, 0, 3, 1, 0x6B, 0x3F]
        (encode 4 (List.length [1, 0x6B, 0x3F]) ++ [1, 0x6B, 0x3F] ++ []) := passed _
    exact ((refused _).2 _).mpr (.malformed split behind (by decide) unknown)
  · have short : ShortAt (Chunk.variableWidth layout.arguments[4].1 .table).Awaits
        (encode 4 4 ++ [1, 0x6B, 0x3F]) 4 :=
      .of_append (.counted rfl (.octets (by decide))) (by decide)
    exact ((refused _).2 _).mpr (.runsPast split (passed _) short)

end QueueDeclare

end WireProtocol
