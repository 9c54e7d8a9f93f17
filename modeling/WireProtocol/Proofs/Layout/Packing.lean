import Mathlib.Data.List.Chain
import WireProtocol.Emit.MethodCode
import WireProtocol.Proofs.Layout.Chunk
import WireProtocol.Proofs.Layout.Fields

/-!
# The one way to group values

* `Grouping`: chunks hold values in order, each chunk has the shape that its values need, and no group
  of bits ends where it has room for the next one.
* `coalesceFrom_bits`: an open group takes up bits as long as there is room for them.
* `coalesceFrom_of_closed`: a group that no bit can join makes no difference to the chunks behind it.
* `coalesce_eq_iff`: values are grouped in the one way that is a grouping.
* `Description.packFields_groups`: the fields of a list are grouped in that way, and the members of each
  group are numbered from its start.
-/

namespace WireProtocol

variable {α : Type}

namespace Chunk

/-- The chunk may stand directly before the other one: between two groups of bits only when it is
full. -/
def MayPrecede : Chunk α → Chunk α → Prop
  | bits values, bits _ => values.length = maxBitGroup
  | _, _ => True

@[simp] theorem mayPrecede_single (chunk : Chunk α) (value : α) (ty : WireType) :
    chunk.MayPrecede (single value ty) := by
  unfold single
  split <;> cases chunk <;> trivial

@[simp] theorem single_mayPrecede (value : α) (ty : WireType) (chunk : Chunk α) :
    (single value ty).MayPrecede chunk := by
  unfold single
  split <;> trivial

theorem isChain_close {group : List α} {chunks : List (Chunk α)}
    (first : ∀ chunk ∈ chunks.head?, (bits group).MayPrecede chunk)
    (rest : chunks.IsChain MayPrecede) : (close group chunks).IsChain MayPrecede := by
  unfold close
  split
  · exact rest
  · exact List.isChain_cons.mpr ⟨first, rest⟩

end Chunk

/-- Chunks that hold the values: all of them in order, each chunk of the shape that its values need,
and no group of bits directly before another one unless it is full. -/
structure Grouping (values : List (α × WireType)) (chunks : List (Chunk α)) : Prop where
  members : chunks.flatMap Chunk.members = values
  sound : ∀ chunk ∈ chunks, chunk.Sound
  full : chunks.IsChain Chunk.MayPrecede

/-! ## Values are grouped -/

private theorem coalesceFrom_isChain (group : List α) (values : List (α × WireType))
    (room : group.length ≤ maxBitGroup) :
    (coalesceFrom group values).IsChain Chunk.MayPrecede := by
  fun_induction coalesceFrom group values with
  | case1 group => exact Chunk.isChain_close (by simp) .nil
  | case2 group value ty rest bit space ih =>
    apply ih
    rw [List.length_append]
    exact space
  | case3 group value ty rest bit full ih =>
    -- The group is closed by its eighth member, so that another one may follow.
    have length : group.length = maxBitGroup := Nat.le_antisymm room (Nat.not_lt.mp full)
    refine Chunk.isChain_close (fun chunk _ => ?_) (ih (show 1 ≤ maxBitGroup by decide))
    cases chunk with
    | bits => exact length
    | fixedWidth | variableWidth => trivial
  | case4 group value ty rest bit ih =>
    have others := ih (Nat.zero_le _)
    refine Chunk.isChain_close (by simp) (List.isChain_cons.mpr ⟨fun chunk _ => ?_, others⟩)
    exact Chunk.single_mayPrecede value ty chunk

theorem grouping_coalesce (values : List (α × WireType)) : Grouping values (coalesce values) where
  members := coalesce_members values
  sound := coalesce_sound values
  full := coalesceFrom_isChain [] values (Nat.zero_le _)

/-! ## In no other way -/

/-- No bit that comes first among the values can join the group. -/
def Closed (group : List α) (values : List (α × WireType)) : Prop :=
  group.length = maxBitGroup ∨ ∀ value ∈ values.head?, value.2.isBit = false

/-- An open group takes up bits as long as there is room for them. -/
theorem coalesceFrom_bits {group bits : List α} {values : List (α × WireType)}
    (room : group.length + bits.length ≤ maxBitGroup) :
    coalesceFrom group (bits.map (fun value => (value, .bit)) ++ values) =
      coalesceFrom (group ++ bits) values := by
  induction bits generalizing group with
  | nil => rw [List.append_nil]; rfl
  | cons bit bits ih =>
    rw [List.length_cons] at room
    have space : group.length < maxBitGroup := by omega
    have rest : (group ++ [bit]).length + bits.length ≤ maxBitGroup := by
      rw [List.length_append, List.length_singleton]
      omega
    rw [List.map_cons, List.cons_append, coalesceFrom, if_pos (by rfl), if_pos space, ih rest,
      List.append_assoc, List.singleton_append]

/-- A group that no bit can join makes no difference to the chunks behind it. -/
theorem coalesceFrom_of_closed {group : List α} {values : List (α × WireType)}
    (closed : Closed group values) :
    coalesceFrom group values = Chunk.close group (coalesce values) := by
  cases values with
  | nil => rfl
  | cons value values =>
    obtain ⟨value, ty⟩ := value
    rw [coalesce, coalesceFrom, coalesceFrom]
    cases bit : ty.isBit with
    | false => rfl
    | true =>
      have full : group.length = maxBitGroup := by
        rcases closed with full | none
        · exact full
        · cases bit.symm.trans (none (value, ty) rfl)
      have empty : ([] : List α).length < maxBitGroup := Nat.zero_lt_succ 7
      rw [if_pos rfl, if_neg (Nat.not_lt.mpr (Nat.le_of_eq full.symm)), if_pos rfl, if_pos empty]
      rfl

/-- Bits come first in a group of their own when no other bit can join them. -/
theorem coalesce_bits_append {group : List α} {values : List (α × WireType)} (some : group ≠ [])
    (room : group.length ≤ maxBitGroup) (closed : Closed group values) :
    coalesce (group.map (fun value => (value, .bit)) ++ values) = .bits group :: coalesce values := by
  have space : ([] : List α).length + group.length ≤ maxBitGroup := by simpa using room
  have full : ¬ group.isEmpty = true := by rwa [List.isEmpty_iff]
  rw [coalesce, coalesceFrom_bits space, List.nil_append, coalesceFrom_of_closed closed, Chunk.close,
    if_neg full]

/-- A value that is no bit stands alone. -/
theorem coalesce_of_single {value : α} {ty : WireType} {values : List (α × WireType)}
    (single : ty.isBit = false) :
    coalesce ((value, ty) :: values) = Chunk.single value ty :: coalesce values := by
  rw [coalesce, coalesceFrom, single]
  rfl

namespace Grouping

variable {values : List (α × WireType)} {chunk : Chunk α} {chunks : List (Chunk α)}

theorem tail (h : Grouping values (chunk :: chunks)) :
    Grouping (chunks.flatMap Chunk.members) chunks where
  members := rfl
  sound other member := h.sound other (List.mem_cons_of_mem _ member)
  full := h.full.tail

/-- What comes behind a group of bits cannot join it. -/
theorem closed {group : List α} (h : Grouping values (.bits group :: chunks)) :
    Closed group (chunks.flatMap Chunk.members) := by
  cases chunks with
  | nil => exact .inr nofun
  | cons next chunks =>
    obtain ⟨first, -⟩ := List.isChain_cons.mp h.full
    have before := first next rfl
    have sound := h.sound next (by simp)
    cases next with
    | bits => exact .inl before
    | fixedWidth value ty =>
      refine .inr fun _ member => ?_
      cases member
      exact WireType.isBit_eq_false_of_isInteger sound
    | variableWidth value ty =>
      refine .inr fun _ member => ?_
      cases member
      exact sound.2

theorem coalesce_eq (h : Grouping values chunks) : coalesce values = chunks := by
  induction chunks generalizing values with
  | nil =>
    rw [← h.members]
    rfl
  | cons chunk chunks ih =>
    have rest := ih h.tail
    have sound := h.sound chunk List.mem_cons_self
    rw [← h.members, List.flatMap_cons]
    cases chunk with
    | fixedWidth value ty =>
      have single : ty.isBit = false := WireType.isBit_eq_false_of_isInteger sound
      have fixed : Chunk.single value ty = .fixedWidth value ty := if_pos sound
      rw [Chunk.members, List.singleton_append, coalesce_of_single single, fixed, rest]
    | variableWidth value ty =>
      obtain ⟨wide, single⟩ := sound
      have counted : Chunk.single value ty = .variableWidth value ty :=
        if_neg (Bool.eq_false_iff.mp wide)
      rw [Chunk.members, List.singleton_append, coalesce_of_single single, counted, rest]
    | bits group =>
      -- The bits fill one group, and what comes behind them cannot join it.
      obtain ⟨some, room⟩ := sound
      rw [Chunk.members, coalesce_bits_append some room h.closed, rest]

end Grouping

/-- There is one grouping of values, which is how they are coalesced. -/
theorem coalesce_eq_iff {values : List (α × WireType)} {chunks : List (Chunk α)} :
    coalesce values = chunks ↔ Grouping values chunks := by
  constructor
  · rintro rfl
    exact grouping_coalesce values
  · exact Grouping.coalesce_eq

/-! ## Groups of fields -/

/-- The members of a group are numbered without a gap from the start of the group, which is the index
of the first of them. -/
def Numbered (members : List Field) : Prop :=
  (∃ first, members.head? = some first ∧ groupStart members = first.index) ∧
    ∀ j (inside : j < members.length), members[j].index = groupStart members + j

theorem numbered_of_append {fields : FieldList} {before members after : List Field}
    (some : members ≠ []) (parts : fields.toList = before ++ members ++ after) :
    Numbered members := by
  obtain ⟨first, others, rfl⟩ := List.exists_cons_of_ne_nil some
  have start : groupStart (first :: others) = before.length :=
    FieldList.index_of_append parts 0 (Nat.zero_lt_succ _)
  refine ⟨⟨first, rfl, rfl⟩, fun j inside => ?_⟩
  rw [FieldList.index_of_append parts j inside, start]

/-- The groups of the fields of a list are parts of the list. -/
theorem Grouping.numbered {fields : FieldList} {arguments : List (Field × WireType)}
    {chunks : List (Chunk Field)} {members : List Field} (h : Grouping arguments chunks)
    (names : arguments.map (·.1) = fields.toList) (group : .bits members ∈ chunks) :
    Numbered members := by
  obtain ⟨some, -⟩ := h.sound _ group
  obtain ⟨front, back, rfl⟩ := List.append_of_mem group
  have parts : fields.toList =
      front.flatMap Chunk.values ++ members ++ back.flatMap Chunk.values := by
    rw [← names, ← h.members, ← Chunk.flatMap_values, List.flatMap_append, List.flatMap_cons,
      List.append_assoc]
    rfl
  exact numbered_of_append some parts

namespace Description

variable {d : Description} {fields : FieldList}

theorem packFields_of_classify {arguments : List (Field × WireType)}
    (classified : d.classify fields = .ok arguments) :
    d.packFields fields = .ok (coalesce arguments) := by
  rw [packFields, classified]
  rfl

theorem packFields_of_error {e : DescriptionError} (failed : d.classify fields = .error e) :
    d.packFields fields = .error e := by
  rw [packFields, failed]
  rfl

end Description

/-- Typed values are coalesced to the only chunks that are a grouping of them. The fields of a list
are grouped so, each with the type of its domain and the members of each group numbered from its
start, if all of the domains resolve; otherwise the first domain that does not is reported as it was
written. -/
theorem Description.packFields_groups :
    (∀ (values : List (Field × WireType)) chunks,
      coalesce values = chunks ↔ Grouping values chunks) ∧
      ∀ (d : Description) (fields : FieldList),
        ((∀ field ∈ fields.toList, d.Resolves field) →
          ∃ arguments chunks, arguments.map (·.1) = fields.toList ∧
            (∀ argument ∈ arguments, d.fieldType argument.1 = .ok argument.2) ∧
            d.packFields fields = .ok chunks ∧ Grouping arguments chunks ∧
            ∀ members, .bits members ∈ chunks → Numbered members) ∧
        ∀ before field after, fields.toList = before ++ field :: after →
          (∀ earlier ∈ before, d.Resolves earlier) → ¬ d.Resolves field →
            d.packFields fields = .error (.unknownDomain field.domain) := by
  refine ⟨fun values chunks => coalesce_eq_iff, fun d fields => ⟨fun resolved => ?_,
    fun before field after parts resolved unresolved => ?_⟩⟩
  · obtain ⟨arguments, classified⟩ := exists_classify_eq_ok.mpr resolved
    obtain ⟨names, types⟩ := classify_eq_ok.mp classified
    have groups := grouping_coalesce arguments
    exact ⟨arguments, coalesce arguments, names, types, packFields_of_classify classified, groups,
      fun members group => groups.numbered names group⟩
  · exact packFields_of_error (classify_of_unresolved parts resolved unresolved)

namespace NineFlags

/-- Nine bits, which need a second group, and a number. -/
def fields : FieldList :=
  .ofList (List.replicate 9 (.new "flag" "bit" none) ++ [.new "count" "long" none])

def description : Description := .new ⟨0, 9, 1⟩ 5672

/-- The second group begins at the ninth bit; a field of an unknown domain behind it is reported. -/
theorem fields_are_packed :
    (∃ chunks, description.packFields fields = .ok chunks ∧
      ∀ members, .bits members ∈ chunks → Numbered members) ∧
    description.packFields (fields.push (.new "last" "mystery" none)) =
      .error (.unknownDomain "mystery") := by
  have types : description.classify fields =
      .ok (fields.toList.zip (List.replicate 9 .bit ++ [.long])) := rfl
  have resolved := Description.exists_classify_eq_ok.mp ⟨_, types⟩
  have unresolved : ¬ description.Resolves { Field.new "last" "mystery" none with index := 10 } := by
    rintro ⟨ty, known⟩
    cases known
  have packed := Description.packFields_groups.2 description
  obtain ⟨_, chunks, -, -, groups, -, numbered⟩ := (packed fields).1 resolved
  exact ⟨⟨chunks, groups, numbered⟩, (packed _).2 fields.toList _ [] rfl resolved unresolved⟩

end NineFlags

end WireProtocol
