import WireProtocol.Layout.Chunk

/-!
# How values are grouped

* `Chunk.members`: the values of a chunk with their types.
* `coalesce_members`: grouping keeps every value, its type and the order.
* `Chunk.Sound`, `coalesce_sound`: integers have a fixed width, groups of bits have one to eight
  members, and all other values are behind their length.
* `eq_coalesce`: chunks of the shape that types decide are those of the values in them.
-/

namespace WireProtocol

theorem WireType.isBit_eq_false_of_isInteger {ty : WireType} (h : ty.isInteger = true) :
    ty.isBit = false := by
  cases ty with
  | bit => cases h
  | _ => rfl

variable {α β : Type}

namespace Chunk

/-- The values of a chunk with their types, in order. -/
def members : Chunk α → List (α × WireType)
  | fixedWidth value ty => [(value, ty)]
  | variableWidth value ty => [(value, ty)]
  | bits values => values.map fun value => (value, .bit)

/-- The chunk has the shape that its values need. -/
def Sound : Chunk α → Prop
  | fixedWidth _ ty => ty.isInteger = true
  | variableWidth _ ty => ty.isInteger = false ∧ ty.isBit = false
  | bits values => values ≠ [] ∧ values.length ≤ maxBitGroup

/-- The chunk without its values. -/
def shape (chunk : Chunk α) : Chunk Unit :=
  chunk.map fun _ => ()

@[simp] theorem members_single (value : α) (ty : WireType) :
    (single value ty).members = [(value, ty)] := by
  unfold single
  split <;> rfl

theorem sound_single {value : α} {ty : WireType} (h : ty.isBit = false) :
    (single value ty).Sound := by
  unfold single
  split
  · assumption
  · exact ⟨Bool.eq_false_iff.mpr ‹_›, h⟩

theorem values_eq_members (chunk : Chunk α) : chunk.values = chunk.members.map (·.1) := by
  cases chunk with
  | fixedWidth | variableWidth => rfl
  | bits values =>
    rw [members, List.map_map]
    exact (List.map_id values).symm

theorem flatMap_values (chunks : List (Chunk α)) :
    chunks.flatMap values = (chunks.flatMap members).map (·.1) := by
  induction chunks with
  | nil => rfl
  | cons chunk chunks ih =>
    rw [List.flatMap_cons, List.flatMap_cons, List.map_append, values_eq_members, ih]

theorem members_map (f : α → β) (chunk : Chunk α) :
    (chunk.map f).members = chunk.members.map fun (value, ty) => (f value, ty) := by
  cases chunk <;> simp [map, members]

/-- Groups of bits have the same shape when they have as many members. -/
theorem shape_bits_eq_iff {values : List α} {values' : List β} :
    (bits values).shape = (bits values').shape ↔ values.length = values'.length := by
  simp [shape, map, List.map_const']

/-- A chunk holds as many values as its shape has places. -/
theorem length_members (chunk : Chunk α) : chunk.members.length = chunk.shape.members.length := by
  rw [shape, members_map, List.length_map]

/-- A chunk of a shape is determined by its members. -/
theorem eq_of_members {chunk chunk' : Chunk α} (same : chunk.shape = chunk'.shape)
    (h : chunk.members = chunk'.members) : chunk = chunk' := by
  cases chunk <;> cases chunk' <;> simp_all [shape, map, members]
  exact (List.map_inj_right fun _ _ => by simp).mp h

/-- Chunks of the same shapes are determined by their members. -/
theorem eq_of_flatMap_members {chunks chunks' : List (Chunk α)}
    (same : chunks.map shape = chunks'.map shape)
    (h : chunks.flatMap members = chunks'.flatMap members) : chunks = chunks' := by
  induction chunks generalizing chunks' with
  | nil => exact (List.map_eq_nil_iff.mp same.symm).symm
  | cons chunk chunks ih =>
    cases chunks' with
    | nil => simp at same
    | cons chunk' chunks' =>
      rw [List.map_cons, List.map_cons, List.cons.injEq] at same
      rw [List.flatMap_cons, List.flatMap_cons] at h
      have length : chunk.members.length = chunk'.members.length := by
        rw [length_members chunk, length_members chunk', same.1]
      obtain ⟨first, rest⟩ := List.append_inj h length
      rw [eq_of_members same.1 first, ih same.2 rest]

theorem members_close (group : List α) (chunks : List (Chunk α)) :
    (close group chunks).flatMap members =
      group.map (fun value => (value, .bit)) ++ chunks.flatMap members := by
  cases group <;> simp [close, members]

theorem sound_close {group : List α} {chunks : List (Chunk α)} (room : group.length ≤ maxBitGroup)
    (h : ∀ chunk ∈ chunks, chunk.Sound) : ∀ chunk ∈ close group chunks, chunk.Sound := by
  cases group with
  | nil => exact h
  | cons value group =>
    intro chunk member
    rcases List.mem_cons.mp member with rfl | tail
    · exact ⟨List.cons_ne_nil _ _, room⟩
    · exact h chunk tail

end Chunk

/-! ## Grouping

The claims hold of every open group, so that the inductions can follow it. -/

private theorem coalesceFrom_members (group : List α) (values : List (α × WireType)) :
    (coalesceFrom group values).flatMap Chunk.members =
      group.map (fun value => (value, .bit)) ++ values := by
  fun_induction coalesceFrom group values with
  | case1 group => exact Chunk.members_close group []
  | case2 group value ty rest bit room ih =>
    cases ty <;> simp [WireType.isBit] at bit
    simp [ih]
  | case3 group value ty rest bit full ih =>
    -- The group has no room left: it is closed, and the bit opens another one.
    cases ty <;> simp [WireType.isBit] at bit
    simp [Chunk.members_close, ih]
  | case4 group value ty rest bit ih =>
    rw [Chunk.members_close, List.flatMap_cons, ih, Chunk.members_single]
    rfl

/-- Grouping keeps every value, its type and the order. -/
theorem coalesce_members (values : List (α × WireType)) :
    (coalesce values).flatMap Chunk.members = values :=
  coalesceFrom_members [] values

private theorem coalesceFrom_sound (group : List α) (values : List (α × WireType))
    (room : group.length ≤ maxBitGroup) :
    ∀ chunk ∈ coalesceFrom group values, chunk.Sound := by
  fun_induction coalesceFrom group values with
  | case1 group => exact Chunk.sound_close room (by simp)
  | case2 group value ty rest bit space ih =>
    apply ih
    rw [List.length_append]
    exact space
  | case3 group value ty rest bit full ih =>
    exact Chunk.sound_close room (ih (show 1 ≤ maxBitGroup by decide))
  | case4 group value ty rest bit ih =>
    refine Chunk.sound_close room fun chunk member => ?_
    rcases List.mem_cons.mp member with rfl | tail
    · exact Chunk.sound_single (Bool.eq_false_iff.mpr bit)
    · exact ih (Nat.zero_le _) chunk tail

theorem coalesce_sound (values : List (α × WireType)) : ∀ chunk ∈ coalesce values, chunk.Sound :=
  coalesceFrom_sound [] values (Nat.zero_le _)

/-- The shapes of chunks depend on the types alone. -/
theorem coalesce_shape {values : List (α × WireType)} {values' : List (β × WireType)}
    (same : values.map (·.2) = values'.map (·.2)) :
    (coalesce values).map Chunk.shape = (coalesce values').map Chunk.shape := by
  have erased {γ : Type} (values : List (γ × WireType)) :
      (coalesce values).map Chunk.shape = coalesce ((values.map (·.2)).map fun ty => ((), ty)) := by
    rw [List.map_map]
    exact (coalesce_map (fun _ => ()) values).symm
  rw [erased, erased, same]

/-- The types of the values in chunks depend on the shapes alone. -/
theorem types_of_shape {values : List (β × WireType)} {chunks : List (Chunk α)}
    (same : chunks.map Chunk.shape = (coalesce values).map Chunk.shape) :
    (chunks.flatMap Chunk.members).map (·.2) = values.map (·.2) := by
  have erased {γ : Type} (chunks : List (Chunk γ)) :
      (chunks.flatMap Chunk.members).map (·.2) =
        ((chunks.map Chunk.shape).flatMap Chunk.members).map (·.2) := by
    induction chunks with
    | nil => rfl
    | cons chunk chunks ih =>
      have first : chunk.members.map (·.2) = chunk.shape.members.map (·.2) := by
        rw [Chunk.shape, Chunk.members_map, List.map_map]
        rfl
      rw [List.map_cons, List.flatMap_cons, List.flatMap_cons, List.map_append, List.map_append,
        first, ih]
  rw [erased, same, ← erased, coalesce_members]

/-- Chunks of the shape that types decide are those of the values in them. -/
theorem eq_coalesce {values : List (β × WireType)} {chunks : List (Chunk α)}
    (same : chunks.map Chunk.shape = (coalesce values).map Chunk.shape) :
    chunks = coalesce (chunks.flatMap Chunk.members) := by
  refine Chunk.eq_of_flatMap_members ?_ (coalesce_members _).symm
  rw [same]
  exact coalesce_shape (types_of_shape same).symm

end WireProtocol
