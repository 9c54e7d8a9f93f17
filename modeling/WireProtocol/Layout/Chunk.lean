import WireProtocol.WireType

/-!
# Chunks

Consecutive bits share octets; every other value stands alone.

* `Chunk`: values that are carried together.
* `coalesce`: the chunks of values in order. A group of bits is closed by its eighth member or by a
  value that is no bit.
-/

namespace WireProtocol

/-- Values that are carried together: one of a fixed width, one behind its length, or up to eight
bits that share an octet, the first in the least significant place. -/
inductive Chunk (α : Type) where
  | fixedWidth (value : α) (ty : WireType)
  | variableWidth (value : α) (ty : WireType)
  | bits (values : List α)
deriving DecidableEq, Repr

/-- The most bits that share an octet. -/
def maxBitGroup : Nat := 8

namespace Chunk

variable {α β : Type}

/-- The values of a chunk, in order. -/
def values : Chunk α → List α
  | fixedWidth value _ => [value]
  | variableWidth value _ => [value]
  | bits values => values

/-- The chunk with each value replaced. -/
def map (f : α → β) : Chunk α → Chunk β
  | fixedWidth value ty => fixedWidth (f value) ty
  | variableWidth value ty => variableWidth (f value) ty
  | bits values => bits (values.map f)

/-- The chunk of a value that is no bit. -/
def single (value : α) (ty : WireType) : Chunk α :=
  if ty.isInteger then fixedWidth value ty else variableWidth value ty

/-- A group of bits in front of other chunks, unless the group is empty. -/
def close (group : List α) (chunks : List (Chunk α)) : List (Chunk α) :=
  if group.isEmpty then chunks else bits group :: chunks

end Chunk

variable {α β : Type}

/-- The chunks of typed values when a group of bits is already open. -/
def coalesceFrom (group : List α) : List (α × WireType) → List (Chunk α)
  | [] => Chunk.close group []
  | (value, ty) :: rest =>
    if ty.isBit then
      if group.length < maxBitGroup then
        coalesceFrom (group ++ [value]) rest
      else
        Chunk.close group (coalesceFrom [value] rest)
    else
      Chunk.close group (Chunk.single value ty :: coalesceFrom [] rest)

/-- The chunks of typed values. -/
def coalesce (values : List (α × WireType)) : List (Chunk α) :=
  coalesceFrom [] values

theorem Chunk.close_map (f : α → β) (group : List α) (chunks : List (Chunk α)) :
    close (group.map f) (chunks.map (map f)) = (close group chunks).map (map f) := by
  cases group <;> simp [close, map]

private theorem coalesceFrom_map (f : α → β) (group : List α) (values : List (α × WireType)) :
    coalesceFrom (group.map f) (values.map fun (value, ty) => (f value, ty)) =
      (coalesceFrom group values).map (Chunk.map f) := by
  fun_induction coalesceFrom group values with
  | case1 group => simpa [coalesceFrom] using Chunk.close_map f group []
  | case2 group value ty rest bit room ih => simpa [coalesceFrom, bit, room] using ih
  | case3 group value ty rest bit full ih =>
    rw [← Chunk.close_map, ← ih]
    simp [coalesceFrom, bit, full]
  | case4 group value ty rest bit ih =>
    have single : Chunk.map f (Chunk.single value ty) = Chunk.single (f value) ty := by
      unfold Chunk.single
      split <;> rfl
    rw [List.map_nil] at ih
    simp [coalesceFrom, bit, ← Chunk.close_map, single, ih]

/-- Only the types decide how values are grouped. -/
theorem coalesce_map (f : α → β) (values : List (α × WireType)) :
    coalesce (values.map fun (value, ty) => (f value, ty)) =
      (coalesce values).map (Chunk.map f) :=
  coalesceFrom_map f [] values

end WireProtocol
