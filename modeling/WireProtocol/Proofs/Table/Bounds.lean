import Mathlib.Algebra.Ring.Nat
import WireProtocol.Proofs.Table.Names

/-!
# What a table body can hold

Each value of a table and each octet of a name or a string stands for an octet of the body that the
table is read from, and each container inside a container for five.

* `FieldTable.contents`: the values of a table at all depths.
* `FieldTable.depth`: how many containers stand inside one another.
* `FieldTable.held_le_size`, `FieldTable.depth_le_size`: how many octets they take at least.
* `FieldTable.bounded_by_body`: a body holds no more than its length.
-/

namespace WireProtocol

namespace FieldTable

/-! ## Values at all depths -/

mutual

/-- A value and the values inside it. -/
def valueContents : FieldValue → List FieldValue
  | .table entries => .table entries :: contents entries
  | .array values => .array values :: valuesContents values
  | value => [value]

/-- Values and the values inside them. -/
def valuesContents : List FieldValue → List FieldValue
  | [] => []
  | value :: values => valueContents value ++ valuesContents values

/-- The values of entries and the values inside them. -/
def contents : List (Bytes × FieldValue) → List FieldValue
  | [] => []
  | (_, value) :: entries => valueContents value ++ contents entries

end

/-- The length of a long string or of a binary. Values of other kinds hold no octets. -/
def stringLength : FieldValue → Nat
  | .longstr bytes => bytes.length
  | .binary bytes => bytes.length
  | _ => 0

/-- The number of values, and the octets of the names and strings among them. -/
def held (values : List FieldValue) (names : List Bytes) : Nat :=
  values.length + (names.map List.length).sum + (values.map stringLength).sum

theorem held_append (values values' : List FieldValue) (names names' : List Bytes) :
    held (values ++ values') (names ++ names') = held values names + held values' names' := by
  simp only [held, List.length_append, List.map_append, List.sum_append]
  omega

theorem held_cons (value : FieldValue) (values : List FieldValue) (names : List Bytes) :
    held (value :: values) names = 1 + stringLength value + held values names := by
  simp only [held, List.length_cons, List.map_cons, List.sum_cons]
  omega

theorem held_name (values : List FieldValue) (name : Bytes) (names : List Bytes) :
    held values (name :: names) = name.length + held values names := by
  simp only [held, List.map_cons, List.sum_cons]
  omega

mutual

theorem held_le_valueSize (value : FieldValue) :
    held (valueContents value) (valueNames value) ≤ valueSize value := by
  cases value with
  | table entries =>
    have inside := held_le_size entries
    have own : stringLength (.table entries) = 0 := rfl
    rw [valueContents, valueNames, valueSize, held_cons]
    omega
  | array values =>
    have inside := held_le_valuesSize values
    have own : stringLength (.array values) = 0 := rfl
    rw [valueContents, valueNames, valueSize, held_cons]
    omega
  | longstr bytes | binary bytes =>
    change 1 + 0 + (bytes.length + 0) ≤ 1 + (4 + bytes.length)
    omega
  | void => exact Nat.le_refl 1
  | _ => exact Nat.le_add_right 1 _

theorem held_le_valuesSize (values : List FieldValue) :
    held (valuesContents values) (valuesNames values) ≤ valuesSize values := by
  match values with
  | [] => exact Nat.le_refl 0
  | value :: values =>
    rw [valuesContents, valuesNames, valuesSize, held_append]
    exact Nat.add_le_add (held_le_valueSize value) (held_le_valuesSize values)

/-- Each value takes an octet at least, and so does each octet of a name or a string. -/
theorem held_le_size (entries : List (Bytes × FieldValue)) :
    held (contents entries) (names entries) ≤ size entries := by
  match entries with
  | [] => exact Nat.le_refl 0
  | (name, value) :: entries =>
    have first := held_le_valueSize value
    have others := held_le_size entries
    rw [contents, names, size, held_name, held_append]
    omega

end

/-! ## Depth -/

mutual

/-- How many containers stand inside one another in a value, itself included. -/
def valueDepth : FieldValue → Nat
  | .table entries => depth entries + 1
  | .array values => valuesDepth values + 1
  | _ => 0

/-- How many containers stand inside one another in one of the values. -/
def valuesDepth : List FieldValue → Nat
  | [] => 0
  | value :: values => max (valueDepth value) (valuesDepth values)

/-- How many containers stand inside one another below the table itself. -/
def depth : List (Bytes × FieldValue) → Nat
  | [] => 0
  | (_, value) :: entries => max (valueDepth value) (depth entries)

end

mutual

theorem depth_le_valueSize (value : FieldValue) : 5 * valueDepth value ≤ valueSize value := by
  cases value with
  | table entries =>
    have inside := depth_le_size entries
    rw [valueDepth, valueSize]
    omega
  | array values =>
    have inside := depth_le_valuesSize values
    rw [valueDepth, valueSize]
    omega
  | _ => exact Nat.zero_le _

theorem depth_le_valuesSize (values : List FieldValue) :
    5 * valuesDepth values ≤ valuesSize values := by
  match values with
  | [] => exact Nat.le_refl 0
  | value :: values =>
    have first := depth_le_valueSize value
    have others := depth_le_valuesSize values
    rw [valuesDepth, valuesSize]
    omega

/-- Each container takes its tag and its length, and the outermost one the length of a name besides. -/
theorem depth_le_size (entries : List (Bytes × FieldValue)) :
    5 * depth entries ≤ size entries ∧ (0 < depth entries → 5 * depth entries + 1 ≤ size entries) := by
  match entries with
  | [] => exact ⟨Nat.le_refl 0, nofun⟩
  | (name, value) :: entries =>
    have first := depth_le_valueSize value
    have others := depth_le_size entries
    rw [depth, size]
    omega

end

/-- A table that has been read from a body holds no more than the body: its values at all depths, and
the octets of all names, long strings and binaries, are together at most as many as its octets. With
containers inside one another to some depth it has five octets for each of them, and one more. -/
theorem bounded_by_body {body : Bytes} {table : FieldTable}
    (decoded : FieldTable.decode body = .ok table) :
    (contents table).length + ((names table).map List.length).sum +
        ((contents table).map stringLength).sum ≤ body.length ∧
      (1 ≤ depth table → 5 * depth table + 1 ≤ body.length) := by
  rw [(decode_eq_ok.mp decoded).length_eq_size]
  exact ⟨held_le_size table, (depth_le_size table).2⟩

end FieldTable

namespace NestedArrays

/-- Arrays inside one another below an entry without a name, and nothing inside the innermost one. -/
def table : FieldTable :=
  [([], .array [.array [.array []]])]

def body : Bytes :=
  [0, 0x41, 0, 0, 0, 10, 0x41, 0, 0, 0, 5, 0x41, 0, 0, 0, 0]

/-- The body is as short as its depth allows. -/
theorem body_is_at_the_bound :
    FieldTable.decode body = .ok table ∧ body.length = 5 * FieldTable.depth table + 1 ∧
      (FieldTable.contents table).length + ((FieldTable.names table).map List.length).sum +
        ((FieldTable.contents table).map FieldTable.stringLength).sum ≤ body.length := by
  have decoded : FieldTable.decode body = .ok table := by
    with_unfolding_all rfl
  obtain ⟨held, deep⟩ := FieldTable.bounded_by_body decoded
  exact ⟨decoded, Nat.le_antisymm (by decide) (deep (by decide)), held⟩

end NestedArrays

end WireProtocol
