import Mathlib.Logic.Basic
import WireProtocol.Proofs.Codec.Method
import WireProtocol.Proofs.Layout.Fields

/-!
# Records whose sender waits for a reply

* `Naming.Spells`, `Naming.isNoWait_iff`: the names that are read as `nowait`.
* `Description.NoWait`, `Description.FirstNoWait`: the arguments that can tell a receiver not to reply, and
  the first one of a method.
* `Description.Awaits`: what it takes for the sender of a record to wait.
* `MethodLayout.isSynchronous_iff`: a layout asks for exactly that.
* `Description.Awaits.congr_bits`, `Description.Awaits.congr_first`: what the answer depends on.
* `Description.DecidesWaiting`, `Description.decidesWaiting`: all that a layout says about waiting.
-/

namespace WireProtocol

/-! ## Names -/

namespace Naming

/-- What may stand anywhere in a name without being read. -/
def gaps : List Char :=
  ['-', '_', ' ']

/-- The characters are those of the word, in either case, with gaps anywhere. -/
inductive Spells : List Char → List Char → Prop
  | nil : Spells [] []
  | gap {c : Char} {name word : List Char} (skipped : c ∈ gaps) (rest : Spells name word) :
      Spells (c :: name) word
  | letter {c l : Char} {name word : List Char} (same : c.toLower = l) (rest : Spells name word) :
      Spells (c :: name) (l :: word)

/-- A word in small letters is what remains of a name once gaps and case are gone, if the name spells it. -/
theorem filter_map_eq_iff {name word : List Char} (plain : ∀ l ∈ word, l ∉ gaps) :
    (name.filter fun c => !(c == '-' || c == '_' || c == ' ')).map Char.toLower = word ↔
      Spells name word := by
  have kept (c : Char) : (!(c == '-' || c == '_' || c == ' ')) = true ↔ c ∉ gaps := by
    simp [gaps, and_assoc]
  have fixed : ∀ c ∈ gaps, c.toLower = c := by simp [gaps]
  induction name generalizing word with
  | nil =>
    constructor
    · rintro rfl
      exact .nil
    · intro spells
      cases spells
      rfl
  | cons c name ih =>
    by_cases skipped : c ∈ gaps
    · rw [List.filter_cons, if_neg (fun keep => (kept c).mp keep skipped)]
      refine (ih plain).trans ⟨.gap skipped, fun spells => ?_⟩
      cases spells with
      | gap _ rest => exact rest
      | letter same =>
        -- A gap is no letter of the word.
        rw [fixed c skipped] at same
        exact (plain _ List.mem_cons_self (same ▸ skipped)).elim
    · rw [List.filter_cons, if_pos ((kept c).mpr skipped), List.map_cons]
      constructor
      · rintro rfl
        rw [List.forall_mem_cons] at plain
        exact .letter rfl ((ih plain.2).mp rfl)
      · intro spells
        cases spells with
        | gap inside => exact (skipped inside).elim
        | letter same rest =>
          rw [List.forall_mem_cons] at plain
          rw [same, (ih plain.2).mpr rest]

theorem isNoWait_iff {name : String} :
    isNoWait name = true ↔ Spells name.toList "nowait".toList := by
  rw [isNoWait, beq_iff_eq, filter_map_eq_iff (by simp [gaps])]

end Naming

/-! ## Arguments -/

namespace Description

variable {d : Description} {m : Method} {record record' : List WireValue}

/-- The argument can tell the receiver not to reply: it is a bit, and so named. -/
structure NoWait (d : Description) (field : Field) : Prop where
  bit : d.fieldType field = .ok .bit
  named : Naming.Spells field.name.toList "nowait".toList

/-- The first of the arguments that can tell the receiver not to reply stands at that place. -/
structure FirstNoWait (d : Description) (arguments : List Field) (i : Nat) : Prop where
  here : ∃ field, arguments[i]? = some field ∧ d.NoWait field
  before : ∀ j < i, ∀ field, arguments[j]? = some field → ¬ d.NoWait field

/-- The sender of the record waits for a reply: the method is declared synchronous, and either no argument
can tell the receiver not to reply, or the first one that can is false. -/
def Awaits (d : Description) (m : Method) (record : List WireValue) : Prop :=
  m.synchronous = true ∧
    ((∀ field ∈ m.arguments.toList, ¬ d.NoWait field) ∨
      ∃ i, d.FirstNoWait m.arguments.toList i ∧ record[i]? = some (.bit false))

theorem FirstNoWait.not_none {arguments : List Field} {i : Nat} (first : d.FirstNoWait arguments i) :
    ¬ ∀ field ∈ arguments, ¬ d.NoWait field := by
  obtain ⟨field, here, noWait⟩ := first.here
  exact fun none => none field (List.mem_of_getElem? here) noWait

/-- There is one such argument at most. -/
theorem FirstNoWait.unique {arguments : List Field} {i j : Nat} (first : d.FirstNoWait arguments i)
    (first' : d.FirstNoWait arguments j) : i = j := by
  obtain ⟨field, here, noWait⟩ := first.here
  obtain ⟨field', here', noWait'⟩ := first'.here
  rcases Nat.lt_trichotomy i j with lt | same | lt
  · exact (first'.before i lt field here noWait).elim
  · exact same
  · exact (first.before j lt field' here' noWait').elim

theorem FirstNoWait.head {field : Field} {arguments : List Field} (noWait : d.NoWait field) :
    d.FirstNoWait (field :: arguments) 0 :=
  ⟨⟨field, rfl, noWait⟩, fun _ lt => (Nat.not_lt_zero _ lt).elim⟩

theorem FirstNoWait.tail {field : Field} {arguments : List Field} {i : Nat} (other : ¬ d.NoWait field)
    (first : d.FirstNoWait arguments i) : d.FirstNoWait (field :: arguments) (i + 1) := by
  refine ⟨first.here, fun j lt passed there => ?_⟩
  cases j with
  | zero =>
    cases there
    exact other
  | succ j => exact first.before j (Nat.lt_of_succ_lt_succ lt) passed there

namespace Awaits

/-- Only the first argument that can tell the receiver not to reply decides. -/
theorem congr_first (same : ∀ i, d.FirstNoWait m.arguments.toList i → record[i]? = record'[i]?) :
    d.Awaits m record ↔ d.Awaits m record' := by
  refine and_congr_right fun _ => or_congr_right (exists_congr fun i => and_congr_right fun first => ?_)
  rw [same i first]

/-- Arguments other than bits decide nothing, whatever their names. -/
theorem congr_bits (same : ∀ (i : Nat) field, m.arguments.toList[i]? = some field →
    d.fieldType field = .ok .bit → record[i]? = record'[i]?) :
    d.Awaits m record ↔ d.Awaits m record' := by
  refine congr_first fun i first => ?_
  obtain ⟨field, here, noWait⟩ := first.here
  exact same i field here noWait.bit

end Awaits

end Description

/-! ## Layouts -/

theorem WireValue.wireType_eq_bit {value : WireValue} : value.wireType = .bit ↔ ∃ bit, value = .bit bit := by
  cases value <;> simp [wireType]

namespace MethodLayout

variable {d : Description} {m : Method} {layout : MethodLayout} {record : List WireValue}

theorem isNoWait_iff {field : Field} {ty : WireType} (known : d.fieldType field = .ok ty) :
    isNoWait field ty = true ↔ d.NoWait field := by
  have bit : ty.isBit = true ↔ d.fieldType field = .ok .bit := by
    rw [known, Except.ok.injEq]
    cases ty <;> decide
  rw [isNoWait, Bool.and_eq_true, bit, Naming.isNoWait_iff]
  exact ⟨fun h => ⟨h.1, h.2⟩, fun h => ⟨h.bit, h.named⟩⟩

/-- The value of the first argument that can tell the receiver not to reply, with that argument. -/
def told? (layout : MethodLayout) (record : List WireValue) : Option ((Field × WireType) × WireValue) :=
  (layout.arguments.zip record).find? fun argument => isNoWait argument.1.1 argument.1.2

theorem isSynchronous_eq (layout : MethodLayout) (record : List WireValue) : layout.isSynchronous record =
    (layout.synchronous && (layout.told? record).elim true fun argument => !argument.2.isSet) := by
  unfold isSynchronous
  generalize told : List.find? _ (layout.arguments.zip record) = found
  have same : layout.told? record = found := told
  rw [same]
  cases found <;> rfl

/-- Every argument stands in front of its value, which is of its type. -/
theorem exists_pair (resolved : d.methodLayout m = .ok layout)
    (typed : record.map WireValue.wireType = layout.types) {i : Nat} {field : Field}
    (there : m.arguments.toList[i]? = some field) :
    ∃ value, d.fieldType field = .ok value.wireType ∧ record[i]? = some value ∧
      (layout.arguments.zip record)[i]? = some ((field, value.wireType), value) := by
  obtain ⟨-, -, -, classified⟩ := Description.methodLayout_eq_ok.mp resolved
  obtain ⟨fields, known⟩ := Description.classify_eq_ok.mp classified
  rw [← fields, List.getElem?_map, Option.map_eq_some_iff] at there
  obtain ⟨⟨field, ty⟩, there, rfl⟩ := there
  have kind : (record.map WireValue.wireType)[i]? = some ty := by
    rw [typed, types, List.getElem?_map, there]
    rfl
  rw [List.getElem?_map, Option.map_eq_some_iff] at kind
  obtain ⟨value, found, rfl⟩ := kind
  exact ⟨value, known _ (List.mem_of_getElem? there), found,
    List.getElem?_zip_eq_some.mpr ⟨there, found⟩⟩

/-- What is paired with a value is the argument at its place. -/
theorem argument_of_pair (resolved : d.methodLayout m = .ok layout) {i : Nat} {field : Field} {ty : WireType}
    {value : WireValue} (paired : (layout.arguments.zip record)[i]? = some ((field, ty), value)) :
    m.arguments.toList[i]? = some field := by
  obtain ⟨-, -, -, classified⟩ := Description.methodLayout_eq_ok.mp resolved
  rw [← (Description.classify_eq_ok.mp classified).1, List.getElem?_map,
    (List.getElem?_zip_eq_some.mp paired).1]
  rfl

/-- The search in a record finds the first argument that can tell the receiver not to reply, and what it
says. -/
theorem told?_cases (resolved : d.methodLayout m = .ok layout)
    (typed : record.map WireValue.wireType = layout.types) :
    (layout.told? record = none ∧ ∀ field ∈ m.arguments.toList, ¬ d.NoWait field) ∨
      ∃ argument bit i, layout.told? record = some (argument, .bit bit) ∧
        d.FirstNoWait m.arguments.toList i ∧ record[i]? = some (.bit bit) := by
  cases found : layout.told? record with
  | none =>
    refine .inl ⟨rfl, fun field member noWait => ?_⟩
    obtain ⟨i, there⟩ := List.mem_iff_getElem?.mp member
    obtain ⟨value, resolves, -, paired⟩ := exists_pair resolved typed there
    exact List.find?_eq_none.mp found _ (List.mem_of_getElem? paired) ((isNoWait_iff resolves).mpr noWait)
  | some argument =>
    obtain ⟨⟨field, ty⟩, value⟩ := argument
    obtain ⟨named, i, inside, here, before⟩ := List.find?_eq_some_iff_getElem.mp found
    have paired : (layout.arguments.zip record)[i]? = some ((field, ty), value) := by
      rw [List.getElem?_eq_getElem inside, here]
    have listed := argument_of_pair resolved paired
    obtain ⟨value, resolves, there, paired'⟩ := exists_pair resolved typed listed
    cases paired.symm.trans paired'
    have noWait : d.NoWait field := (isNoWait_iff resolves).mp named
    have first : d.FirstNoWait m.arguments.toList i := by
      refine ⟨⟨field, listed, noWait⟩, fun j lt other listed' noWait' => ?_⟩
      obtain ⟨value', resolves', -, paired'⟩ := exists_pair resolved typed listed'
      obtain ⟨inside', earlier⟩ := List.getElem?_eq_some_iff.mp paired'
      have passed : isNoWait other value'.wireType = false := by simpa [earlier] using before j lt
      exact Bool.false_ne_true (passed.symm.trans ((isNoWait_iff resolves').mpr noWait'))
    obtain ⟨bit, rfl⟩ := WireValue.wireType_eq_bit.mp (Except.ok.inj (resolves.symm.trans noWait.bit))
    exact .inr ⟨_, bit, i, rfl, first, there⟩

theorem isSynchronous_of_none (resolved : d.methodLayout m = .ok layout)
    (typed : record.map WireValue.wireType = layout.types)
    (none : ∀ field ∈ m.arguments.toList, ¬ d.NoWait field) :
    layout.isSynchronous record = m.synchronous := by
  obtain ⟨-, -, declared, -⟩ := Description.methodLayout_eq_ok.mp resolved
  rcases told?_cases resolved typed with ⟨found, -⟩ | ⟨-, -, i, -, first, -⟩
  · rw [isSynchronous_eq, found, declared]
    exact Bool.and_true m.synchronous
  · exact (first.not_none none).elim

theorem isSynchronous_of_first (resolved : d.methodLayout m = .ok layout)
    (typed : record.map WireValue.wireType = layout.types) {i : Nat} {bit : Bool}
    (first : d.FirstNoWait m.arguments.toList i) (value : record[i]? = some (.bit bit)) :
    layout.isSynchronous record = (m.synchronous && !bit) := by
  obtain ⟨-, -, declared, -⟩ := Description.methodLayout_eq_ok.mp resolved
  rcases told?_cases resolved typed with ⟨-, none⟩ | ⟨argument, bit', i', found, first', value'⟩
  · exact (first.not_none none).elim
  · cases first.unique first'
    cases value.symm.trans value'
    rw [isSynchronous_eq, found, declared]
    rfl

/-- A layout says of a record that its sender waits exactly when it does. -/
theorem isSynchronous_iff (resolved : d.methodLayout m = .ok layout)
    (typed : record.map WireValue.wireType = layout.types) :
    layout.isSynchronous record = true ↔ d.Awaits m record := by
  rcases told?_cases resolved typed with ⟨-, none⟩ | ⟨-, bit, i, -, first, value⟩
  · rw [isSynchronous_of_none resolved typed none]
    exact ⟨fun declared => ⟨declared, .inl none⟩, And.left⟩
  · rw [isSynchronous_of_first resolved typed first value, Bool.and_eq_true, Bool.not_eq_true']
    refine and_congr_right fun _ => ⟨fun told => .inr ⟨i, first, told ▸ value⟩, ?_⟩
    rintro (none | ⟨i', first', value'⟩)
    · exact (first.not_none none).elim
    · cases first.unique first'
      cases value.symm.trans value'
      rfl

end MethodLayout

/-- A layout tells the records whose sender waits from the others. No record of an asynchronous method is
among them, and two records that have the same bits, or only the same first bit that can tell the receiver
not to reply, are told alike. -/
structure Description.DecidesWaiting (d : Description) (m : Method) (layout : MethodLayout) : Prop where
  iff : ∀ record, record.map WireValue.wireType = layout.types →
    (layout.isSynchronous record = true ↔ d.Awaits m record)
  asynchronous : m.synchronous = false → ∀ record, layout.isSynchronous record = false
  bits : ∀ record record', record.map WireValue.wireType = layout.types →
    record'.map WireValue.wireType = layout.types →
    (∀ (i : Nat) field, m.arguments.toList[i]? = some field → d.fieldType field = .ok .bit →
      record[i]? = record'[i]?) →
    layout.isSynchronous record = layout.isSynchronous record'
  first : ∀ record record', record.map WireValue.wireType = layout.types →
    record'.map WireValue.wireType = layout.types →
    (∀ i, d.FirstNoWait m.arguments.toList i → record[i]? = record'[i]?) →
    layout.isSynchronous record = layout.isSynchronous record'

theorem Description.decidesWaiting {d : Description} {m : Method} {layout : MethodLayout}
    (resolved : d.methodLayout m = .ok layout) : d.DecidesWaiting m layout where
  iff _ typed := MethodLayout.isSynchronous_iff resolved typed
  asynchronous declared record := by
    obtain ⟨-, -, same, -⟩ := methodLayout_eq_ok.mp resolved
    rw [MethodLayout.isSynchronous_eq, same, declared, Bool.false_and]
  bits record record' typed typed' same := by
    rw [Bool.eq_iff_iff, MethodLayout.isSynchronous_iff resolved typed,
      MethodLayout.isSynchronous_iff resolved typed']
    exact Awaits.congr_bits same
  first record record' typed typed' same := by
    rw [Bool.eq_iff_iff, MethodLayout.isSynchronous_iff resolved typed,
      MethodLayout.isSynchronous_iff resolved typed']
    exact Awaits.congr_first same

end WireProtocol
