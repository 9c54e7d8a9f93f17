import WireProtocol.Proofs.Correspondence
import WireProtocol.Proofs.Description.Defaults
import WireProtocol.Proofs.Description.Tags

/-!
# Documents of descriptions

Which JSON document is that of which description, part by part and without a reader.

* `Json.Tree.SpellsNatural`, `Json.Tree.SpellsValue`: the documents of numbers and of defaults.
* `Json.Tree.IsArrayOf`, `Json.OrDefault`: several documents in order, and those that may be missing.
* `Field.IsIn`, `Method.IsIn`, `Class.IsIn`, `Constant.IsIn`, `Description.IsIn`: the documents of the
  parts of a description and of the whole.
* `natural?_eq_some_iff`, `spellsValue_of_ofJson?`: what is read from a number or a default is what its
  document spells.
-/

namespace WireProtocol

open Json (Tree IsNull)

/-! ## Single values -/

namespace Json

/-- The document is a number that is written as the natural number. -/
def Tree.SpellsNatural (tree : Tree) (n : Nat) : Prop :=
  ∃ literal : NumberLiteral, tree = .number literal ∧ literal.IsUnsigned ∧
    n = Nat.ofDigits 10 literal.whole.reverse

/-- The document is that of the default. -/
inductive Tree.SpellsValue : Tree → DefaultValue → Prop
  | bool (value : Bool) : SpellsValue (.bool value) (.bool value)
  | int {tree : Tree} {value : UInt64} (spelled : tree.SpellsNatural value.toNat) :
    SpellsValue tree (.int value)
  | text (value : String) : SpellsValue (.text (some value)) (.text value)
  | emptyTable : SpellsValue (.object []) .emptyTable

/-- The document is the array of the documents of the parts, in order. -/
def Tree.IsArrayOf {α : Type} (part : Tree → α → Prop) (tree : Tree) (parts : List α) : Prop :=
  ∃ items, tree = .array items ∧ List.Forall₂ part items parts

/-- What is written is the document of the value, which is the default where nothing is written. -/
inductive OrDefault {α : Type} (default : α) (document : Tree → α → Prop) : Option Tree → α → Prop
  | missing : OrDefault default document none default
  | written {tree : Tree} {value : α} (own : document tree value) :
    OrDefault default document (some tree) value

end Json

/-! ## Parts of descriptions -/

/-- What the document of a field has under its keys is what the field is like. The domain counts before
the type, and a null is as good as nothing. -/
structure Field.Tells (field : Field) (typeName domain default : Option Tree) : Prop where
  named : ¬ IsNull domain → domain = some (.text (some field.domain))
  typed : IsNull domain → typeName = some (.text (some field.domain))
  noDefault : field.default = none ↔ IsNull default
  default : ∀ value, field.default = some value → ∃ tree, default = some tree ∧ tree.SpellsValue value

/-- The document is that of the field, wherever the field stands. -/
def Field.IsIn (tree : Tree) (field : Field) : Prop :=
  ∃ typeName domain default,
    tree.record? FieldOutline.keys =
      some [some (.text (some field.name)), typeName, domain, default] ∧
      field.Tells typeName domain default

/-- What the document of a method has under its keys is what the method of the class is like. Its
arguments are numbered by their places. -/
structure Method.Tells (c : Class) (method : Method) (id : Tree)
    (synchronous content arguments : Option Tree) : Prop where
  id : id.SpellsNatural method.id.toNat
  synchronous : Json.OrDefault false (fun tree flag => tree = .bool flag) synchronous method.synchronous
  content : Json.OrDefault false (fun tree flag => tree = .bool flag) content method.hasContent
  arguments : Json.OrDefault [] (Tree.IsArrayOf Field.IsIn) arguments method.arguments.toList
  numbered : ∀ (i : Nat) field, method.arguments.toList[i]? = some field → field.index = i
  owned : method.classId = c.id ∧ method.className = c.name

/-- The document is that of the method of the class. -/
def Method.IsIn (c : Class) (tree : Tree) (method : Method) : Prop :=
  ∃ id synchronous content arguments,
    tree.record? MethodOutline.keys =
      some [some id, some (.text (some method.name)), synchronous, content, arguments] ∧
      method.Tells c id synchronous content arguments

/-- What the document of a class has under its keys is what the class is like. Its properties are
numbered by their places. -/
structure Class.Tells (c : Class) (id : Tree) (methods properties : Option Tree) : Prop where
  id : id.SpellsNatural c.id.toNat
  methods : Json.OrDefault [] (Tree.IsArrayOf (Method.IsIn c)) methods c.methods
  properties : Json.OrDefault [] (Tree.IsArrayOf Field.IsIn) properties c.properties.toList
  numbered : ∀ (i : Nat) field, c.properties.toList[i]? = some field → field.index = i

/-- The document is that of the class. -/
def Class.IsIn (tree : Tree) (c : Class) : Prop :=
  ∃ id methods properties,
    tree.record? ClassOutline.keys = some [some id, some (.text (some c.name)), methods, properties] ∧
      c.Tells id methods properties

/-- The document is that of the constant. A constant without a tag is of no error class. -/
def Constant.IsIn (tree : Tree) (constant : Constant) : Prop :=
  ∃ value tag word,
    tree.record? ConstantOutline.keys = some [some (.text (some constant.name)), some value, tag] ∧
      value.SpellsNatural constant.code.toNat ∧
      Json.OrDefault "" (fun tree word => tree = .text (some word)) tag word ∧
      ErrorClass.Spells word constant.errorClass

/-- What a document has under the keys of a description is what the description is like, and the aliases
are those that it declares. -/
structure Description.Tells (d : Description) (aliases : List (String × String))
    (major minor port classes : Tree) (revision domains constants : Option Tree) : Prop where
  major : major.SpellsNatural d.version.major.toNat
  minor : minor.SpellsNatural d.version.minor.toNat
  revision : Json.OrDefault 0 Tree.SpellsNatural revision d.version.revision.toNat
  port : port.SpellsNatural d.port.toNat
  domains : Json.OrDefault [] (Tree.IsArrayOf fun tree (own : String × String) =>
    tree = .array [.text (some own.1), .text (some own.2)]) domains aliases
  constants : Json.OrDefault [] (Tree.IsArrayOf Constant.IsIn) constants d.constants
  classes : classes.IsArrayOf Class.IsIn d.classes

/-- The document is that of the description, with these aliases. -/
def Description.IsIn (tree : Tree) (d : Description) (aliases : List (String × String)) : Prop :=
  ∃ major minor revision port domains constants classes,
    tree.record? Outline.keys =
      some [some major, some minor, revision, some port, domains, constants, some classes] ∧
      d.Tells aliases major minor port classes revision domains constants

/-! ## What is read -/

namespace Json

theorem natural?_eq_some_iff {literal : NumberLiteral} {n : Nat} : literal.natural? = some n ↔
    literal.IsUnsigned ∧ n = Nat.ofDigits 10 literal.whole.reverse := by
  have spelled (value : Nat) (found : literal.whole? = some value) :
      value = Nat.ofDigits 10 literal.whole.reverse := by
    rw [NumberLiteral.whole?] at found
    split at found
    · exact (digitsValue?_eq_some_iff.mp found).1
    · cases found
  rw [NumberLiteral.natural?, NumberLiteral.isUnsigned_iff]
  cases negative : literal.negative with
  | true => simp
  | false =>
    simp only [Bool.false_eq_true, if_false, true_and]
    constructor
    · intro found
      exact ⟨⟨n, found⟩, spelled n found⟩
    · rintro ⟨⟨value, found⟩, rfl⟩
      rw [found, spelled value found]

theorem ofLiteral?_of_unsigned {literal : NumberLiteral} (unsigned : literal.IsUnsigned) :
    Number.ofLiteral? literal =
      some (.natural (UInt64.ofNat (Nat.ofDigits 10 literal.whole.reverse))) := by
  have found := natural?_eq_some_iff.mpr ⟨unsigned, rfl⟩
  rw [NumberLiteral.natural?, unsigned.positive, if_neg Bool.false_ne_true] at found
  rw [Number.ofLiteral?, found, unsigned.positive]
  rfl

namespace Tree

/-- What is read from a number is what its document spells. -/
theorem spellsNatural_of_natural? {tree : Tree} {bound n : Nat} (read : tree.natural? bound = some n) :
    tree.SpellsNatural n ∧ n < bound := by
  unfold natural? at read
  split at read
  · next literal =>
    obtain ⟨found, small⟩ := Option.filter_eq_some_iff.mp read
    obtain ⟨unsigned, same⟩ := natural?_eq_some_iff.mp found
    exact ⟨⟨literal, rfl, unsigned, same⟩, by simpa using small⟩
  · cases read

theorem eq_text_of_text? {tree : Tree} {text : String} (read : tree.text? = some text) :
    tree = .text (some text) := by
  unfold text? at read
  split at read
  · rw [read]
  · cases read

theorem eq_bool_of_bool? {tree : Tree} {value : Bool} (read : tree.bool? = some value) :
    tree = .bool value := by
  unfold bool? at read
  split at read
  · cases read
    rfl
  · cases read

/-- What is read from an array is what its items are documents of. -/
theorem isArrayOf_of_items? {α : Type} {read? : Tree → Option α} {tree : Tree} {parts : List α}
    (read : tree.items? read? = some parts) :
    tree.IsArrayOf (fun tree part => read? tree = some part) parts := by
  unfold items? at read
  split at read
  · exact ⟨_, rfl, Option.forall₂_of_mapM read⟩
  · cases read

/-- What is read from a default is what its document spells. -/
theorem spellsValue_of_ofJson? {levels : Nat} {tree : Tree} {value : Value} {default : DefaultValue}
    (read : Value.ofTree? levels tree = some value) (made : DefaultValue.ofJson? value = some default) :
    tree.SpellsValue default := by
  have own : value.IsDefault := DefaultValue.isSome_ofJson?_iff.mp (by rw [made]; rfl)
  cases (Value.isDefault_iff read).mp own with
  | bool b =>
    cases read
    cases made
    exact .bool b
  | number unsigned =>
    rw [Value.ofTree?, ofLiteral?_of_unsigned unsigned] at read
    cases read
    cases made
    exact .int ⟨_, rfl, unsigned, UInt64.toNat_ofNat_of_lt' unsigned.fits⟩
  | text t =>
    cases read
    cases made
    exact .text t
  | emptyObject =>
    rw [Value.ofTree?] at read
    split at read
    · cases read
    · rw [Value.ofMembers?, Option.map_some, Value.sortMembers_eq_nil.mpr rfl] at read
      cases read
      cases made
      exact .emptyTable

end Tree

/-- What is read where a value has a default is in the document, or it is the default. -/
theorem orDefault_of_defaulted? {α : Type} {default value : α} {read? : Tree → Option α}
    {written : Option Tree} (read : defaulted? default read? written = some value) :
    OrDefault default (fun tree value => read? tree = some value) written value := by
  cases written with
  | none =>
    cases read
    exact .missing
  | some tree => exact .written read

theorem OrDefault.imp {α : Type} {default : α} {document document' : Tree → α → Prop}
    {written : Option Tree} {value : α} (h : OrDefault default document written value)
    (each : ∀ tree value, document tree value → document' tree value) :
    OrDefault default document' written value := by
  cases h with
  | missing => exact .missing
  | written own => exact .written (each _ _ own)

end Json

end WireProtocol
