import WireProtocol.Json.Record

/-!
# Outlines of descriptions

An outline holds what a JSON document of the required shape says, before any of it is checked for
meaning.

* `Outline`, `ClassOutline`, `MethodOutline`, `FieldOutline`, `ConstantOutline`: the shapes.
* `Outline.ofTree?`: the outline of a document that has the shape.
-/

namespace WireProtocol

open Json (Key Tree)

/-- A field as a document writes it. -/
structure FieldOutline where
  name : String
  typeName : Option String
  domainName : Option String
  default : Option Json.Value

/-- A method as a document writes it. -/
structure MethodOutline where
  id : UInt16
  name : String
  synchronous : Bool
  hasContent : Bool
  arguments : List FieldOutline

/-- A class as a document writes it. -/
structure ClassOutline where
  id : UInt16
  name : String
  methods : List MethodOutline
  properties : List FieldOutline

/-- A constant as a document writes it. -/
structure ConstantOutline where
  name : String
  code : UInt32
  tag : String

/-- A description as a document writes it. -/
structure Outline where
  major : UInt8
  minor : UInt8
  revision : UInt8
  port : UInt16
  domains : List (String × String)
  constants : List ConstantOutline
  classes : List ClassOutline

/-! ## Numbers of a width -/

/-- A number of eight bits. -/
def octetOf? (tree : Tree) : Option UInt8 :=
  (tree.natural? UInt8.size).map UInt8.ofNat

/-- A number of sixteen bits. -/
def shortOf? (tree : Tree) : Option UInt16 :=
  (tree.natural? UInt16.size).map UInt16.ofNat

/-- A number of thirty-two bits. -/
def longOf? (tree : Tree) : Option UInt32 :=
  (tree.natural? UInt32.size).map UInt32.ofNat

/-! ## Records -/

/-- How deeply a document may be nested where its values matter. -/
def maxDepth : Nat := 127

namespace FieldOutline

/-- The keys of a field. -/
def keys : List Key :=
  [⟨"name", .required⟩, ⟨"type", .nullable⟩, ⟨"domain", .nullable⟩, ⟨"default-value", .nullable⟩]

/-- The outline of a field that stands inside so many arrays and objects. -/
def ofTree? (depth : Nat) (tree : Tree) : Option FieldOutline := do
  match ← tree.record? keys with
  | [name, typeName, domainName, default] =>
    return {
      name := ← Json.required? Tree.text? name
      typeName := ← Json.nullable? Tree.text? typeName
      domainName := ← Json.nullable? Tree.text? domainName
      default := ← Json.nullable? (Json.Value.ofTree? (maxDepth - (depth + 1))) default }
  | _ => none

end FieldOutline

namespace MethodOutline

/-- The keys of a method. -/
def keys : List Key :=
  [⟨"id", .required⟩, ⟨"name", .required⟩, ⟨"synchronous", .defaulted⟩, ⟨"content", .defaulted⟩,
    ⟨"arguments", .defaulted⟩]

/-- The outline of a method that stands inside so many arrays and objects. -/
def ofTree? (depth : Nat) (tree : Tree) : Option MethodOutline := do
  match ← tree.record? keys with
  | [id, name, synchronous, content, arguments] =>
    return {
      id := ← Json.required? shortOf? id
      name := ← Json.required? Tree.text? name
      synchronous := ← Json.defaulted? false Tree.bool? synchronous
      hasContent := ← Json.defaulted? false Tree.bool? content
      arguments := ← Json.defaulted? [] (Tree.items? (FieldOutline.ofTree? (depth + 2))) arguments }
  | _ => none

end MethodOutline

namespace ClassOutline

/-- The keys of a class. -/
def keys : List Key :=
  [⟨"id", .required⟩, ⟨"name", .required⟩, ⟨"methods", .defaulted⟩, ⟨"properties", .defaulted⟩]

/-- The outline of a class that stands inside so many arrays and objects. -/
def ofTree? (depth : Nat) (tree : Tree) : Option ClassOutline := do
  match ← tree.record? keys with
  | [id, name, methods, properties] =>
    return {
      id := ← Json.required? shortOf? id
      name := ← Json.required? Tree.text? name
      methods := ← Json.defaulted? [] (Tree.items? (MethodOutline.ofTree? (depth + 2))) methods
      properties :=
        ← Json.defaulted? [] (Tree.items? (FieldOutline.ofTree? (depth + 2))) properties }
  | _ => none

end ClassOutline

namespace ConstantOutline

/-- The keys of a constant. -/
def keys : List Key :=
  [⟨"name", .required⟩, ⟨"value", .required⟩, ⟨"class", .defaulted⟩]

/-- The outline of a constant. -/
def ofTree? (tree : Tree) : Option ConstantOutline := do
  match ← tree.record? keys with
  | [name, value, tag] =>
    return {
      name := ← Json.required? Tree.text? name
      code := ← Json.required? longOf? value
      tag := ← Json.defaulted? "" Tree.text? tag }
  | _ => none

end ConstantOutline

namespace Outline

/-- An alias and what it stands for: an array of exactly two texts. -/
def domainOf? : Tree → Option (String × String)
  | .array [name, target] => do
    return (← name.text?, ← target.text?)
  | _ => none

/-- The keys of a description. -/
def keys : List Key :=
  [⟨"major-version", .required⟩, ⟨"minor-version", .required⟩, ⟨"revision", .defaulted⟩,
    ⟨"port", .required⟩, ⟨"domains", .defaulted⟩, ⟨"constants", .defaulted⟩,
    ⟨"classes", .required⟩]

/-- The outline of a document, if it has the shape of a description. -/
def ofTree? (tree : Tree) : Option Outline := do
  match ← tree.record? keys with
  | [major, minor, revision, port, domains, constants, classes] =>
    return {
      major := ← Json.required? octetOf? major
      minor := ← Json.required? octetOf? minor
      revision := ← Json.defaulted? 0 octetOf? revision
      port := ← Json.required? shortOf? port
      domains := ← Json.defaulted? [] (Tree.items? domainOf?) domains
      constants := ← Json.defaulted? [] (Tree.items? ConstantOutline.ofTree?) constants
      classes := ← Json.required? (Tree.items? (ClassOutline.ofTree? 2)) classes }
  | _ => none

end Outline

end WireProtocol
