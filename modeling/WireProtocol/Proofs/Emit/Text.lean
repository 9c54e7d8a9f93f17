import WireProtocol.Emit.Generate

/-!
# Code in the text of its file

* `Tokens.StandIn`: tokens are written in a text, with one space between any two.
* `Tokens.StandIn.part`, `Tokens.StandIn.content`: so are those in the middle of others, and those in braces.
* `Item.IsFunction`: an item is a function of a name, with a body.
* `Item.code`: the head and the body of an item.
* `Program.WrittenIn`, `Program.writtenIn`: each item of a program is written in its file.
-/

namespace WireProtocol

namespace Tokens

theorem renderAll_append (path : String) (first second : Tokens) :
    renderAll path (first ++ second) = renderAll path first ++ renderAll path second := by
  induction first with
  | nil => rfl
  | cons token first ih => rw [List.cons_append, renderAll, ih, renderAll, List.cons_append]

/-- There may be a space between the texts of two pieces of code. -/
theorem exists_render_append (path : String) (first second : Tokens) :
    ∃ gap, render path (first ++ second) = render path first ++ gap ++ render path second := by
  rw [render, renderAll_append, render, render]
  by_cases none : renderAll path first = []
  · exact ⟨"", by simp [none]⟩
  by_cases none' : renderAll path second = []
  · exact ⟨"", by simp [none']⟩
  exact ⟨" ", String.intercalate_append_of_ne_nil none none'⟩

/-- The tokens are written in the text, with one space between any two. -/
def StandIn (path : RuntimePath) (text : String) (tokens : Tokens) : Prop :=
  ∃ before behind, text = before ++ render path.text tokens ++ behind

namespace StandIn

variable {path : RuntimePath} {text : String} {tokens : Tokens}

/-- What stands in a text that stands in another one stands in this one as well. -/
theorem within {inner before behind : String} (h : StandIn path inner tokens)
    (same : text = before ++ inner ++ behind) : StandIn path text tokens := by
  obtain ⟨before', behind', rfl⟩ := h
  exact ⟨before ++ before', behind' ++ behind, by simp only [same, String.append_assoc]⟩

/-- Code in the middle of other code stands where this does. -/
theorem part {first last : Tokens} (h : StandIn path text (first ++ tokens ++ last)) :
    StandIn path text tokens := by
  obtain ⟨before, behind, same⟩ := h
  obtain ⟨gap, whole⟩ := exists_render_append path.text (first ++ tokens) last
  obtain ⟨gap', front⟩ := exists_render_append path.text first tokens
  refine ⟨before ++ render path.text first ++ gap', gap ++ render path.text last ++ behind, ?_⟩
  simp only [same, whole, front, String.append_assoc]

theorem last {first : Tokens} (h : StandIn path text (first ++ tokens)) : StandIn path text tokens := by
  rw [← List.append_nil (first ++ tokens)] at h
  exact h.part

/-- Code in braces stands where these do. -/
theorem content {inner : Tokens} (h : StandIn path text (braces inner)) : StandIn path text inner := by
  obtain ⟨before, behind, same⟩ := h
  have wrapped : render path.text (braces inner) = Delimiter.brace.wrap (render path.text inner) :=
    String.intercalate_singleton
  rw [wrapped, Delimiter.wrap] at same
  by_cases empty : (render path.text inner).isEmpty = true
  · rw [if_pos empty] at same
    refine ⟨text, "", ?_⟩
    rw [String.isEmpty_iff.mp empty]
    simp
  · rw [if_neg empty] at same
    refine ⟨before ++ "\x7b ", " \x7d" ++ behind, ?_⟩
    simp only [same, String.append_assoc]

end StandIn

/-- The parts of code that is made one after the other stand in the whole. -/
theorem standIn_render {α : Type} {path : RuntimePath} {parts : List α} {code : α → Tokens} {part : α}
    (member : part ∈ parts) : StandIn path (render path.text (parts.flatMap code)) (code part) := by
  obtain ⟨before, behind, rfl⟩ := List.append_of_mem member
  have whole : StandIn path (render path.text ((before ++ part :: behind).flatMap code))
      (before.flatMap code ++ code part ++ behind.flatMap code) := ⟨"", "", by simp⟩
  exact whole.part

end Tokens

open Tokens

/-- The item is a function of that name with that body. -/
def Item.IsFunction (item : Item) (function : Ident) (body : Tokens) : Prop :=
  ∃ front modifiers parameters result, modifiers ∈ ["fn", "pub fn", "pub const fn"] ∧
    item = .function front modifiers function parameters result body

/-- The head and the body of an item, without the documentation and the marks in front of them. -/
def Item.code : Item → Tokens
  | .constant _ id type value =>
    words "pub const" ++ name id ++ words ":" ++ type ++ words "=" ++ value ++ words ";"
  | .record _ id fields =>
    let field (f : Ident × Tokens) : Tokens := words "pub" ++ name f.1 ++ words ":" ++ f.2 ++ words ","
    words "pub struct" ++ name id ++ braces (fields.flatMap field)
  | .choice _ id variants =>
    let variant (v : Ident × Option Ident) : Tokens :=
      name v.1 ++ (v.2.elim [] fun record => parens (name record)) ++ words ","
    words "pub enum" ++ name id ++ braces (variants.flatMap variant)
  | .implementation head content => words "impl" ++ head ++ braces content
  | .function _ modifiers id parameters result body =>
    words modifiers ++ name id ++ parens parameters ++ words "->" ++ result ++ braces body

theorem Item.exists_tokens_eq (item : Item) : ∃ front, item.tokens = front ++ item.code := by
  cases item with
  | constant front | function front => exact ⟨front, by simp only [Item.tokens, code, List.append_assoc]⟩
  | record front | choice front =>
    refine ⟨front, ?_⟩
    rw [Item.tokens, List.append_assoc, List.append_assoc, code, List.append_assoc]
    rfl
  | implementation => exact ⟨[], rfl⟩

/-- What comes in front of an item is not a part of it. -/
theorem Item.standIn_code {path : RuntimePath} {text : String} {item : Item}
    (h : StandIn path text item.tokens) : StandIn path text item.code := by
  obtain ⟨front, parts⟩ := item.exists_tokens_eq
  rw [parts] at h
  exact h.last

/-- The items of a program are written in its two files, and so is an item that is implemented for a type. -/
structure Program.WrittenIn (program : Program) (path : RuntimePath) (artifacts : Artifacts) : Prop where
  definitions : ∀ item ∈ program.definitions, StandIn path artifacts.definitions item.code
  declarations : ∀ item ∈ program.declarations, StandIn path artifacts.declarations item.code
  implemented : ∀ head (item : Item), .implementation head item.tokens ∈ program.declarations →
    StandIn path artifacts.declarations item.code

namespace Program

theorem standIn_file {version : Version} {path : RuntimePath} {items : List Item} {item : Item}
    (member : item ∈ items) : StandIn path (file version path items) item.tokens := by
  have framed : file version path items =
    header version ++ "\n" ++ render path.text (items.flatMap Item.tokens) ++ "\n" := rfl
  exact (standIn_render member).within framed

theorem standIn_implementation {version : Version} {path : RuntimePath} {items : List Item}
    {head content : Tokens} (member : .implementation head content ∈ items) :
    StandIn path (file version path items) content := by
  have whole : StandIn path (file version path items) (Item.tokens (.implementation head content)) :=
    standIn_file member
  rw [Item.tokens] at whole
  exact whole.last.content

theorem writtenIn (program : Program) (name : String) (version : Version) (path : RuntimePath) :
    program.WrittenIn path (program.artifacts name version path) where
  definitions := fun _ member => Item.standIn_code (standIn_file member)
  declarations := fun _ member => Item.standIn_code (standIn_file member)
  implemented := fun _ _ member => Item.standIn_code (standIn_implementation member)

end Program

end WireProtocol
