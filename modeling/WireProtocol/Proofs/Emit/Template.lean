import WireProtocol.Proofs.Config.RuntimePath
import WireProtocol.Proofs.Emit.Trace

/-!
# Templates of generated files

* `Template`: a text with places for another one.
* `Template.ofTokens`, `Template.render_eq_fill`: tokens as text are a template of the tokens, with the
  runtime path in its places.
* `Description.templates`: the templates of the two files of a description.
* `generate_eq_fill`: a generation puts the runtime path of its settings into these templates.
* `settings_fill_places`: two generations of a description differ in what stands in the places and in the
  names of their files.
-/

namespace WireProtocol

/-- A part of a text: one that is known, or a place for another text. -/
inductive Piece where
  | known (text : String)
  | place
deriving DecidableEq

/-- A text with places for another one, the same in all of them. -/
abbrev Template := List Piece

namespace Piece

/-- The text of a piece, given the text for the places. -/
def fill (path : String) : Piece → String
  | known text => text
  | place => path

/-- Whether nothing stands for the piece, unless it is a place. -/
def isBlank : Piece → Bool
  | known text => text.isEmpty
  | place => false

theorem isEmpty_fill {path : String} (named : path ≠ "") (piece : Piece) :
    (piece.fill path).isEmpty = piece.isBlank := by
  cases piece with
  | known text => rfl
  | place => simpa [fill, isBlank] using named

end Piece

namespace Template

variable {path : String}

/-- The text of a template, given the text for its places. -/
def fill (path : String) (template : Template) : String :=
  String.join (template.map (Piece.fill path))

/-- Whether nothing stands in the template, and there is no place in it. -/
def isBlank (template : Template) : Bool :=
  template.all Piece.isBlank

@[simp] theorem fill_nil : fill path [] = "" :=
  String.join_nil

@[simp] theorem fill_cons (piece : Piece) (template : Template) :
    fill path (piece :: template) = piece.fill path ++ fill path template :=
  String.join_cons

@[simp] theorem fill_append (template other : Template) :
    fill path (template ++ other) = fill path template ++ fill path other := by
  rw [fill, List.map_append, String.join_append]
  rfl

theorem isEmpty_fill (named : path ≠ "") (template : Template) :
    (template.fill path).isEmpty = template.isBlank := by
  induction template with
  | nil => rfl
  | cons piece template ih =>
    rw [isBlank, List.all_cons, ← Piece.isEmpty_fill named, ← isBlank, ← ih, fill_cons,
      Bool.eq_iff_iff, Bool.and_eq_true]
    simp only [String.isEmpty_iff, String.append_eq_empty_iff]

/-- Templates with a space between any two. -/
def spaced (templates : List Template) : Template :=
  List.intercalate [.known " "] templates

theorem fill_spaced (templates : List Template) :
    (spaced templates).fill path = " ".intercalate (templates.map (fill path)) := by
  induction templates with
  | nil => rfl
  | cons template templates ih =>
    cases templates with
    | nil => simp [spaced]
    | cons next templates =>
      have space : fill path [.known " "] = " " := by simp [Piece.fill]
      rw [spaced, List.intercalate_cons_cons, ← spaced, fill_append, fill_append, ih, space]
      simp only [List.map_cons, String.intercalate_cons_cons]

/-- A group with a template as its content. -/
def wrap (delimiter : Delimiter) (content : Template) : Template :=
  match delimiter with
  | .parenthesis => .known "(" :: content ++ [.known ")"]
  | .bracket => .known "[" :: content ++ [.known "]"]
  | .brace =>
    if content.isBlank then [.known "\x7b \x7d"]
    else .known "\x7b " :: content ++ [.known " \x7d"]

theorem fill_wrap (named : path ≠ "") (delimiter : Delimiter) (content : Template) :
    (wrap delimiter content).fill path = delimiter.wrap (content.fill path) := by
  cases delimiter with
  | parenthesis | bracket => simp [wrap, Delimiter.wrap, Piece.fill, String.append_assoc]
  | brace =>
    -- Braces look at their content. A place counts as some, and the path in it is not empty.
    rw [wrap, Delimiter.wrap, isEmpty_fill named]
    cases content.isBlank <;> simp [Piece.fill, String.append_assoc]

mutual

/-- The template of a token. -/
def ofToken : Token → Template
  | .word text => [.known text]
  | .ident id => [.known id.text]
  | .runtime => [.place]
  | .group delimiter content => wrap delimiter (spaced (ofEach content))

/-- The templates of tokens. -/
def ofEach : List Token → List Template
  | [] => []
  | token :: tokens => ofToken token :: ofEach tokens

end

/-- The template of tokens as text. -/
def ofTokens (tokens : Tokens) : Template :=
  spaced (ofEach tokens)

mutual

theorem fill_ofToken (named : path ≠ "") :
    ∀ token : Token, (ofToken token).fill path = Tokens.renderToken path token
  | .word text | .ident id | .runtime => by simp [ofToken, Tokens.renderToken, Piece.fill]
  | .group delimiter content => by
    rw [ofToken, Tokens.renderToken, fill_wrap named, fill_spaced, fill_ofEach named content]

theorem fill_ofEach (named : path ≠ "") :
    ∀ tokens : List Token, (ofEach tokens).map (fill path) = Tokens.renderAll path tokens
  | [] => rfl
  | token :: tokens => by
    rw [ofEach, Tokens.renderAll, List.map_cons, fill_ofToken named token, fill_ofEach named tokens]

end

/-- Tokens as text are their template with the path in its places. -/
theorem render_eq_fill (named : path ≠ "") (tokens : Tokens) :
    Tokens.render path tokens = (ofTokens tokens).fill path := by
  rw [Tokens.render, ofTokens, fill_spaced, fill_ofEach named]

end Template

/-! ## Templates of the two files -/

/-- The templates of the two files of a protocol. -/
structure Templates where
  declarations : Template
  definitions : Template

/-- The files with a path in the places. -/
def Templates.artifacts (templates : Templates) (name : String) (path : RuntimePath) : Artifacts where
  name := name
  declarations := templates.declarations.fill path.text
  definitions := templates.definitions.fill path.text

namespace Program

/-- The template of a file that holds items. -/
def fileTemplate (version : Version) (items : List Item) : Template :=
  .known (header version) :: .known "\n" :: Template.ofTokens (items.flatMap Item.tokens) ++ [.known "\n"]

theorem file_eq_fill {path : RuntimePath} (named : path.text ≠ "") (version : Version)
    (items : List Item) : file version path items = (fileTemplate version items).fill path.text := by
  rw [file, fileTemplate, Template.render_eq_fill named]
  simp [Piece.fill, String.append_assoc]

/-- The templates of the two files of a program. -/
def templates (program : Program) (version : Version) : Templates where
  declarations := fileTemplate version program.declarations
  definitions := fileTemplate version program.definitions

theorem artifacts_eq_fill {path : RuntimePath} (named : path.text ≠ "") (program : Program)
    (name : String) (version : Version) :
    program.artifacts name version path = (program.templates version).artifacts name path := by
  rw [artifacts, file_eq_fill named, file_eq_fill named]
  rfl

end Program

/-- The templates of the two files of a description, or why no code is generated. Settings play no
part. -/
def Description.templates (d : Description) : Except GenerateError Templates :=
  (Program.ofDescription d).run.1.map (Program.templates · d.version)

variable {grammar : PathGrammar} {d : Description} {config other : Config} {path path' : RuntimePath}

/-- A generation under settings with a runtime path makes the code of the description, and puts the path
into its places. -/
theorem generate_eq_fill (d : Description) (found : config.runtimePath grammar = .ok path) :
    (generate grammar d config).1 =
      d.templates.map (·.artifacts (d.version.artifactName config.artifactStem) path) := by
  have named : path.text ≠ "" := path.text_ne_empty
  have logs := (Program.ofDescription_follows grammar d config).logs
  have started : ExceptT.run (Gen.report (.started d.version)) [] = (.ok (), [.started d.version]) := rfl
  have located : ExceptT.run (Gen.ofExcept (config.runtimePath grammar)) [.started d.version] =
      (.ok path, [.started d.version]) := by
    rw [found]
    rfl
  -- The code does not depend on what has been reported when it is made.
  have made := logs [.started d.version]
  rw [generate, generateSteps, Gen.run, ExceptT.run_bind_of_ok _ started,
    ExceptT.run_bind_of_ok _ located, Description.templates]
  cases ended : (Program.ofDescription d).run.1 with
  | ok program =>
    rw [ExceptT.run_bind_of_ok _ (ended ▸ made)]
    exact congrArg Except.ok (program.artifacts_eq_fill named _ _)
  | error e =>
    rw [ExceptT.run_bind_of_error _ (ended ▸ made)]
    rfl

/-- Two generations of a description under settings with runtime paths end alike. Their files come from
the same templates, each with its own path in the places and under its own name, and are the same but
for the name when the paths are. -/
theorem settings_fill_places (d : Description) (found : config.runtimePath grammar = .ok path)
    (found' : other.runtimePath grammar = .ok path') :
    ((∃ a, (generate grammar d config).1 = .ok a) ↔ ∃ a, (generate grammar d other).1 = .ok a) ∧
    (∀ e, (generate grammar d config).1 = .error e ↔ (generate grammar d other).1 = .error e) ∧
    ∀ a a', (generate grammar d config).1 = .ok a → (generate grammar d other).1 = .ok a' →
      (∃ templates, d.templates = .ok templates ∧
        a = templates.artifacts (d.version.artifactName config.artifactStem) path ∧
        a' = templates.artifacts (d.version.artifactName other.artifactStem) path') ∧
      (path = path' → a.declarations = a'.declarations ∧ a.definitions = a'.definitions) := by
  rw [generate_eq_fill d found, generate_eq_fill d found']
  cases d.templates with
  | error e => simp [Except.map]
  | ok templates =>
    refine ⟨by simp [Except.map], by simp [Except.map], fun a a' made made' => ?_⟩
    cases made
    cases made'
    refine ⟨⟨templates, rfl, rfl, rfl⟩, fun same => ?_⟩
    rw [same]
    exact ⟨rfl, rfl⟩

namespace TwoRuntimes

/-- A description of constants only. -/
def description : Description :=
  { Description.new ⟨0, 9, 1⟩ 5672 with constants := [⟨"internal-error", 541, .hard⟩] }

theorem exists_templates : ∃ templates, description.templates = .ok templates := by
  have complete : description.templates.isOk = true := by decide +kernel
  exact Except.exists_eq_ok_of_isOk complete

/-- The same templates, with one runtime in the places and with another one. -/
theorem share_templates : ∃ templates, description.templates = .ok templates ∧
    (generate .names description ⟨"rt", "a"⟩).1 =
      .ok (templates.artifacts "a_0_9_1" .rt) ∧
    (generate .names description ⟨"::rt", "b"⟩).1 =
      .ok (templates.artifacts "b_0_9_1" .globalRt) := by
  have found : (Config.mk "rt" "a").runtimePath .names = .ok .rt := Config.runtimePath_of_rt rfl
  have found' : (Config.mk "::rt" "b").runtimePath .names = .ok .globalRt :=
    Config.runtimePath_of_globalRt rfl
  obtain ⟨alike, -, filled⟩ := settings_fill_places description found found'
  have first : ∃ a, (generate .names description ⟨"rt", "a"⟩).1 = .ok a := by
    obtain ⟨templates, made⟩ := exists_templates
    rw [generate_eq_fill description found, made]
    exact ⟨_, rfl⟩
  obtain ⟨a, ended⟩ := first
  obtain ⟨a', ended'⟩ := alike.mp ⟨a, ended⟩
  obtain ⟨⟨templates, made, rfl, rfl⟩, -⟩ := filled a a' ended ended'
  exact ⟨templates, made, ended, ended'⟩

end TwoRuntimes
end WireProtocol
