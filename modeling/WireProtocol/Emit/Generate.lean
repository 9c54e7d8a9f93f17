import WireProtocol.Config.RuntimePath
import WireProtocol.Description.Load
import WireProtocol.Emit.Declarations
import WireProtocol.Emit.LookupCode
import WireProtocol.Emit.MethodCode
import WireProtocol.Emit.PropertyCode

/-!
# Generating code

* `Program`: the code of a protocol, with places for the runtime path.
* `Artifacts`: the two files that a generation yields.
* `generate`: the artifacts of a description, and what the generation reports.
-/

namespace WireProtocol

/-- The code of a protocol: its types, and what works on them. -/
structure Program where
  declarations : List Item
  definitions : List Item

/-- The files of a protocol. -/
structure Artifacts where
  name : String
  declarations : String
  definitions : String
deriving DecidableEq, Repr

namespace Artifacts

/-- The name of the file of the declarations. -/
def declarationsFile (a : Artifacts) : String :=
  a.name ++ "_decls.rs"

/-- The name of the file of the definitions. -/
def definitionsFile (a : Artifacts) : String :=
  a.name ++ "_defs.rs"

end Artifacts

namespace Program

/-- The code of a description. -/
def ofDescription (d : Description) : Gen Program := do
  let declarations ← Declarations.items d
  let methods ← MethodCode.items d
  let properties ← PropertyCode.items d
  let lookups ← Gen.ofExcept (LookupCode.items d)
  return { declarations, definitions := methods ++ properties ++ lookups }

/-- The first line of a file. -/
def header (version : Version) : String :=
  String.join ["// @generated by framegen-build from protocol ", version.display, ". Do not edit."]

/-- A file that holds items. -/
def file (version : Version) (path : RuntimePath) (items : List Item) : String :=
  header version ++ "\n" ++ Tokens.render path.text (items.flatMap Item.tokens) ++ "\n"

/-- The files of a program that finds its runtime by a path. -/
def artifacts (program : Program) (name : String) (version : Version) (path : RuntimePath) :
    Artifacts where
  name := name
  declarations := file version path program.declarations
  definitions := file version path program.definitions

end Program

/-- The steps of a generation. -/
def generateSteps (grammar : PathGrammar) (d : Description) (config : Config) : Gen Artifacts := do
  Gen.report (.started d.version)
  let path ← Gen.ofExcept (config.runtimePath grammar)
  let program ← Program.ofDescription d
  let name := d.version.artifactName config.artifactStem
  Gen.report (.generated name d.classes.length d.constants.length)
  return program.artifacts name d.version path

/-- The artifacts of a description under settings, and what the generation reports. Apart from what
counts as a path, it depends on nothing else. -/
def generate (grammar : PathGrammar) (d : Description) (config : Config) :
    Except GenerateError Artifacts × List Event :=
  (generateSteps grammar d config).run

end WireProtocol
