import WireProtocol.Bytes.Utf8
import WireProtocol.Config.Toml
import WireProtocol.Emit.Generate

/-!
# Artifacts in a directory

* `Directory`: the files at their paths, and where no file can be written.
* `Directory.writeArtifacts`: the two files of a generation, one after the other.
* `generateFrom`: a generation whose description and settings are files, too.
-/

namespace WireProtocol

/-- A directory: the content of the file at each path where there is one, and the paths at which no
file can be written. -/
structure Directory where
  content? : String → Option String
  refuses : String → Bool

namespace Directory

/-- A file at a path. Its earlier content is replaced. A refused path changes nothing. -/
def write (dir : Directory) (path text : String) : Option Directory :=
  if dir.refuses path then
    none
  else
    some { dir with content? := fun other => if other = path then some text else dir.content? other }

/-- The files of a generation, declarations first. The directory is returned as it is left, also
when a file cannot be written. -/
def writeArtifacts (dir : Directory) (a : Artifacts) :
    Except GenerateError (String × String) × Directory :=
  match dir.write a.declarationsFile a.declarations with
  | none => (.error .io, dir)
  | some dir =>
    match dir.write a.definitionsFile a.definitions with
    | none => (.error .io, dir)
    | some dir => (.ok (a.declarationsFile, a.definitionsFile), dir)

end Directory

/-- The text in a file. A file that is missing or is no text cannot be read. -/
def readText (file : Option Bytes) : Except GenerateError String :=
  match file.bind Utf8.decode? with
  | some text => .ok text
  | none => .error .io

/-- The settings in a file. -/
def Config.ofFile (file : Option Bytes) : Except GenerateError Config := do
  match Config.ofToml? (← readText file) with
  | some config => return config
  | none => throw .config

/-- The description in a file. -/
def Description.ofFile (file : Option Bytes) : Except GenerateError Description := do
  (Description.ofJson (← readText file)).mapError .description

/-- The artifacts of a description that is a file. -/
def generateFrom (grammar : PathGrammar) (description : Option Bytes) (config : Config) :
    Except GenerateError Artifacts := do
  (generate grammar (← Description.ofFile description) config).1

end WireProtocol
