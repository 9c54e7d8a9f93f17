import WireProtocol.Text.Blank

/-!
# Settings of the code generator

* `Config`: where generated code finds its runtime, and what the names of its files begin with.
* `Config.override`: a setting from the environment in place of the configured one.
-/

namespace WireProtocol

/-- The settings of the code generator. -/
structure Config where
  runtimeCrate : String
  artifactStem : String
deriving DecidableEq, Repr

namespace Config

/-- The settings where nothing else is said. -/
def standard : Config :=
  ⟨"::framegen_runtime", "framing_amqp"⟩

/-- The settings under an environment that may name the runtime. Blanks around the name do not
count, and a name of blanks is none. -/
def override (config : Config) (runtimeCrate : Option String) : Config :=
  match runtimeCrate.map Text.trim with
  | none => config
  | some name => if name.isEmpty then config else { config with runtimeCrate := name }

end Config

end WireProtocol
