import WireProtocol.Config.Basic
import WireProtocol.Emit.Error

/-!
# Runtime paths

Generated code reaches its runtime by a path. What counts as a path is decided by the language of the
code, whose grammar is not part of this library.

* `RuntimePath`: a path.
* `RuntimePath.text`: the path as it stands in generated code.
* `PathGrammar`: which texts spell a path.
* `Config.runtimePath`: the path that the settings name.
-/

namespace WireProtocol

/-- A path to something in code: the texts that stand for it, one for each token, and one for a group with
all that is in it. A path is not empty, and neither is a token. -/
structure RuntimePath where
  tokens : List String
  tokens_ne_nil : tokens ≠ []
  token_ne_empty : ∀ token ∈ tokens, token ≠ ""
deriving DecidableEq, Repr

/-- The path as it stands in generated code. -/
def RuntimePath.text (path : RuntimePath) : String :=
  " ".intercalate path.tokens

/-- The grammar of paths: the path that a text spells, if it spells one. -/
structure PathGrammar where
  parse? : String → Option RuntimePath

/-- The runtime path of the settings. Blanks around it do not count. -/
def Config.runtimePath (grammar : PathGrammar) (config : Config) : Except GenerateError RuntimePath :=
  match grammar.parse? (Text.trim config.runtimeCrate) with
  | some path => .ok path
  | none => .error (.runtimePath config.runtimeCrate)

end WireProtocol
