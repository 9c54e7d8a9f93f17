import WireProtocol.Config.NamePath

/-!
# Runtime paths

* `RuntimePath.text_ne_empty`: a path does not vanish in generated code.
* `Config.runtimePath_eq_ok`: the runtime path of settings is the one that their text spells.
* `Config.runtimePath_of_rt`: a lone name is a path.
-/

namespace WireProtocol

/-- There is something to a path. -/
theorem RuntimePath.text_ne_empty (path : RuntimePath) : path.text ≠ "" := by
  obtain ⟨tokens, some_tokens, named⟩ := path
  unfold text
  cases tokens with
  | nil => exact (some_tokens rfl).elim
  | cons first others =>
    rw [List.forall_mem_cons] at named
    cases others with
    | nil => simpa using named.1
    | cons next others => simp [String.intercalate_cons_cons]

theorem Config.runtimePath_eq_ok {grammar : PathGrammar} {config : Config} {path : RuntimePath} :
    config.runtimePath grammar = .ok path ↔
      grammar.parse? (Text.trim config.runtimeCrate) = some path := by
  unfold runtimePath
  cases grammar.parse? (Text.trim config.runtimeCrate) <;> simp

/-- The table of characters, counted through as a list. -/
theorem Text.isIdentifierStart_eq (c : Char) :
    isIdentifierStart c = (identifierStart.toList.countP (· ≤ c.toNat) % 2 == 1) := by
  rw [isIdentifierStart, Intervals.contains, Array.countP_toList]

/-! ## Runtimes that are called `rt` -/

/-- The path of a lone name. -/
def RuntimePath.rt : RuntimePath :=
  ⟨["rt"], by decide, by decide⟩

/-- The path of a name at the root. -/
def RuntimePath.globalRt : RuntimePath :=
  ⟨["::", "rt"], by decide, by decide⟩

namespace NamePath

theorem readNames?_rt (count : Nat) : readNames? (count + 1) ['r', 't'] = some [.plain "rt"] := by
  have first : Text.isIdentifierStart 'r' = true := by
    rw [Text.isIdentifierStart_eq]
    decide +kernel
  have second : Text.isIdentifierStart 't' = true := by
    rw [Text.isIdentifierStart_eq]
    decide +kernel
  have word : readWord? ['r', 't'] = some ("rt", []) := by
    simp [readWord?, Text.isIdentifierContinue, first, second]
  have name : readName? ['r', 't'] = some (.plain "rt", []) := by
    rw [readName?, word]
    · decide +kernel
    · intro rest same
      cases same
  have blank : skipBlanks ['r', 't'] = ['r', 't'] := by with_unfolding_all rfl
  have ended : skipBlanks [] = [] := by with_unfolding_all rfl
  simp [readNames?, blank, name, ended]

theorem parse?_rt : parse? "rt" = some ⟨false, [.plain "rt"]⟩ := by
  have blank : skipBlanks ['r', 't'] = ['r', 't'] := by with_unfolding_all rfl
  simp [parse?, blank, readNames?_rt]

theorem parse?_global_rt : parse? "::rt" = some ⟨true, [.plain "rt"]⟩ := by
  have blank : skipBlanks [':', ':', 'r', 't'] = [':', ':', 'r', 't'] := by with_unfolding_all rfl
  simp [parse?, blank, readNames?_rt]

end NamePath

namespace PathGrammar

theorem names_rt : names.parse? "rt" = some .rt := by
  simp only [names, NamePath.parse?_rt, Option.pmap_some]
  rfl

theorem names_global_rt : names.parse? "::rt" = some .globalRt := by
  simp only [names, NamePath.parse?_global_rt, Option.pmap_some]
  rfl

end PathGrammar

/-- A runtime that is found by a lone name. -/
theorem Config.runtimePath_of_rt {config : Config} (named : config.runtimeCrate = "rt") :
    config.runtimePath .names = .ok .rt := by
  have trimmed : Text.trim "rt" = "rt" := by with_unfolding_all rfl
  rw [runtimePath_eq_ok, named, trimmed, PathGrammar.names_rt]

theorem Config.runtimePath_of_globalRt {config : Config} (named : config.runtimeCrate = "::rt") :
    config.runtimePath .names = .ok .globalRt := by
  have trimmed : Text.trim "::rt" = "::rt" := by with_unfolding_all rfl
  rw [runtimePath_eq_ok, named, trimmed, PathGrammar.names_global_rt]

end WireProtocol
