import WireProtocol.Proofs.Emit.Clashes

/-!
# Fields of one name

* `Ident.named`, `Ident.ofSpelling_eq_ok`: the identifier of a spelling is that of its name.
* `Naming.Merge`: names that are alike in small letters and with underscores, or that an underscore
  behind a word makes alike.
* `Ident.fieldName_eq_iff`: these are the names that become the same field.
* `Description.records`: the lists of a description, each behind the name of its record.
* `fields_merge_iff`: when identifiers are the same, and when a record of a generation has a field twice.
-/

namespace WireProtocol

/-! ## Identifiers of spellings -/

namespace Ident

/-- The identifier with a name. -/
def named (name : String) : Ident :=
  if keywords.contains name then raw name else plain name

theorem bare_named (name : String) : (named name).bare = name := by
  unfold named
  split <;> rfl

theorem named_inj {name other : String} : named name = named other ↔ name = other := by
  refine ⟨fun same => ?_, fun same => same ▸ rfl⟩
  rw [← bare_named name, same, bare_named]

theorem ofSpelling_eq_ok {spelling source : String} {id : Ident} :
    ofSpelling spelling source = .ok id ↔ isName spelling = true ∧ named (settle spelling) = id := by
  -- A word that has taken its underscore is no keyword.
  have free : ∀ word ∈ fixedKeywords, word ++ "_" ∉ keywords := by decide
  unfold ofSpelling
  by_cases letters : isName spelling = true
  · rw [if_neg (by simp [letters]), and_iff_right letters]
    by_cases fixed : spelling ∈ fixedKeywords
    · rw [if_pos (List.contains_iff_mem.mpr fixed), settle_of_mem fixed, named,
        if_neg (mt List.contains_iff_mem.mp (free _ fixed)), Except.ok.injEq]
    · rw [if_neg (mt List.contains_iff_mem.mp fixed), settle_of_not_mem fixed, named]
      split <;> rw [Except.ok.injEq]
  · simp [letters]

/-- The sign of the raw form is in no name. -/
theorem sign_not_mem_of_isName {spelling : String} (h : isName spelling = true) :
    '#' ∉ spelling.toList := by
  intro member
  unfold isName at h
  split at h
  · cases h
  · next first rest letters =>
    rw [Bool.and_eq_true, List.all_eq_true] at h
    rw [letters] at member
    rcases List.mem_cons.mp member with rfl | behind
    · have sign : ('#'.isAlpha || '#' == '_') = false := by decide
      rw [Bool.or_eq_false_iff] at sign
      simp [sign] at h
    · exact absurd (h.2 _ behind) (by decide)

theorem sign_not_mem_settle {spelling : String} (h : '#' ∉ spelling.toList) :
    '#' ∉ (settle spelling).toList := by
  unfold settle
  split
  · simpa using h
  · exact h

/-- The raw form is not mistaken for a plain name. -/
theorem text_named_inj {name other : String} (h : '#' ∉ name.toList) (h' : '#' ∉ other.toList) :
    (named name).text = (named other).text ↔ name = other := by
  have marked (name : String) : '#' ∈ ("r#" ++ name).toList := by simp
  refine ⟨fun same => ?_, fun same => same ▸ rfl⟩
  unfold named at same
  split at same <;> split at same
  · simpa [text] using same
  · have same : "r#" ++ name = other := same
    exact (h' (same ▸ marked name)).elim
  · have same : name = "r#" ++ other := same
    exact (h (same ▸ marked other)).elim
  · exact same

end Ident

/-! ## Names that become the same field -/

/-- Names are alike in small letters and with underscores, or one of them is so a word that takes an
underscore, and the other one is that word with its underscore. -/
def Naming.Merge (name other : String) : Prop :=
  fieldName name = fieldName other ∨ ∃ word ∈ ["crate", "self", "super"],
    fieldName name = word ∧ fieldName other = word ++ "_" ∨
      fieldName name = word ++ "_" ∧ fieldName other = word
deriving Decidable

namespace Ident

variable {name other : String} {id id' : Ident}

theorem fieldName_eq_iff : fieldName name = fieldName other ↔ Naming.Merge name other := by
  constructor
  · intro same
    rcases eq_or_of_settle_eq same with eq | ⟨fixed, eq⟩ | ⟨fixed, eq⟩
    · exact .inl eq
    · exact .inr ⟨_, mem_of_fieldName_mem fixed, .inl ⟨rfl, eq⟩⟩
    · exact .inr ⟨_, mem_of_fieldName_mem fixed, .inr ⟨eq, rfl⟩⟩
  · have settled : ∀ word ∈ ["crate", "self", "super"], settle word = settle (word ++ "_") := by
      decide
    rintro (eq | ⟨word, listed, ⟨here, there⟩ | ⟨here, there⟩⟩)
    · exact congrArg settle eq
    · rw [fieldName, fieldName, here, there, settled word listed]
    · rw [fieldName, fieldName, here, there, settled word listed]

/-- The identifiers of two fields are the same, and are written alike, when their names merge. -/
theorem ofField_eq_iff (h : ofField name = .ok id) (h' : ofField other = .ok id') :
    (id = id' ↔ Naming.Merge name other) ∧ (id.text = id'.text ↔ Naming.Merge name other) := by
  obtain ⟨letters, rfl⟩ := ofSpelling_eq_ok.mp h
  obtain ⟨letters', rfl⟩ := ofSpelling_eq_ok.mp h'
  have plain := sign_not_mem_settle (sign_not_mem_of_isName letters)
  have plain' := sign_not_mem_settle (sign_not_mem_of_isName letters')
  rw [named_inj, text_named_inj plain plain', ← fieldName_eq_iff]
  exact ⟨Iff.rfl, Iff.rfl⟩

end Ident

/-! ## Fields of records -/

/-- The names of the fields that a list becomes. -/
def FieldList.recordFields (fields : FieldList) : List String :=
  fields.toList.map fun field => Ident.fieldName field.name

/-- The fields of a record differ when no two names of its list merge. -/
theorem FieldList.nodup_recordFields_iff (fields : FieldList) : fields.recordFields.Nodup ↔
    fields.toList.Pairwise fun field other => ¬ Naming.Merge field.name other.name := by
  simp only [recordFields, List.Nodup, List.pairwise_map, ne_eq, Ident.fieldName_eq_iff]

/-- The lists of a class, each behind the name of its record. -/
def Class.records (c : Class) : List (String × FieldList) :=
  c.methods.map (fun m => (Ident.typeName [m.className, m.name], m.arguments)) ++
    [(Ident.typeName [c.name, "properties"], c.properties)]

theorem Class.entities_eq (c : Class) :
    c.entities = c.records.map fun record => .record record.1 record.2.recordFields := by
  rw [records, List.map_append, List.map_map]
  rfl

namespace Description

variable {d : Description}

/-- The lists of a description, each behind the name of its record. -/
def records (d : Description) : List (String × FieldList) :=
  d.classes.flatMap Class.records

/-- Every list of a description has its record. -/
theorem record_mem_entities {record : String × FieldList} (listed : record ∈ d.records) :
    Entity.record record.1 record.2.recordFields ∈ d.entities := by
  obtain ⟨c, declared, own⟩ := List.mem_flatMap.mp listed
  have emitted : Entity.record record.1 record.2.recordFields ∈ d.classes.flatMap Class.entities := by
    refine List.mem_flatMap.mpr ⟨c, declared, ?_⟩
    rw [c.entities_eq]
    exact List.mem_map_of_mem own
  simp [entities, typeEntities_eq, emitted]

end Description

/-- Which names of fields become one. The identifiers of two fields are the same exactly when their names
are alike in small letters and with underscores, or when one is a word that takes an underscore and the
other one has it already. The record of a list has two fields of one name exactly when the list has two
such names. -/
theorem fields_merge_iff (name other : String) (grammar : PathGrammar) (d : Description) (config : Config) :
    (∀ id id', Ident.ofField name = .ok id → Ident.ofField other = .ok id' →
      (id = id' ↔ Naming.Merge name other) ∧ (id.text = id'.text ↔ Naming.Merge name other)) ∧
    ∀ artifacts, (generate grammar d config).1 = .ok artifacts →
      ∃ program path, (Program.ofDescription d).Yields program ∧ config.runtimePath grammar = .ok path ∧
        artifacts = program.artifacts (d.version.artifactName config.artifactStem) d.version path ∧
        ∀ record ∈ d.records, Entity.record record.1 record.2.recordFields ∈ program.entities ∧
          (record.2.recordFields.Nodup ↔ record.2.toList.Pairwise
            fun field other => ¬ Naming.Merge field.name other.name) := by
  refine ⟨fun _ _ => Ident.ofField_eq_iff, fun artifacts generated => ?_⟩
  obtain ⟨program, path, made, found, same⟩ := exists_program generated
  refine ⟨program, path, made, found, same, fun record listed => ?_⟩
  rw [Program.entities_of_yields made]
  exact ⟨Description.record_mem_entities listed, record.2.nodup_recordFields_iff⟩

namespace WordWithUnderscore

def config : Config := ⟨"rt", "framing"⟩

def method (second : String) : Method :=
  ((Method.new 1 "b").withArgument (.new "self" "bit" none)).withArgument (.new second "bit" none)

/-- A method with an argument that is called like a word that takes an underscore, and another one. -/
def description (second : String) : Description :=
  { Description.new ⟨0, 9, 1⟩ 5672 with
    constants := [⟨"internal-error", 541, .hard⟩]
    classes := [(Class.new 1 "a").withMethod (method second)]
    bounded := by simp [Class.withMethod, Class.new, FieldList.empty, FieldList.length] }

theorem exists_artifacts (second : String) (h : second = "type" ∨ second = "self_") :
    ∃ artifacts, (generate .names (description second) config).1 = .ok artifacts := by
  have complete : (generate .names (description second) config).1.isOk = true := by
    unfold generate generateSteps
    rw [Config.runtimePath_of_rt rfl]
    rcases h with rfl | rfl <;> decide +kernel
  exact Except.exists_eq_ok_of_isOk complete

/-- Another word is kept apart: the record has two fields, and their identifiers differ. -/
theorem other_word_stays_apart :
    Ident.plain "self_" ≠ Ident.raw "type" ∧
    ∃ artifacts, (generate .names (description "type") config).1 = .ok artifacts ∧
      ∃ program, (Program.ofDescription (description "type")).Yields program ∧
        Entity.record "AB" ["self_", "type"] ∈ program.entities ∧ ["self_", "type"].Nodup := by
  obtain ⟨names, records⟩ := fields_merge_iff "self" "type" .names (description "type") config
  have differ := (names (.plain "self_") (.raw "type") rfl rfl).1
  obtain ⟨artifacts, generated⟩ := exists_artifacts "type" (.inl rfl)
  obtain ⟨program, path, made, -, -, declared⟩ := records artifacts generated
  have listed : ("AB", (method "type").arguments) ∈ (description "type").records := by
    have spelled : Ident.typeName ["a", "b"] = "AB" := by decide
    exact List.mem_cons.mpr (.inl (congrArg (·, (method "type").arguments) spelled.symm))
  obtain ⟨record, nodup⟩ := declared _ listed
  have apart : (method "type").arguments.toList.Pairwise
      fun field other => ¬ Naming.Merge field.name other.name := by decide
  exact ⟨mt differ.mp (by decide), artifacts, generated, program, made, record, nodup.mpr apart⟩

/-- The word with its underscore and the one without become the same field, twice in a record. -/
theorem word_meets_underscore :
    Naming.fieldName "self" ≠ Naming.fieldName "self_" ∧
    (∃ id, Ident.ofField "self" = .ok id ∧ Ident.ofField "self_" = .ok id) ∧
    ∃ artifacts program path, (generate .names (description "self_") config).1 = .ok artifacts ∧
      (Program.ofDescription (description "self_")).Yields program ∧
      artifacts = program.artifacts "framing_0_9_1" ⟨0, 9, 1⟩ path ∧
      Entity.record "AB" ["self_", "self_"] ∈ program.entities := by
  refine ⟨by decide, ⟨.plain "self_", rfl, rfl⟩, ?_⟩
  obtain ⟨artifacts, generated⟩ := exists_artifacts "self_" (.inr rfl)
  obtain ⟨program, path, made, -, same⟩ := exists_program generated
  refine ⟨artifacts, program, path, generated, made, same, ?_⟩
  rw [Program.entities_of_yields made]
  decide +kernel

end WordWithUnderscore

end WireProtocol
