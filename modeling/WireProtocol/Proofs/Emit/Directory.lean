import WireProtocol.Emit.Directory

/-!
# Two files one after the other

* `Directory.put`: a directory with a file written into it.
* `Directory.Stored`: both files of a generation are in a directory, and nothing else has changed.
* `Directory.WritesWhole`: either both files are stored, or nothing has changed.
* `Directory.writesWhole_iff`: when that is so, whatever paths the directory refuses.
* `Directory.artifacts_written_in_turn`: what becomes of a directory.
-/

namespace WireProtocol

/-- The two files have different paths. -/
theorem Artifacts.declarationsFile_ne_definitionsFile (a : Artifacts) :
    a.declarationsFile ≠ a.definitionsFile := by
  simp [declarationsFile, definitionsFile]

namespace Directory

/-! ## One file -/

section

variable {dir : Directory} {path other text : String}

/-- The directory with a text at a path. -/
def put (dir : Directory) (path text : String) : Directory :=
  { dir with content? := fun other => if other = path then some text else dir.content? other }

@[simp] theorem content?_put_self : (dir.put path text).content? path = some text :=
  if_pos rfl

theorem content?_put_of_ne (h : other ≠ path) :
    (dir.put path text).content? other = dir.content? other :=
  if_neg h

@[simp] theorem refuses_put : (dir.put path text).refuses = dir.refuses :=
  rfl

/-- A text changes a directory unless it is there already. -/
theorem put_eq_self_iff : dir.put path text = dir ↔ dir.content? path = some text := by
  constructor
  · intro same
    have there : (dir.put path text).content? path = some text := content?_put_self
    rwa [same] at there
  · intro there
    have same : (dir.put path text).content? = dir.content? := by
      funext other
      by_cases h : other = path
      · rw [h, content?_put_self, there]
      · exact content?_put_of_ne h
    exact congrArg (Directory.mk · dir.refuses) same

theorem write_of_refused (h : dir.refuses path = true) : dir.write path text = none :=
  if_pos h

theorem write_of_not_refused (h : ¬ dir.refuses path = true) :
    dir.write path text = some (dir.put path text) :=
  if_neg h

end

/-! ## The files of a generation -/

variable {dir after : Directory} {a : Artifacts} {paths : String × String}

theorem writeArtifacts_of_first_refused (h : dir.refuses a.declarationsFile = true) :
    dir.writeArtifacts a = (.error .io, dir) := by
  rw [writeArtifacts, write_of_refused h]

theorem writeArtifacts_of_second_refused (h : ¬ dir.refuses a.declarationsFile = true)
    (h' : dir.refuses a.definitionsFile = true) :
    dir.writeArtifacts a = (.error .io, dir.put a.declarationsFile a.declarations) := by
  have second : (dir.put a.declarationsFile a.declarations).refuses a.definitionsFile = true := by
    rwa [refuses_put]
  rw [writeArtifacts, write_of_not_refused h]
  dsimp only
  rw [write_of_refused second]

theorem writeArtifacts_of_not_refused (h : ¬ dir.refuses a.declarationsFile = true)
    (h' : ¬ dir.refuses a.definitionsFile = true) :
    dir.writeArtifacts a = (.ok (a.declarationsFile, a.definitionsFile),
      (dir.put a.declarationsFile a.declarations).put a.definitionsFile a.definitions) := by
  have second : ¬ (dir.put a.declarationsFile a.declarations).refuses a.definitionsFile = true := by
    rwa [refuses_put]
  rw [writeArtifacts, write_of_not_refused h]
  dsimp only
  rw [write_of_not_refused second]

/-- Both files are at their paths, and all others are as before. -/
structure Stored (dir : Directory) (a : Artifacts) (paths : String × String) (after : Directory) :
    Prop where
  paths_eq : paths = (a.declarationsFile, a.definitionsFile)
  declarations : after.content? paths.1 = some a.declarations
  definitions : after.content? paths.2 = some a.definitions
  others : ∀ path, path ≠ paths.1 → path ≠ paths.2 → after.content? path = dir.content? path

/-- The files of a generation are both stored, or the directory stays as it is. -/
structure WritesWhole (dir : Directory) (a : Artifacts) : Prop where
  stored : ∀ paths after, dir.writeArtifacts a = (.ok paths, after) → dir.Stored a paths after
  unchanged : ∀ e after, dir.writeArtifacts a = (.error e, after) → after = dir

theorem stored_of_ok (h : dir.writeArtifacts a = (.ok paths, after)) : dir.Stored a paths after := by
  by_cases first : dir.refuses a.declarationsFile = true
  · cases (writeArtifacts_of_first_refused first).symm.trans h
  by_cases second : dir.refuses a.definitionsFile = true
  · cases (writeArtifacts_of_second_refused first second).symm.trans h
  cases (writeArtifacts_of_not_refused first second).symm.trans h
  refine ⟨rfl, ?_, content?_put_self, fun path other other' => ?_⟩
  · rw [content?_put_of_ne a.declarationsFile_ne_definitionsFile, content?_put_self]
  · rw [content?_put_of_ne other', content?_put_of_ne other]

/-- An error leaves the directory as it is, or with the declarations in it. -/
theorem cases_of_error {e : GenerateError} (h : dir.writeArtifacts a = (.error e, after)) :
    e = .io ∧ (dir.refuses a.declarationsFile = true ∧ after = dir ∨
      ¬ dir.refuses a.declarationsFile = true ∧ dir.refuses a.definitionsFile = true ∧
        after = dir.put a.declarationsFile a.declarations) := by
  by_cases first : dir.refuses a.declarationsFile = true
  · cases (writeArtifacts_of_first_refused first).symm.trans h
    exact ⟨rfl, .inl ⟨first, rfl⟩⟩
  by_cases second : dir.refuses a.definitionsFile = true
  · cases (writeArtifacts_of_second_refused first second).symm.trans h
    exact ⟨rfl, .inr ⟨first, second, rfl⟩⟩
  · cases (writeArtifacts_of_not_refused first second).symm.trans h

/-- The files are written as a whole unless the definitions are refused behind declarations that were not
there before. -/
theorem writesWhole_iff (dir : Directory) (a : Artifacts) : dir.WritesWhole a ↔
    (dir.refuses a.definitionsFile = true → dir.refuses a.declarationsFile = true ∨
      dir.content? a.declarationsFile = some a.declarations) := by
  constructor
  · intro whole second
    by_cases first : dir.refuses a.declarationsFile = true
    · exact .inl first
    · exact .inr (put_eq_self_iff.mp
        (whole.unchanged _ _ (writeArtifacts_of_second_refused first second)))
  · intro kept
    refine ⟨fun _ _ => stored_of_ok, fun e after failed => ?_⟩
    obtain ⟨-, ⟨-, same⟩ | ⟨first, second, rfl⟩⟩ := cases_of_error failed
    · exact same
    · exact put_eq_self_iff.mpr ((kept second).resolve_left first)

/-- Whatever a directory holds and refuses: without an error both files are stored, and an error changes
the declarations at most. It does change them when the definitions alone are refused, unless the
declarations were there before. -/
theorem artifacts_written_in_turn (dir : Directory) (a : Artifacts) :
    (∀ paths after, dir.writeArtifacts a = (.ok paths, after) → dir.Stored a paths after) ∧
    (∀ e after, dir.writeArtifacts a = (.error e, after) → e = .io ∧
      ∀ path, path ≠ a.declarationsFile → after.content? path = dir.content? path) ∧
    (dir.WritesWhole a ↔ (dir.refuses a.definitionsFile = true →
      dir.refuses a.declarationsFile = true ∨
        dir.content? a.declarationsFile = some a.declarations)) := by
  refine ⟨fun _ _ => stored_of_ok, fun e after failed => ?_, writesWhole_iff dir a⟩
  obtain ⟨io, ⟨-, rfl⟩ | ⟨-, -, rfl⟩⟩ := cases_of_error failed
  · exact ⟨io, fun _ _ => rfl⟩
  · exact ⟨io, fun _ other => content?_put_of_ne other⟩

end Directory

namespace OccupiedPath

/-- An empty directory but for another one, in the place of a file of definitions. -/
def directory : Directory where
  content? _ := none
  refuses path := path == "a_0_9_1_defs.rs"

def artifacts (name : String) : Artifacts :=
  ⟨name, "pub const PROTOCOL_PORT : u16 = 5672u16 ;", "pub fn version ()"⟩

/-- Files of another name are both stored there. -/
theorem other_files_are_stored : ∃ after,
    directory.writeArtifacts (artifacts "b_0_9_1") =
      (.ok ("b_0_9_1_decls.rs", "b_0_9_1_defs.rs"), after) ∧
    directory.Stored (artifacts "b_0_9_1") ("b_0_9_1_decls.rs", "b_0_9_1_defs.rs") after ∧
    directory.WritesWhole (artifacts "b_0_9_1") := by
  obtain ⟨stored, -, whole⟩ := Directory.artifacts_written_in_turn directory (artifacts "b_0_9_1")
  have first : ¬ directory.refuses (artifacts "b_0_9_1").declarationsFile = true := by decide
  have second : ¬ directory.refuses (artifacts "b_0_9_1").definitionsFile = true := by decide
  have written := Directory.writeArtifacts_of_not_refused first second
  exact ⟨_, written, stored _ _ written, whole.mpr fun refused => (second refused).elim⟩

/-- Where the definitions cannot be written, the error leaves the declarations behind. -/
theorem declarations_are_left_behind : ∃ after,
    directory.writeArtifacts (artifacts "a_0_9_1") = (.error .io, after) ∧
    directory.content? "a_0_9_1_decls.rs" = none ∧
    after.content? "a_0_9_1_decls.rs" = some (artifacts "a_0_9_1").declarations ∧
    ¬ directory.WritesWhole (artifacts "a_0_9_1") := by
  have first : ¬ directory.refuses (artifacts "a_0_9_1").declarationsFile = true := by decide
  have second : directory.refuses (artifacts "a_0_9_1").definitionsFile = true := by decide
  have written := Directory.writeArtifacts_of_second_refused first second
  refine ⟨_, written, rfl, rfl, fun whole => ?_⟩
  have same := whole.unchanged _ _ written
  cases Directory.put_eq_self_iff.mp same

end OccupiedPath

end WireProtocol
