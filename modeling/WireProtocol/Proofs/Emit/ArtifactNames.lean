import Mathlib.Data.List.Basic
import WireProtocol.Emit.Generate
import WireProtocol.Proofs.Emit.Directory

/-!
# Names of artifacts

* `Version.parts`, `Version.toList_artifactName`: the name of the code for a version ends with the numbers
  that the version reports.
* `Version.artifactName_inj`: under one stem, a name can be read back.
* `Version.reported_eq_iff`: which versions report the same triple.
* `Artifacts.files`, `Artifacts.disjoint_files_iff`: two generations share a file exactly when their
  artifacts have one name.
* `artifact_names_identify_versions`: names, reported triples and files.
-/

namespace WireProtocol

namespace Version

/-- The numbers of a version that stand in a name: a revision of zero does not. -/
def parts (v : Version) : List Nat :=
  v.major.toNat :: v.minor.toNat :: if v.revision = 0 then [] else [v.revision.toNat]

/-- The numbers in front of each other, with underscores in between. -/
def joined (parts : List Nat) : List Char :=
  ['_'].intercalate (parts.map (Nat.toDigits 10))

theorem parts_ne_nil (v : Version) : v.parts ≠ [] :=
  List.cons_ne_nil _ _

theorem parts_inj {v w : Version} : v.parts = w.parts ↔ v = w := by
  refine ⟨fun same => ?_, congrArg parts⟩
  obtain ⟨major, minor, revision⟩ := v
  obtain ⟨major', minor', revision'⟩ := w
  simp only [parts, List.cons.injEq, UInt8.toNat_inj] at same
  obtain ⟨rfl, rfl, same⟩ := same
  -- A revision that is left out is zero, and one that is there is not.
  split at same <;> split at same <;> simp_all [UInt8.toNat_inj]

/-- Where no number is missing, the numbers can be told from each other. -/
theorem joined_inj {ns ms : List Nat} (some_ns : ns ≠ []) (some_ms : ms ≠ []) :
    joined ns = joined ms ↔ ns = ms := by
  have split {ns : List Nat} (h : ns ≠ []) :
      (joined ns).splitOn '_' = ns.map (Nat.toDigits 10) := by
    refine List.splitOn_intercalate _ (fun digits listed => ?_) (by simpa using h)
    obtain ⟨n, -, rfl⟩ := List.mem_map.mp listed
    exact Nat.underscore_not_in_toDigits
  have digits : Function.Injective (Nat.toDigits 10) :=
    Function.LeftInverse.injective fun _ => Nat.ofDigitChars_ten_toDigits
  refine ⟨fun same => ?_, congrArg joined⟩
  rw [← List.map_injective_iff.mpr digits |>.eq_iff, ← split some_ns, ← split some_ms, same]

/-- The name of the code for a version ends with the numbers that the version reports. -/
theorem toList_artifactName (stem : String) (v : Version) :
    (v.artifactName stem).toList = stem.toList ++ '_' :: joined v.reported.parts := by
  have digits (n : UInt8) : (toString n).toList = Nat.toDigits 10 n.toNat := by
    rw [show toString n = toString n.toNat from rfl, Nat.toString_eq_ofList_toDigits,
      String.toList_ofList]
  have same (text : String) : toString text = text := rfl
  rw [artifactName, parts, joined]
  split <;> simp [List.intercalate, *]

/-- A name belongs to one reported triple. -/
theorem artifactName_inj {stem : String} {v w : Version} :
    v.artifactName stem = w.artifactName stem ↔ v.reported = w.reported := by
  rw [← String.toList_inj, toList_artifactName, toList_artifactName, List.append_cancel_left_eq,
    List.cons_inj_right, joined_inj (parts_ne_nil _) (parts_ne_nil _), parts_inj]

theorem reported_eq_self {v : Version} (h : v ≠ ⟨8, 0, 0⟩) : v.reported = v :=
  if_neg h

/-- Two versions report the same triple only if they are the same, or one is 8.0.0 and the other one
0.8.0. -/
theorem reported_eq_iff {v w : Version} : v.reported = w.reported ↔
    v = w ∨ v = ⟨8, 0, 0⟩ ∧ w = ⟨0, 8, 0⟩ ∨ v = ⟨0, 8, 0⟩ ∧ w = ⟨8, 0, 0⟩ := by
  by_cases first : v = ⟨8, 0, 0⟩ <;> by_cases second : w = ⟨8, 0, 0⟩
  · simp [first, second]
  · rw [reported_eq_self second]
    simp [reported, first, second, eq_comm]
  · rw [reported_eq_self first]
    simp [reported, first, second]
  · rw [reported_eq_self first, reported_eq_self second]
    simp [first, second]

end Version

namespace Artifacts

/-- The names of both files. -/
def files (a : Artifacts) : List String :=
  [a.declarationsFile, a.definitionsFile]

/-- What declares and what defines never has one name: the characters of the last step differ. -/
theorem declarationsFile_ne (a b : Artifacts) : a.declarationsFile ≠ b.definitionsFile := by
  intro same
  have ends := congrArg (fun name : String => name.toList.reverse.take 5) same
  simp [declarationsFile, definitionsFile] at ends

/-- A file is shared only under one name. -/
theorem disjoint_files_iff {a b : Artifacts} : a.files.Disjoint b.files ↔ a.name ≠ b.name := by
  have declarations : a.declarationsFile = b.declarationsFile ↔ a.name = b.name := by
    simp [declarationsFile]
  have definitions : a.definitionsFile = b.definitionsFile ↔ a.name = b.name := by
    simp [definitionsFile]
  simp [files, List.disjoint_left, a.declarationsFile_ne b, (b.declarationsFile_ne a).symm, declarations,
    definitions]

end Artifacts

/-- Whatever stands in front: two versions have one name exactly when they report the same triple, which
8.0.0 and 0.8.0 do, and no other two. Whatever the names: declarations never get into a file of
definitions, and two generations have a file in common exactly when they have one name. -/
theorem artifact_names_identify_versions (stem : String) (v w : Version) (a b : Artifacts) :
    (v.artifactName stem = w.artifactName stem ↔ v.reported = w.reported) ∧
    (v.reported = w.reported ↔
      v = w ∨ v = ⟨8, 0, 0⟩ ∧ w = ⟨0, 8, 0⟩ ∨ v = ⟨0, 8, 0⟩ ∧ w = ⟨8, 0, 0⟩) ∧
    a.declarationsFile ≠ b.definitionsFile ∧
    (a.files.Disjoint b.files ↔ a.name ≠ b.name) :=
  ⟨Version.artifactName_inj, Version.reported_eq_iff, a.declarationsFile_ne b,
    Artifacts.disjoint_files_iff⟩

end WireProtocol
