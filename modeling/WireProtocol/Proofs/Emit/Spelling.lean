import Mathlib.Data.List.Nodup
import WireProtocol.Proofs.Emit.Entities
import WireProtocol.Proofs.Text.Letters

/-!
# Spellings

* `Words.underscore_not_mem_pascal`: the words of a name, written together, have no underscores.
* `Naming.fieldName_joinParts`: the parts of a name are spelled one by one.
* `Naming.fieldName_constantName`: constants that are spelled alike are so in small letters, too.
* `Ident.eq_or_of_settle_eq`: which spellings become the same name.
-/

namespace WireProtocol

/-! ## Letters -/

theorem Naming.toNat_joinWords (c : Char) :
    (joinWords c).toNat = if c.toNat = 45 ∨ c.toNat = 32 then 95 else c.toNat := by
  have separator : (c = '-' ∨ c = ' ') ↔ c.toNat = 45 ∨ c.toNat = 32 := by
    rw [← Char.toNat_inj, ← Char.toNat_inj]
    rfl
  unfold joinWords
  by_cases h : c = '-' ∨ c = ' '
  · rw [if_pos h, if_pos (separator.mp h)]
    rfl
  · rw [if_neg h, if_neg (fun h' => h (separator.mpr h'))]

namespace Words

theorem mem_flush {part word : List Char} {words : List (List Char)} (h : part ∈ flush word words) :
    part = word ∨ part ∈ words := by
  unfold flush at h
  split at h
  · exact .inr h
  · exact List.mem_cons.mp h

/-- The letters of the words of a name are no separators. -/
theorem role_of_mem_splitFrom (word name : List Char) :
    ∀ part ∈ splitFrom word name, ∀ c ∈ part, c ∈ word ∨ role c ≠ .separator := by
  have closed {word : List Char} {a : Char} (other : ¬ role a = .separator) :
      ∀ c ∈ word ++ [a], c ∈ word ∨ role c ≠ .separator := by
    intro c member
    rcases List.mem_append.mp member with own | last
    · exact .inl own
    · exact .inr (List.mem_singleton.mp last ▸ other)
  fun_induction splitFrom word name with
  | case1 word =>
    intro part listed c member
    rcases mem_flush listed with rfl | none
    · exact .inl member
    · cases none
  | case2 word a rest separator ih =>
    intro part listed c member
    rcases mem_flush listed with rfl | later
    · exact .inl member
    · exact .inr ((ih part later c member).resolve_left List.not_mem_nil)
  | case3 word a other =>
    intro part listed
    cases List.mem_singleton.mp listed
    exact closed other
  | case4 word a other b after boundary ih =>
    intro part listed
    rcases List.mem_cons.mp listed with rfl | later
    · exact closed other
    · intro c member
      exact .inr ((ih part later c member).resolve_left List.not_mem_nil)
  | case5 word a other b after boundary ih =>
    intro part listed c member
    rcases ih part listed c member with own | role
    · exact closed other c own
    · exact .inr role

theorem underscore_not_mem_toUpper {c : Char} (h : c ≠ '_') : '_' ∉ toUpper c := by
  have none : ∀ entry ∈ capitals, '_' ∉ entry.2.toList := by decide
  unfold toUpper
  split
  · rename_i letters found
    obtain ⟨before, after, parts, -⟩ := List.lookup_eq_some_iff.mp found
    exact none (c, letters) (by simp [parts])
  · rw [List.mem_singleton, ← Char.toNat_inj, toNat_toUpper]
    rw [ne_eq, ← Char.toNat_inj] at h
    change ¬ 95 = _
    change ¬ _ = 95 at h
    grind

theorem toLower_ne_underscore {c : Char} (h : c ≠ '_') : toLower c ≠ '_' := by
  unfold toLower
  split
  · decide
  · rw [ne_eq, ← Char.toNat_inj] at h ⊢
    rw [toNat_toLower]
    change ¬ _ = 95 at h
    change ¬ _ = 95
    grind

theorem underscore_not_mem_capitalize {word : List Char} (h : '_' ∉ word) :
    '_' ∉ capitalize word := by
  cases word with
  | nil => exact List.not_mem_nil
  | cons c rest =>
    rw [List.mem_cons, not_or] at h
    rw [capitalize, List.mem_append, not_or]
    refine ⟨underscore_not_mem_toUpper (Ne.symm h.1), ?_⟩
    rw [List.mem_map]
    rintro ⟨c', member, same⟩
    exact toLower_ne_underscore (fun eq => h.2 (eq ▸ member)) same

/-- The name of a type has no underscores of its own. -/
theorem underscore_not_mem_pascal (name : String) : '_' ∉ (pascal name).toList := by
  rw [pascal, String.toList_ofList, List.mem_flatMap]
  rintro ⟨word, listed, member⟩
  refine underscore_not_mem_capitalize (fun own => ?_) member
  rcases role_of_mem_splitFrom [] name.toList word listed '_' own with outside | role
  · exact List.not_mem_nil outside
  · exact role (by decide)

end Words

namespace Naming

theorem joinWords_toLower_joinWords_toUpper (c : Char) :
    joinWords (joinWords c.toUpper).toLower = joinWords c.toLower := by
  apply Char.toNat_inj.mp
  simp only [toNat_joinWords, toNat_toLower, toNat_toUpper]
  grind

/-- Constants that are spelled alike in capitals are so in small letters, too. -/
theorem fieldName_constantName (name : String) :
    fieldName (constantName name) = fieldName name := by
  simp only [fieldName, constantName, String.toList_ofList, List.map_map]
  exact congrArg String.ofList
    (List.map_congr_left fun c _ => joinWords_toLower_joinWords_toUpper c)

/-- The parts of a name are spelled one by one. -/
theorem fieldName_append (name other : String) :
    fieldName (name ++ other) = fieldName name ++ fieldName other := by
  simp [fieldName, String.ofList_append]

theorem fieldName_joinParts (name other : String) :
    fieldName (Ident.joinParts [name, other]) = fieldName name ++ "_" ++ fieldName other := by
  have joined : Ident.joinParts [name, other] = name ++ " " ++ other := by
    simp [Ident.joinParts, String.intercalate_cons_cons]
  have space : fieldName " " = "_" := by decide
  rw [joined, fieldName_append, fieldName_append, space]

theorem not_capital_of_mem_fieldName {name : String} {c : Char} (h : c ∈ (fieldName name).toList) :
    ¬ (65 ≤ c.toNat ∧ c.toNat ≤ 90) := by
  rw [fieldName, String.toList_ofList, List.mem_map] at h
  obtain ⟨c', -, rfl⟩ := h
  rw [toNat_joinWords, toNat_toLower]
  grind

theorem not_small_of_mem_constantName {name : String} {c : Char}
    (h : c ∈ (constantName name).toList) : ¬ (97 ≤ c.toNat ∧ c.toNat ≤ 122) := by
  rw [constantName, String.toList_ofList, List.mem_map] at h
  obtain ⟨c', -, rfl⟩ := h
  rw [toNat_joinWords, toNat_toUpper]
  grind

end Naming

/-! ## Names -/

namespace Ident

theorem settle_of_not_mem {spelling : String} (h : spelling ∉ fixedKeywords) :
    settle spelling = spelling := by
  rw [settle, if_neg]
  rwa [List.contains_iff_mem]

theorem settle_of_mem {spelling : String} (h : spelling ∈ fixedKeywords) :
    settle spelling = spelling ++ "_" := by
  rw [settle, if_pos]
  rwa [List.contains_iff_mem]

/-- Two spellings become the same name only if they are the same, or one is a word that takes an
underscore and the other one is that word with its underscore. -/
theorem eq_or_of_settle_eq {spelling other : String} (h : settle spelling = settle other) :
    spelling = other ∨ (spelling ∈ fixedKeywords ∧ other = spelling ++ "_") ∨
      other ∈ fixedKeywords ∧ spelling = other ++ "_" := by
  by_cases fixed : spelling ∈ fixedKeywords
  · by_cases fixed' : other ∈ fixedKeywords
    · rw [settle_of_mem fixed, settle_of_mem fixed'] at h
      left
      simpa using h
    · rw [settle_of_mem fixed, settle_of_not_mem fixed'] at h
      exact .inr (.inl ⟨fixed, h.symm⟩)
  · by_cases fixed' : other ∈ fixedKeywords
    · rw [settle_of_not_mem fixed, settle_of_mem fixed'] at h
      exact .inr (.inr ⟨fixed', h⟩)
    · rw [settle_of_not_mem fixed, settle_of_not_mem fixed'] at h
      exact .inl h

/-- A word in small letters that takes an underscore is one of three. -/
theorem mem_of_fieldName_mem {name : String} (fixed : Naming.fieldName name ∈ fixedKeywords) :
    Naming.fieldName name ∈ ["crate", "self", "super"] := by
  have small : Naming.fieldName name ≠ "Self" := by
    intro same
    have capital : 'S' ∈ (Naming.fieldName name).toList := by
      rw [same]
      decide
    exact Naming.not_capital_of_mem_fieldName capital (by decide)
  simpa [fixedKeywords, small] using fixed

/-- A function for a member of a class is named after what it does and the member. -/
theorem functionName_cons {verb : String} (word : Naming.fieldName verb = verb)
    (name other : String) : functionName [verb, name, other] =
      verb ++ "_" ++ Naming.fieldName (joinParts [name, other]) := by
  have joined : joinParts [verb, name, other] = joinParts [verb, joinParts [name, other]] := by
    simp [joinParts, String.intercalate_cons_cons, String.append_assoc]
  have plain : ∀ word ∈ fixedKeywords, '_' ∉ word.toList := by decide
  rw [functionName, joined, Naming.fieldName_joinParts, word]
  exact settle_of_not_mem fun fixed => plain _ fixed (by simp)

end Ident

end WireProtocol
