import WireProtocol.Description.Naming
import WireProtocol.ErrorClass
import WireProtocol.Proofs.Text.Letters

/-!
# Tags of constants

* `ErrorClass.Spells`: the tags that constants may carry, and the classes that they spell.
* `ErrorClass.map_foldTagChar_eq_iff`: two words of a tag may be joined in three ways.
* `ErrorClass.ofTag?_eq_some_iff`: what is made of a tag is the class that it spells.
-/

namespace WireProtocol

/-- The texts differ at most in the case of ASCII letters. -/
def SameButCase (s t : String) : Prop :=
  s.toList.map Char.toUpper = t.toList.map Char.toUpper

namespace ErrorClass

open Naming (joinWords)

/-- What may stand between the words of a tag. -/
def joints : List String :=
  ["-", " ", "_"]

/-- The tag spells the class. -/
inductive Spells : String → ErrorClass → Prop
  | none : Spells "" .none
  | soft {tag joint : String} (allowed : joint ∈ joints)
    (same : SameButCase tag ("soft" ++ joint ++ "error")) : Spells tag .soft
  | hard {tag joint : String} (allowed : joint ∈ joints)
    (same : SameButCase tag ("hard" ++ joint ++ "error")) : Spells tag .hard

/-- Cases and joints are told apart by different characters. -/
theorem foldTagChar_eq (c : Char) : foldTagChar c = joinWords c.toUpper := by
  have joint : (c.toUpper = '-' ∨ c.toUpper = ' ') ↔ (c = '-' ∨ c = ' ') :=
    or_congr (toUpper_eq_iff (by decide)) (toUpper_eq_iff (by decide))
  rw [foldTagChar, joinWords]
  simp only [joint]

theorem joinWords_eq_underscore {c : Char} : joinWords c = '_' ↔ c ∈ ['-', ' ', '_'] := by
  unfold joinWords
  by_cases joint : c = '-' ∨ c = ' '
  · rw [if_pos joint]
    refine iff_of_true rfl ?_
    rcases joint with rfl | rfl <;> decide
  · rw [if_neg joint, List.mem_cons, List.mem_cons, List.mem_singleton, ← or_assoc, or_iff_right joint]

/-- Words without joints are left alone. -/
theorem map_joinWords_eq_iff {letters word : List Char} (plain : ∀ c ∈ word, c ∉ ['-', ' ', '_']) :
    letters.map joinWords = word ↔ letters = word := by
  have alone {c : Char} (h : c ∉ ['-', ' ', '_']) : joinWords c = c := by
    rw [joinWords, if_neg]
    rintro (rfl | rfl) <;> exact h (by decide)
  induction letters generalizing word with
  | nil => rw [List.map_nil]
  | cons letter letters ih =>
    cases word with
    | nil => exact iff_of_false nofun nofun
    | cons c word =>
      rw [List.forall_mem_cons] at plain
      have rest : letters.map joinWords = word ↔ letters = word := ih plain.2
      rw [List.map_cons, List.cons.injEq, List.cons.injEq, rest]
      refine and_congr_left fun _ => ⟨fun same => ?_, fun same => by rw [same, alone plain.1]⟩
      -- A character that has been changed is an underscore now.
      by_cases joint : letter ∈ ['-', ' ', '_']
      · rw [joinWords_eq_underscore.mpr joint] at same
        exact (plain.1 (same ▸ by decide)).elim
      · rwa [alone joint] at same

/-- Two words are found behind one another exactly when they are joined in one of the allowed ways. -/
theorem map_foldTagChar_eq_iff {tag : String} {first second : List Char}
    (plain : ∀ c ∈ first ++ second, c ∉ ['-', ' ', '_']) :
    tag.toList.map foldTagChar = first ++ '_' :: second ↔
      ∃ c ∈ ['-', ' ', '_'], tag.toList.map Char.toUpper = first ++ c :: second := by
  rw [List.forall_mem_append] at plain
  have folded : tag.toList.map foldTagChar = (tag.toList.map Char.toUpper).map joinWords := by
    rw [List.map_map]
    exact List.map_congr_left fun c _ => foldTagChar_eq c
  rw [folded, List.map_eq_append_iff]
  constructor
  · rintro ⟨front, back, parts, front_eq, back_eq⟩
    obtain ⟨c, rest, rfl, joint, rest_eq⟩ := List.map_eq_cons_iff.mp back_eq
    rw [map_joinWords_eq_iff plain.1] at front_eq
    rw [map_joinWords_eq_iff plain.2] at rest_eq
    exact ⟨c, joinWords_eq_underscore.mp joint, by rw [parts, front_eq, rest_eq]⟩
  · rintro ⟨c, joint, parts⟩
    refine ⟨first, c :: second, parts, (map_joinWords_eq_iff plain.1).mpr rfl, ?_⟩
    rw [List.map_cons, joinWords_eq_underscore.mpr joint, (map_joinWords_eq_iff plain.2).mpr rfl]

theorem ofTag?_eq_some_iff {tag : String} {errorClass : ErrorClass} :
    ofTag? tag = some errorClass ↔ Spells tag errorClass := by
  have soft : tag.toList.map foldTagChar = "SOFT_ERROR".toList ↔
      ∃ joint ∈ joints, SameButCase tag ("soft" ++ joint ++ "error") := by
    have words := @map_foldTagChar_eq_iff tag "SOFT".toList "ERROR".toList (by simp)
    simpa [joints, SameButCase] using words
  have hard : tag.toList.map foldTagChar = "HARD_ERROR".toList ↔
      ∃ joint ∈ joints, SameButCase tag ("hard" ++ joint ++ "error") := by
    have words := @map_foldTagChar_eq_iff tag "HARD".toList "ERROR".toList (by simp)
    simpa [joints, SameButCase] using words
  rw [ofTag?]
  constructor
  · intro found
    split at found
    · next empty =>
      cases found
      have plain : tag = "" := by simpa using empty
      rw [plain]
      exact .none
    · split at found
      · next spelled =>
        cases found
        obtain ⟨joint, allowed, same⟩ := soft.mp spelled
        exact .soft allowed same
      · split at found
        · next spelled =>
          cases found
          obtain ⟨joint, allowed, same⟩ := hard.mp spelled
          exact .hard allowed same
        · cases found
  · intro spelled
    cases spelled with
    | none => rfl
    | soft allowed same =>
      rw [soft.mpr ⟨_, allowed, same⟩]
      rfl
    | hard allowed same =>
      rw [hard.mpr ⟨_, allowed, same⟩]
      rfl

theorem ofTag?_eq_none_iff {tag : String} :
    ofTag? tag = Option.none ↔ ∀ errorClass, ¬ Spells tag errorClass := by
  simp only [← ofTag?_eq_some_iff, Option.eq_none_iff_forall_ne_some, ne_eq]

end ErrorClass

end WireProtocol
