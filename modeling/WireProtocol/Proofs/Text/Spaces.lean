import Mathlib.Data.String.Basic

/-!
# Texts between spaces

* `String.splitOn_space`: a text is split at its spaces as the list of its characters is.
-/

namespace String

/-- The search for the next space goes on in `r`, behind a finished part `l` and the characters `m` of the
part that has begun. -/
theorem splitOnAux_space (l m r : List Char) (parts : List String) :
    splitOnAux (ofList (l ++ m ++ r)) " " ⟨utf8Len l⟩ ⟨utf8Len l + utf8Len m⟩ 0 parts =
      parts.reverse ++ (List.splitOnPPrepend (· == ' ') r m.reverse).map ofList := by
  have first : Pos.Raw.get " " 0 = ' ' := by decide +kernel
  have second : Pos.Raw.next " " 0 = ⟨1⟩ := by decide +kernel
  have ended : Pos.Raw.atEnd " " ⟨1⟩ = true := by decide +kernel
  induction r generalizing l m parts with
  | nil =>
    have finished := (atEnd_of_valid (l ++ m) []).mpr rfl
    have part := extract_of_valid l m []
    rw [utf8Len_append, List.append_nil] at finished
    rw [List.append_nil] at part
    rw [splitOnAux, List.append_nil, if_pos finished, part, List.splitOnPPrepend]
    simp
  | cons c r ih =>
    have unfinished : ¬ Pos.Raw.atEnd (ofList (l ++ m ++ c :: r)) ⟨utf8Len l + utf8Len m⟩ = true := by
      rw [← utf8Len_append, atEnd_of_valid]
      exact List.cons_ne_nil c r
    have here : Pos.Raw.get (ofList (l ++ m ++ c :: r)) ⟨utf8Len l + utf8Len m⟩ = c := by
      rw [← utf8Len_append, get_of_valid]
      rfl
    have next := next_of_valid (l ++ m) c r
    rw [utf8Len_append] at next
    rw [splitOnAux, if_neg unfinished, first, second, here, List.splitOnPPrepend_cons_eq_if]
    by_cases space : c = ' '
    · subst space
      have part := extract_of_valid l m (' ' :: r)
      have behind : (⟨utf8Len l + utf8Len m + ' '.utf8Size⟩ : Pos.Raw).unoffsetBy ⟨1⟩ =
          ⟨utf8Len l + utf8Len m⟩ := rfl
      have rest := ih (l ++ m ++ [' ']) [] (ofList m :: parts)
      rw [if_pos (beq_self_eq_true ' '), if_pos (beq_self_eq_true ' '), if_pos ended, next, behind, part]
      simpa [Nat.add_assoc] using rest
    · have other : ¬ (c == ' ') = true := by rwa [beq_iff_eq]
      have stay : (⟨utf8Len l + utf8Len m⟩ : Pos.Raw).unoffsetBy 0 = ⟨utf8Len l + utf8Len m⟩ := rfl
      have rest := ih l (m ++ [c]) parts
      rw [if_neg other, if_neg other, stay, next]
      simpa [Nat.add_assoc] using rest

/-- A text is split at its spaces as the list of its characters is. -/
theorem splitOn_space (t : String) :
    t.splitOn " " = (t.toList.splitOn ' ').map ofList := by
  have whole := splitOnAux_space [] [] t.toList []
  rw [splitOn, if_neg (by decide)]
  simpa [List.splitOn] using whole

end String
