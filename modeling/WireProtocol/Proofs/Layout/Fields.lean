import WireProtocol.Layout.Fields
import WireProtocol.Proofs.Outcome

/-!
# Types of fields

* `Description.classify_eq_ok`: fields are classified when all of their domains resolve, each with the
  type of its own domain.
* `Description.exists_classify_eq_ok`, `Description.classify_of_unresolved`: otherwise the first domain
  that does not resolve is reported as it was written.
* `FieldList.index_of_append`: fields that follow one another are numbered without a gap.
-/

namespace WireProtocol

namespace Description

variable {d : Description} {fields : FieldList} {arguments : List (Field × WireType)}

/-- Fields are classified when all of their domains resolve, each with the type of its own domain. -/
theorem classify_eq_ok :
    d.classify fields = .ok arguments ↔
      arguments.map (·.1) = fields.toList ∧
        ∀ argument ∈ arguments, d.fieldType argument.1 = .ok argument.2 := by
  unfold classify
  generalize fields.toList = fields
  induction fields generalizing arguments with
  | nil =>
    rw [List.mapM_nil, List.map_eq_nil_iff]
    constructor
    · intro h
      cases h
      exact ⟨rfl, nofun⟩
    · rintro ⟨rfl, -⟩
      rfl
  | cons field fields ih =>
    rw [List.mapM_cons, Except.bind_eq_ok]
    constructor
    · rintro ⟨argument, first, rest⟩
      obtain ⟨ty, resolved, same⟩ := Except.bind_eq_ok.mp first
      obtain ⟨others, classified, all⟩ := Except.bind_eq_ok.mp rest
      cases same
      cases all
      obtain ⟨names, types⟩ := ih.mp classified
      rw [List.map_cons, names, List.forall_mem_cons]
      exact ⟨rfl, resolved, types⟩
    · rintro ⟨names, types⟩
      cases arguments with
      | nil => cases names
      | cons argument others =>
        obtain ⟨rfl, rest⟩ := List.cons.inj names
        rw [List.forall_mem_cons] at types
        refine ⟨argument, ?_, Except.bind_eq_ok.mpr ⟨others, ih.mpr ⟨rest, types.2⟩, rfl⟩⟩
        exact Except.bind_eq_ok.mpr ⟨argument.2, types.1, rfl⟩

/-- The wire type of the field is known. -/
def Resolves (d : Description) (field : Field) : Prop :=
  ∃ ty, d.fieldType field = .ok ty

theorem fieldType_of_unresolved {field : Field} (unresolved : ¬ d.Resolves field) :
    d.fieldType field = .error (.unknownDomain field.domain) := by
  unfold Resolves fieldType resolve at *
  split at unresolved
  · exact (unresolved ⟨_, rfl⟩).elim
  · rfl

theorem exists_classify_eq_ok :
    (∃ arguments, d.classify fields = .ok arguments) ↔
      ∀ field ∈ fields.toList, d.Resolves field := by
  unfold classify
  rw [Except.exists_mapM_eq_ok]
  refine forall₂_congr fun field _ => ?_
  constructor
  · rintro ⟨argument, classified⟩
    obtain ⟨ty, resolved, -⟩ := Except.bind_eq_ok.mp classified
    exact ⟨ty, resolved⟩
  · rintro ⟨ty, resolved⟩
    exact ⟨(field, ty), Except.bind_eq_ok.mpr ⟨ty, resolved, rfl⟩⟩

/-- The first domain that does not resolve is reported as it was written. -/
theorem classify_of_unresolved {before after : List Field} {field : Field}
    (parts : fields.toList = before ++ field :: after)
    (resolved : ∀ earlier ∈ before, d.Resolves earlier) (unresolved : ¬ d.Resolves field) :
    d.classify fields = .error (.unknownDomain field.domain) := by
  rw [classify, parts]
  refine Except.mapM_of_error (fun earlier member => ?_) ?_
  · obtain ⟨ty, known⟩ := resolved earlier member
    exact ⟨(earlier, ty), Except.bind_eq_ok.mpr ⟨ty, known, rfl⟩⟩
  · rw [fieldType_of_unresolved unresolved]
    rfl

/-- There are as many types as there are fields. -/
theorem length_of_classify (h : d.classify fields = .ok arguments) :
    arguments.length = fields.length := by
  rw [FieldList.length, ← (classify_eq_ok.mp h).1, List.length_map]

end Description

/-- Fields that follow one another are numbered without a gap. -/
theorem FieldList.index_of_append {fields : FieldList} {before part after : List Field}
    (parts : fields.toList = before ++ part ++ after) (j : Nat) (inside : j < part.length) :
    part[j].index = before.length + j := by
  have here : fields.toList[before.length + j]? = some part[j] := by
    rw [parts, List.append_assoc, List.getElem?_append_right (Nat.le_add_right _ j),
      Nat.add_sub_cancel_left, List.getElem?_append_left inside, List.getElem?_eq_getElem inside]
  exact FieldList.index_of_getElem? here

end WireProtocol
