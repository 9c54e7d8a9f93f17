import WireProtocol.Proofs.Description.Requirements

/-!
# The first requirement that is not met

* `ClassOutline.class_of_toClass`: a class keeps its name and the number of its properties.
* `Description.ofOutline_ends`: an outline is a description, or it is refused with the error of the
  first requirement that is not met.
* `loading_reports_first_violation`: so is a document that has the shape of a description, and every
  other text is malformed.
-/

namespace WireProtocol

open Requirement

/-! ## Steps -/

theorem FieldOutline.toField_ends (f : FieldOutline) :
    f.toField.Ends ((ofField f).findSome? failure?) := by
  rw [ofField, List.findSome?_cons_eq_or, List.findSome?_singleton, failure?, failure?, toField]
  cases f.domainName.or f.typeName with
  | none => exact .error rfl
  | some domain =>
    refine Except.Ends.last ?_ fun _ _ => .value rfl
    rw [checkDefault]
    cases f.default with
    | none => exact .value rfl
    | some value =>
      dsimp only
      cases DefaultValue.ofJson? value with
      | none => exact .error rfl
      | some default => exact .value rfl

theorem ConstantOutline.toConstant_ends (c : ConstantOutline) :
    c.toConstant.Ends (Requirement.tag c).failure? := by
  rw [failure?, toConstant]
  cases ErrorClass.ofTag? c.tag with
  | some errorClass => exact .value rfl
  | none => exact .error rfl

theorem MethodOutline.toMethod_ends (m : MethodOutline) :
    m.toMethod.Ends ((m.arguments.flatMap ofField).findSome? failure?) := by
  rw [List.findSome?_flatMap, toMethod]
  exact Except.Ends.foldlM (fun f _ _ => f.toField_ends.last fun _ _ => .value rfl) _

namespace ClassOutline

theorem toClass_ends (c : ClassOutline) :
    c.toClass.Ends ((c.fields.flatMap ofField).findSome? failure?) := by
  rw [fields, List.flatMap_append, List.flatMap_assoc, List.findSome?_append, List.findSome?_flatMap,
    List.findSome?_flatMap, toClass]
  refine (Except.Ends.foldlM (fun f _ _ => f.toField_ends.last fun _ _ => .value rfl) _).bind
    fun _ _ => ?_
  exact Except.Ends.foldlM (fun m _ _ => m.toMethod_ends.last fun _ _ => .value rfl) _

/-- A class keeps its name and the number of its properties. -/
theorem class_of_toClass {c : ClassOutline} {made : Class} (h : c.toClass = .ok made) :
    made.name = c.name ∧ made.properties.length = c.properties.length := by
  obtain ⟨between, properties, methods⟩ := Except.bind_eq_ok.mp h
  have counted : between.name = c.name ∧ between.properties.length = c.properties.length := by
    refine Except.foldlM_induction (P := fun fields (made : Class) =>
      made.name = c.name ∧ made.properties.length = fields.length) properties ⟨rfl, rfl⟩ ?_
    rintro before f made next ⟨name, count⟩ added
    obtain ⟨field, -, same⟩ := Except.bind_eq_ok.mp added
    cases same
    exact ⟨name, by simp [Class.withProperty, count]⟩
  have kept : made.name = between.name ∧ made.properties = between.properties := by
    refine Except.foldlM_induction (P := fun _ (made : Class) =>
      made.name = between.name ∧ made.properties = between.properties) methods ⟨rfl, rfl⟩ ?_
    rintro before m made next unchanged added
    obtain ⟨method, -, same⟩ := Except.bind_eq_ok.mp added
    cases same
    exact unchanged
  rwa [kept.1, kept.2]

end ClassOutline

namespace Description

theorem withClass_ends (d : Description) {c : ClassOutline} {made : Class}
    (h : c.toClass = .ok made) : (d.withClass made).Ends (count c).failure? := by
  obtain ⟨name, length⟩ := ClassOutline.class_of_toClass h
  rw [failure?, withClass, ← name, ← length]
  split
  · exact .value rfl
  · exact .error rfl

/-- A class is added when its properties and its methods are in order and there are not too many of
the first. -/
theorem addClass_ends (d : Description) (c : ClassOutline) :
    (c.toClass >>= d.withClass).Ends ((ofClass c).findSome? failure?) := by
  rw [ofClass, List.findSome?_append, List.findSome?_singleton]
  exact c.toClass_ends.bind fun made h => d.withClass_ends h

/-- An outline is a description, or it is refused with the error of the first requirement that is not
met. -/
theorem ofOutline_ends (o : Outline) :
    (ofOutline o).Ends (o.requirements.findSome? failure?) := by
  rw [Outline.requirements, List.findSome?_append, List.findSome?_map, List.findSome?_flatMap, ofOutline]
  refine (Except.Ends.foldlM (fun c _ _ => c.toConstant_ends.last fun _ _ => .value rfl) _).bind
    fun _ _ => ?_
  exact Except.Ends.foldlM (fun c _ d => addClass_ends d c) _

theorem ofJson_of_outline {text : String} {o : Outline} (h : outlineOfJson? text = some o) :
    ofJson text = ofOutline o := by
  rw [ofJson, h]

/-- No requirement is a shape. -/
theorem ofOutline_ne_malformed (o : Outline) : ofOutline o ≠ .error .malformed := by
  intro refused
  have ends := ofOutline_ends o
  rw [refused] at ends
  generalize found : o.requirements.findSome? failure? = first at ends
  cases ends with
  | value same => cases same
  | error same =>
    cases same
    obtain ⟨requirement, -, reported⟩ := List.exists_of_findSome?_eq_some found
    cases failure?_eq_some_iff.mp reported

end Description

/-- Every text is malformed that has not the shape of a description. Any other is a description if it
meets all requirements, and else it is refused with the error of the first one that it does not meet.
The requirements on a field are about what its document says. -/
theorem loading_reports_first_violation :
    (∀ text, Description.ofJson text = .error .malformed ↔ Description.outlineOfJson? text = none) ∧
    (∀ text o, Description.outlineOfJson? text = some o →
      ((∃ d, Description.ofJson text = .ok d) ↔ o.Sound) ∧
      ∀ before requirement after e, o.requirements = before ++ requirement :: after →
        (∀ earlier ∈ before, earlier.Holds) → requirement.Violated e →
          Description.ofJson text = .error e) ∧
    ∀ depth tree f, FieldOutline.ofTree? depth tree = some f →
      ∃ name typeName domain default,
        tree.record? FieldOutline.keys = some [name, typeName, domain, default] ∧
          f.Tells typeName domain default := by
  refine ⟨fun text => ?_, fun text o shaped => ?_, fun _ _ _ => FieldOutline.tells⟩
  · cases shaped : Description.outlineOfJson? text with
    | none => exact iff_of_true (by rw [Description.ofJson, shaped]) rfl
    | some o =>
      rw [Description.ofJson_of_outline shaped]
      exact iff_of_false (Description.ofOutline_ne_malformed o) nofun
  · rw [Description.ofJson_of_outline shaped]
    have ends := Description.ofOutline_ends o
    constructor
    · rw [ends.exists_ok_iff_forall, Outline.sound_iff]
      simp only [failure?_eq_none_iff]
    · intro before requirement after e parts passed violated
      rw [parts] at ends
      exact ends.error_of_first (fun earlier inside => failure?_eq_none_iff.mpr (passed earlier inside))
        (failure?_eq_some_iff.mpr violated)

namespace WrittenDescriptions

/-- A description in the shortest form, with a tag in mixed case. -/
def sound : String :=
  r#"[0,9,1,5672,[],[["A",541,"Hard-ERROR"]],[[60,"basic",[],[["persistent","bit",null,true]]]]]"#

def soundOutline : Outline where
  major := 0
  minor := 9
  revision := 1
  port := 5672
  domains := []
  constants := [⟨"A", 541, "Hard-ERROR"⟩]
  classes := [⟨60, "basic", [], [⟨"persistent", some "bit", none, some (.bool true)⟩]⟩]

theorem outlineOfJson?_sound : Description.outlineOfJson? sound = some soundOutline := by
  with_unfolding_all rfl

theorem sound_soundOutline : soundOutline.Sound where
  tags := List.forall_mem_singleton.mpr
    ⟨.hard, ErrorClass.ofTag?_eq_some_iff.mp (by decide +kernel)⟩
  domains := by simp [soundOutline, ClassOutline.fields]
  defaults := by simp [soundOutline, ClassOutline.fields, Json.Value.IsDefault.bool]
  counts := by simp [soundOutline]

/-- A text in which a property has neither a domain nor a default of use, and a constant has a tag that
spells nothing. -/
def unsound : String :=
  r#"[0,9,1,5672,[],[["A",541,"hard error"],["B",403,"softerror"]],
[[60,"basic",[],[["priority",null,null,[]]]]]]"#

def unsoundOutline : Outline where
  major := 0
  minor := 9
  revision := 1
  port := 5672
  domains := []
  constants := [⟨"A", 541, "hard error"⟩, ⟨"B", 403, "softerror"⟩]
  classes := [⟨60, "basic", [], [⟨"priority", none, none, some (.array [])⟩]⟩]

theorem outlineOfJson?_unsound : Description.outlineOfJson? unsound = some unsoundOutline := by
  with_unfolding_all rfl

/-- The document of a field whose domain is null. -/
def nullDomain : Json.Tree :=
  .array [.text (some "persistent"), .text (some "bit"), .null, .bool true]

/-- The tag of the constant is reported, not what is wrong behind it; half a description is no
description; and a domain that is null is none. -/
theorem written_descriptions_load : (∃ d, Description.ofJson sound = .ok d) ∧
    Description.ofJson unsound = .error (.unknownErrorClass "B" "softerror") ∧
    Description.ofJson "[0,9,1,5672,[],[]]" = .error .malformed ∧
    ∃ f, FieldOutline.ofTree? 4 nullDomain = some f ∧ f.domainName = none := by
  obtain ⟨malformed, shaped, fields⟩ := loading_reports_first_violation
  have passed : (Requirement.tag ⟨"A", 541, "hard error"⟩).Holds :=
    holds_tag_iff.mpr ⟨.hard, ErrorClass.ofTag?_eq_some_iff.mp (by decide +kernel)⟩
  have violated : (Requirement.tag ⟨"B", 403, "softerror"⟩).Violated
      (.unknownErrorClass "B" "softerror") :=
    .tag (ErrorClass.ofTag?_eq_none_iff.mp (by decide +kernel))
  have refused := (shaped _ _ outlineOfJson?_unsound).2 [_] _ _ _ rfl
    (List.forall_mem_singleton.mpr passed) violated
  have read : FieldOutline.ofTree? 4 nullDomain =
      some ⟨"persistent", some "bit", none, some (.bool true)⟩ := by
    with_unfolding_all rfl
  obtain ⟨name, typeName, domain, default, same, tells⟩ := fields _ _ _ read
  cases same
  exact ⟨(shaped _ _ outlineOfJson?_sound).1.mpr sound_soundOutline, refused,
    (malformed _).mpr (by with_unfolding_all rfl), _, read, tells.named.mpr (.inr rfl)⟩

end WrittenDescriptions

end WireProtocol
