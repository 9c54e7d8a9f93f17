import Mathlib.Algebra.Ring.Nat
import Mathlib.Data.List.Induction
import WireProtocol.Description.Basic

/-!
# Sessions that build a description

A description is built step by step, beside loose lists of fields. A field can be copied from any list
to any other one, and a method from a class to another one.

* `Workshop`, `Place`: the lists of fields of a session, and where each of them stands.
* `BuildStep`, `Workshop.step`, `Workshop.run`: what a session consists of. A class that is refused does
  not end it.
* `Workshop.Sound`: fields are numbered by their places, classes have room for their properties, and
  methods know their class.
* `Workshop.Effects`: what the next step changes, and that it changes nothing else.
* `Workshop.Continues`: what a whole session keeps.
* `sessions_stay_sound`: every workshop that a session leads to is sound, so are the effects of its
  next step, and it keeps what it holds.
-/

namespace WireProtocol

/-! ## Steps -/

/-- Where a list of fields stands: loose under a number, as the properties of a class, or as the
arguments of a method of a class. Classes and methods are counted from zero. -/
inductive Place where
  | loose (number : Nat)
  | properties (c : Nat)
  | arguments (c m : Nat)

/-- A field to push: a new one, or a copy of one that stands in a list. -/
inductive FieldSource where
  | new (name domain : String) (default : Option DefaultValue)
  | copy (place : Place) (index : Nat)

/-- A method to attach: a new one, or a copy of one that belongs to a class. -/
inductive MethodSource where
  | new (id : UInt16) (name : String) (hasContent synchronous : Bool) (arguments : List FieldSource)
  | copy (c m : Nat)

/-- A class to add, with any properties and methods. -/
structure ClassPlan where
  id : UInt16
  name : String
  properties : List FieldSource
  methods : List MethodSource

/-- A step of a session. -/
inductive BuildStep where
  | domain (name target : String)
  | constant (constant : Constant)
  | push (list : Nat) (source : FieldSource)
  | addClass (plan : ClassPlan)

/-- The step pushes a field onto the loose list. -/
def BuildStep.isPushTo (list : Nat) : BuildStep → Bool
  | .push number _ => number == list
  | _ => false

/-- The loose lists of a session, all empty at first, and the description that it builds. -/
structure Workshop where
  loose : Nat → FieldList
  description : Description

namespace Workshop

/-- Where a session starts. -/
def new (version : Version) (port : UInt16) : Workshop :=
  ⟨fun _ => .empty, .new version port⟩

/-- The list at a place, if there is one. -/
def fieldsAt? (w : Workshop) : Place → Option FieldList
  | .loose number => some (w.loose number)
  | .properties c => w.description.classes[c]?.map (·.properties)
  | .arguments c m => w.description.classes[c]?.bind fun c => c.methods[m]?.map (·.arguments)

/-- The field of a source. A copy has the index of the place that it is taken from. -/
def field? (w : Workshop) : FieldSource → Option Field
  | .new name domain default => some (Field.new name domain default)
  | .copy place index => (w.fieldsAt? place).bind (·.toList[index]?)

/-- The method of a source. A copy has the identity of the class that it is taken from. -/
def method? (w : Workshop) : MethodSource → Option Method
  | .new id name hasContent synchronous arguments => do
    let method := ((Method.new id name).withContent hasContent).withSynchronous synchronous
    return (← arguments.mapM w.field?).foldl Method.withArgument method
  | .copy c m => w.description.classes[c]?.bind (·.methods[m]?)

/-- The class of a plan. -/
def class? (w : Workshop) (plan : ClassPlan) : Option Class := do
  let properties ← plan.properties.mapM w.field?
  let methods ← plan.methods.mapM w.method?
  return methods.foldl Class.withMethod
    (properties.foldl Class.withProperty (Class.new plan.id plan.name))

/-- The workshop with another field behind those of a loose list. -/
def pushTo (w : Workshop) (list : Nat) (field : Field) : Workshop :=
  { w with loose := fun number =>
      if number = list then (w.loose number).push field else w.loose number }

/-- The workshop after a step, and why a class was refused, if it was. A step that uses what is not
there cannot be made. -/
def step (w : Workshop) : BuildStep → Option (Workshop × Option DescriptionError)
  | .domain name target => some ({ w with description := w.description.withDomain name target }, none)
  | .constant constant => some ({ w with description := w.description.withConstant constant }, none)
  | .push list source => (w.field? source).map fun field => (w.pushTo list field, none)
  | .addClass plan => (w.class? plan).map fun c =>
    match w.description.withClass c with
    | .ok d => ({ w with description := d }, none)
    | .error e => (w, some e)

/-- The workshop after steps that can all be made. -/
def run (w : Workshop) (steps : List BuildStep) : Option Workshop :=
  steps.foldlM (fun w s => (w.step s).map Prod.fst) w

end Workshop

/-! ## What is built -/

/-- A field under an index of its own. -/
def Field.at (field : Field) (index : Nat) : Field :=
  { field with index }

namespace FieldList

/-- Fields that are pushed one after the other stand in order, each under the index of its place. -/
theorem toList_ofList (fields : List Field) :
    (ofList fields).toList = fields.mapIdx fun i field => field.at i := by
  unfold ofList
  induction fields using List.reverseRecOn with
  | nil => rfl
  | append_singleton fields field ih =>
    rw [List.foldl_append, List.foldl_cons, List.foldl_nil, toList_push, List.mapIdx_concat, ih, length, ih, List.length_mapIdx]
    rfl

end FieldList

theorem Method.arguments_foldl (fields : List Field) (method : Method) :
    (fields.foldl withArgument method).arguments = fields.foldl FieldList.push method.arguments := by
  induction fields generalizing method with
  | nil => rfl
  | cons field fields ih => exact ih (method.withArgument field)

namespace Class

theorem foldl_withProperty (fields : List Field) (c : Class) :
    fields.foldl withProperty c = { c with properties := fields.foldl FieldList.push c.properties } := by
  induction fields generalizing c with
  | nil => rfl
  | cons field fields ih => exact ih (c.withProperty field)

theorem methods_foldl (methods : List Method) (c : Class) :
    (methods.foldl withMethod c).id = c.id ∧ (methods.foldl withMethod c).name = c.name ∧
      (methods.foldl withMethod c).properties = c.properties ∧
      (methods.foldl withMethod c).methods = c.methods ++ methods.map (·.attach c.id c.name) := by
  induction methods generalizing c with
  | nil => exact ⟨rfl, rfl, rfl, (List.append_nil _).symm⟩
  | cons method methods ih =>
    obtain ⟨id, name, properties, attached⟩ := ih (c.withMethod method)
    refine ⟨id, name, properties, ?_⟩
    rw [List.foldl_cons, attached, List.map_cons, List.append_cons]
    rfl

end Class

namespace Workshop

variable {w next : Workshop}

/-- A new method has its arguments in order, each under the index of its place. -/
theorem arguments_of_new {id : UInt16} {name : String} {hasContent synchronous : Bool}
    {sources : List FieldSource} {method : Method}
    (made : w.method? (.new id name hasContent synchronous sources) = some method) :
    ∃ fields, sources.mapM w.field? = some fields ∧
      method.arguments.toList = fields.mapIdx fun i field => field.at i := by
  obtain ⟨fields, found, same⟩ := Option.bind_eq_some_iff.mp made
  cases same
  refine ⟨fields, found, ?_⟩
  rw [Method.arguments_foldl]
  exact FieldList.toList_ofList fields

/-- A class has its properties in order, each under the index of its place, and its methods in order,
each with the identity of the class. -/
theorem class?_eq {plan : ClassPlan} {properties : List Field} {methods : List Method}
    (fields : plan.properties.mapM w.field? = some properties)
    (members : plan.methods.mapM w.method? = some methods) :
    ∃ c, w.class? plan = some c ∧ c.id = plan.id ∧ c.name = plan.name ∧
      c.properties.toList = (properties.mapIdx fun i field => field.at i) ∧
      c.methods = methods.map (·.attach plan.id plan.name) := by
  refine ⟨_, by rw [class?, fields, members]; rfl, ?_⟩
  obtain ⟨id, name, kept, attached⟩ := Class.methods_foldl methods
    (properties.foldl Class.withProperty (Class.new plan.id plan.name))
  rw [id, name, kept, attached, Class.foldl_withProperty]
  exact ⟨rfl, rfl, FieldList.toList_ofList properties, List.nil_append _⟩

/-! ## What every workshop is like -/

/-- Fields are numbered by their places, classes have room for their properties, methods carry the
identity of their class, and all methods are listed in the order of the classes and then of the methods. -/
structure Sound (w : Workshop) : Prop where
  numbered : ∀ place fields, w.fieldsAt? place = some fields →
    ∀ (i : Nat) field, fields.toList[i]? = some field → field.index = i
  few : ∀ c ∈ w.description.classes, c.properties.length ≤ 15
  owned : ∀ c ∈ w.description.classes, ∀ method ∈ c.methods,
    method.classId = c.id ∧ method.className = c.name
  ordered : ∀ (i j : Nat) c method, w.description.classes[i]? = some c → c.methods[j]? = some method →
    w.description.methods[
      ((w.description.classes.take i).map (·.methods.length)).sum + j]? = some method
  complete : w.description.methods.length = (w.description.classes.map (·.methods.length)).sum

theorem getElem?_flatMap {α β : Type} {f : α → List β} {xs : List α} {i j : Nat} {x : α} {y : β}
    (outer : xs[i]? = some x) (inner : (f x)[j]? = some y) :
    (xs.flatMap f)[((xs.take i).map fun x => (f x).length).sum + j]? = some y := by
  induction xs generalizing i with
  | nil => cases outer
  | cons first xs ih =>
    rw [List.flatMap_cons]
    cases i with
    | zero =>
      cases outer
      obtain ⟨inside, -⟩ := List.getElem?_eq_some_iff.mp inner
      rw [List.take_zero, List.map_nil, List.sum_nil, Nat.zero_add, List.getElem?_append_left inside,
        inner]
    | succ i =>
      rw [List.take_succ_cons, List.map_cons, List.sum_cons, Nat.add_assoc,
        List.getElem?_append_right (Nat.le_add_right _ _), Nat.add_sub_cancel_left]
      exact ih outer

theorem sound (w : Workshop) : w.Sound where
  numbered := fun _ _ _ _ _ => FieldList.index_of_getElem?
  few := w.description.bounded
  owned := fun c _ => c.attached
  ordered := fun _ _ _ _ => getElem?_flatMap
  complete := List.length_flatMap

/-! ## What a step changes -/

/-- A push adds a field at the end of one loose list, under the index of that place, and a class is added
behind the others with its properties and methods, if it has no more than fifteen of the first. Nothing
else changes. -/
structure Effects (w : Workshop) : Prop where
  push : ∀ list source field, w.field? source = some field →
    ∃ next, w.step (.push list source) = some (next, none) ∧
      (next.loose list).toList = (w.loose list).toList ++ [field.at (w.loose list).length] ∧
      next.description = w.description ∧
      ∀ place, place ≠ .loose list → next.fieldsAt? place = w.fieldsAt? place
  newMethod : ∀ id name hasContent synchronous sources fields, sources.mapM w.field? = some fields →
    ∃ method, w.method? (.new id name hasContent synchronous sources) = some method ∧
      method.arguments.toList = fields.mapIdx fun i field => field.at i
  addClass : ∀ plan properties methods, plan.properties.mapM w.field? = some properties →
    plan.methods.mapM w.method? = some methods → properties.length ≤ 15 →
      ∃ c next, w.step (.addClass plan) = some (next, none) ∧ next.loose = w.loose ∧
        next.description.classes = w.description.classes ++ [c] ∧
        next.description.constants = w.description.constants ∧
        next.description.domains = w.description.domains ∧
        c.id = plan.id ∧ c.name = plan.name ∧
        c.properties.toList = (properties.mapIdx fun i field => field.at i) ∧
        c.methods = methods.map (·.attach plan.id plan.name)
  refuseClass : ∀ plan properties methods, plan.properties.mapM w.field? = some properties →
    plan.methods.mapM w.method? = some methods → 15 < properties.length →
      w.step (.addClass plan) = some (w, some (.tooManyProperties plan.name properties.length))

theorem loose_pushTo_of_ne {list number : Nat} (field : Field) (apart : number ≠ list) :
    (w.pushTo list field).loose number = w.loose number :=
  if_neg apart

theorem fieldsAt?_pushTo {list : Nat} {field : Field} {place : Place} (other : place ≠ .loose list) :
    (w.pushTo list field).fieldsAt? place = w.fieldsAt? place := by
  cases place with
  | loose number =>
    have apart : number ≠ list := fun same => other (congrArg Place.loose same)
    exact congrArg some (loose_pushTo_of_ne field apart)
  | properties | arguments => rfl

theorem loose_pushTo (w : Workshop) (list : Nat) (field : Field) :
    ((w.pushTo list field).loose list).toList =
      (w.loose list).toList ++ [field.at (w.loose list).length] := by
  rw [pushTo]
  dsimp only
  rw [if_pos rfl]
  rfl

theorem effects (w : Workshop) : w.Effects where
  push := by
    intro list source field found
    exact ⟨w.pushTo list field, by rw [step, found]; rfl, w.loose_pushTo list field, rfl,
      fun _ => fieldsAt?_pushTo⟩
  newMethod := by
    intro id name hasContent synchronous sources fields found
    have made : ∃ method, w.method? (.new id name hasContent synchronous sources) = some method := by
      rw [method?, found]
      exact ⟨_, rfl⟩
    obtain ⟨method, made⟩ := made
    obtain ⟨fields', found', numbered⟩ := arguments_of_new made
    cases found.symm.trans found'
    exact ⟨method, made, numbered⟩
  addClass := by
    intro plan properties methods fields members few
    obtain ⟨c, planned, id, name, listed, attached⟩ := class?_eq fields members
    have room : c.properties.length ≤ maxProperties := by
      rw [FieldList.length, listed, List.length_mapIdx]
      exact few
    refine ⟨c, _, by rw [step, planned, Option.map_some, Description.withClass, dif_pos room], ?_⟩
    exact ⟨rfl, rfl, rfl, rfl, id, name, listed, attached⟩
  refuseClass := by
    intro plan properties methods fields members many
    obtain ⟨c, planned, -, name, listed, -⟩ := class?_eq fields members
    have length : c.properties.length = properties.length := by
      rw [FieldList.length, listed, List.length_mapIdx]
    have none : ¬ c.properties.length ≤ maxProperties := by
      rw [length]
      exact Nat.not_le.mpr many
    rw [step, planned, Option.map_some, Description.withClass, dif_neg none, name, length]

/-! ## What a session keeps -/

/-- Steps lead from one workshop to another: constants and classes stay as they are, others are only
added behind them, and a loose list has as many fields more as have been pushed onto it. -/
structure Continues (w : Workshop) (steps : List BuildStep) (next : Workshop) : Prop where
  classes : w.description.classes <+: next.description.classes
  constants : w.description.constants <+: next.description.constants
  domains : w.description.domains <:+ next.description.domains
  lists : ∀ list, (w.loose list).toList <+: (next.loose list).toList
  count : ∀ list, (next.loose list).length =
    (w.loose list).length + steps.countP (·.isPushTo list)

theorem Continues.refl (w : Workshop) : w.Continues [] w :=
  ⟨List.prefix_rfl, List.prefix_rfl, List.suffix_rfl, fun _ => List.prefix_rfl, fun _ => rfl⟩

theorem Continues.trans {first last : Workshop} {steps more : List BuildStep}
    (h : first.Continues steps w) (h' : w.Continues more last) :
    first.Continues (steps ++ more) last where
  classes := h.classes.trans h'.classes
  constants := h.constants.trans h'.constants
  domains := h.domains.trans h'.domains
  lists := fun list => (h.lists list).trans (h'.lists list)
  count := fun list => by rw [h'.count, h.count, List.countP_append, Nat.add_assoc]

theorem continues_pushTo (w : Workshop) (list : Nat) (source : FieldSource) (field : Field) :
    w.Continues [.push list source] (w.pushTo list field) where
  classes := List.prefix_rfl
  constants := List.prefix_rfl
  domains := List.suffix_rfl
  lists := by
    intro number
    by_cases here : number = list
    · rw [here, loose_pushTo]
      exact List.prefix_append _ _
    · simp only [loose_pushTo_of_ne field here, List.prefix_rfl]
  count := by
    intro number
    by_cases here : number = list
    · rw [here, FieldList.length, loose_pushTo, List.length_append]
      simp [BuildStep.isPushTo, FieldList.length]
    · rw [loose_pushTo_of_ne field here]
      simp [BuildStep.isPushTo, Ne.symm here]

/-- A step keeps what is there. -/
theorem continues_of_step {s : BuildStep} {e : Option DescriptionError}
    (made : w.step s = some (next, e)) : w.Continues [s] next := by
  have other {d : Description} (s : BuildStep) (still : ∀ list, s.isPushTo list = false)
      (classes : w.description.classes <+: d.classes)
      (constants : w.description.constants <+: d.constants)
      (domains : w.description.domains <:+ d.domains) :
      w.Continues [s] { w with description := d } :=
    ⟨classes, constants, domains, fun _ => List.prefix_rfl, fun list => by simp [still]⟩
  cases s with
  | domain name target =>
    cases made
    exact other _ (fun _ => rfl) List.prefix_rfl List.prefix_rfl (List.suffix_cons _ _)
  | constant c =>
    cases made
    exact other _ (fun _ => rfl) List.prefix_rfl (List.prefix_append _ _) List.suffix_rfl
  | push list source =>
    obtain ⟨field, -, same⟩ := Option.map_eq_some_iff.mp made
    cases same
    exact w.continues_pushTo list source field
  | addClass plan =>
    obtain ⟨c, -, same⟩ := Option.map_eq_some_iff.mp made
    rw [Description.withClass] at same
    split at same
    · next d added =>
      cases same
      split at added
      · cases added
        exact other _ (fun _ => rfl) (List.prefix_append _ _) List.prefix_rfl List.suffix_rfl
      · cases added
    · cases same
      exact other _ (fun _ => rfl) List.prefix_rfl List.prefix_rfl List.suffix_rfl

theorem continues_of_run {steps : List BuildStep} (ran : w.run steps = some next) :
    w.Continues steps next := by
  induction steps generalizing w with
  | nil =>
    cases ran
    exact .refl _
  | cons s steps ih =>
    rw [run, List.foldlM_cons] at ran
    obtain ⟨between, first, ran⟩ := Option.bind_eq_some_iff.mp ran
    obtain ⟨⟨between, e⟩, made, rfl⟩ := Option.map_eq_some_iff.mp first
    exact (continues_of_step made).trans (ih ran)

end Workshop

/-- Every workshop that a session leads to is sound. Its next step has the effects of its kind and no
other ones, and what it holds stays there in all steps to come. -/
theorem sessions_stay_sound {version : Version} {port : UInt16} {steps : List BuildStep} {w : Workshop}
    (ran : (Workshop.new version port).run steps = some w) :
    (Workshop.new version port).Continues steps w ∧ w.Sound ∧ w.Effects ∧
      ∀ more next, w.run more = some next → w.Continues more next :=
  ⟨Workshop.continues_of_run ran, w.sound, w.effects, fun _ _ => Workshop.continues_of_run⟩

namespace SharedFields

/-- A class with sixteen copies of one argument as its properties. -/
def crowded : ClassPlan :=
  ⟨60, "basic", List.replicate 16 (.copy (.arguments 0 0) 1), []⟩

/-- Two fields are pushed, and copied in the other order into the arguments of a method. The class that
is too large comes between this one and another, which gets a copy of the method. -/
def steps : List BuildStep :=
  [.push 0 (.new "ticket" "short" none), .push 0 (.new "no-wait" "bit" (some (.bool false))),
    .push 1 (.copy (.loose 0) 1),
    .addClass ⟨50, "queue", [.copy (.loose 1) 0],
      [.new 10 "declare" false true [.copy (.loose 0) 1, .copy (.loose 0) 0]]⟩,
    .addClass crowded,
    .addClass ⟨85, "confirm", [.copy (.arguments 0 0) 1, .copy (.properties 0) 0], [.copy 0 0]⟩]

def start : Workshop := .new ⟨0, 9, 1⟩ 5672

theorem isSome_run : (start.run steps).isSome = true := by
  decide +kernel

def final : Workshop := (start.run steps).get isSome_run

theorem run_eq : start.run steps = some final :=
  (Option.some_get isSome_run).symm

/-- Both methods have the arguments under new indexes and belong to their own classes; the class that was
too large would be refused again; and another copy takes the next index. -/
theorem shared_fields_are_numbered :
    start.run steps = some final ∧
      (final.description.methods.map fun m => (m.classId, m.className, m.arguments.toList)) =
        [(50, "queue", [⟨"no-wait", "bit", some (.bool false), 0⟩, ⟨"ticket", "short", none, 1⟩]),
          (85, "confirm", [⟨"no-wait", "bit", some (.bool false), 0⟩, ⟨"ticket", "short", none, 1⟩])] ∧
      final.step (.addClass crowded) = some (final, some (.tooManyProperties "basic" 16)) ∧
      (∀ c ∈ final.description.classes, c.properties.length ≤ 15) ∧
      ∃ next, final.step (.push 1 (.copy (.arguments 1 0) 0)) = some (next, none) ∧
        (next.loose 1).toList =
          [⟨"no-wait", "bit", some (.bool false), 0⟩, ⟨"no-wait", "bit", some (.bool false), 1⟩] := by
  obtain ⟨-, sound, effects, -⟩ := sessions_stay_sound run_eq
  obtain ⟨next, made, pushed, -⟩ := effects.push 1 (.copy (.arguments 1 0) 0)
    ⟨"no-wait", "bit", some (.bool false), 0⟩ (by decide +kernel)
  have refused := effects.refuseClass crowded (List.replicate 16 ⟨"ticket", "short", none, 1⟩) []
    (by decide +kernel) rfl (by decide)
  have before : (final.loose 1).toList = [⟨"no-wait", "bit", some (.bool false), 0⟩] := by
    decide +kernel
  refine ⟨run_eq, by decide +kernel, refused, sound.few, next, made, ?_⟩
  rw [pushed, FieldList.length, before]
  rfl

end SharedFields

end WireProtocol
