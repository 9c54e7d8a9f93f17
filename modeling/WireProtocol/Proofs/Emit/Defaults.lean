import WireProtocol.Proofs.Codec.Method
import WireProtocol.Proofs.Config.RuntimePath
import WireProtocol.Proofs.Emit.Yields
import WireProtocol.Proofs.Layout.Fields

/-!
# Default records

A generation checks that each declared default fits the type of its argument. A text fits every
string type, however long it is, but the length in front of a string has room for so many octets
only.

* `MethodLayout.defaultOf_cases`: what an argument starts out with.
* `MethodLayout.DefaultsCounted`: the declared texts are short enough for their lengths.
* `generate_default_records`: exactly then the default record of a method can be written, and it reads
  back as itself.
-/

namespace WireProtocol

namespace WireValue

theorem exists_wire_zero (ty : WireType) : ∃ octets, (zero ty).wire = .ok octets := by
  cases ty <;> exact ⟨_, rfl⟩

theorem exists_wire_of_ofNumber? {ty : WireType} {number : UInt64} {value : WireValue}
    (h : ofNumber? number ty = some value) : ∃ octets, value.wire = .ok octets := by
  have type := wireType_of_ofNumber? h
  cases ty <;> simp only [ofNumber?, reduceCtorEq] at h <;> cases value <;> cases type <;>
    exact ⟨_, rfl⟩

/-- A declared short string is a text. -/
theorem wellFormed_of_ofDefault? {ty : WireType} {default : DefaultValue} {bytes : Bytes}
    (h : ofDefault? ty default = some (.shortstr bytes)) : Utf8.WellFormed bytes := by
  have type : ty = .shortstr := (wireType_of_ofDefault? h).symm
  subst type
  cases default with
  | text text =>
    cases h
    exact ⟨text, rfl⟩
  | bool | int | emptyTable => cases h

end WireValue

namespace MethodLayout

open WireValue

variable {m : MethodLayout} {field : Field} {ty : WireType}

theorem wireType_defaultOf (field : Field) (ty : WireType) : (defaultOf field ty).wireType = ty := by
  unfold defaultOf
  cases fits : field.default.bind (ofDefault? ty) with
  | none => exact wireType_zero ty
  | some value =>
    obtain ⟨default, -, fits⟩ := Option.bind_eq_some_iff.mp fits
    exact wireType_of_ofDefault? fits

theorem typed_defaultRecord (m : MethodLayout) :
    m.defaultRecord.map WireValue.wireType = m.types := by
  rw [defaultRecord, List.map_map]
  exact List.map_congr_left fun argument _ => wireType_defaultOf argument.1 argument.2

theorem defaultOf_of_default {default : DefaultValue} {value : WireValue}
    (declared : field.default = some default) (fits : ofDefault? ty default = some value) :
    defaultOf field ty = value := by
  rw [defaultOf, declared, Option.bind_some, fits, Option.getD_some]

/-- An argument that starts out as a short string starts out as a text. -/
theorem wellFormed_of_defaultOf {bytes : Bytes} (h : defaultOf field ty = .shortstr bytes) :
    Utf8.WellFormed bytes := by
  unfold defaultOf at h
  cases fits : field.default.bind (ofDefault? ty) with
  | none =>
    rw [fits, Option.getD_none] at h
    cases ty <;> cases h
    exact ⟨"", rfl⟩
  | some value =>
    rw [fits, Option.getD_some] at h
    subst h
    obtain ⟨default, -, fits⟩ := Option.bind_eq_some_iff.mp fits
    exact wellFormed_of_ofDefault? fits

/-- What is written for an argument that starts out as declared: the text behind its length, or else
something of which nothing can be too long. -/
theorem defaultOf_cases
    (fits : ∀ default, field.default = some default → ∃ value, ofDefault? ty default = some value) :
    (∃ text width overflow, field.default = some (.text text) ∧ ty.lengthPrefix? = some width ∧
        (defaultOf field ty).wire = countedWire width overflow (Utf8.encode text) ∧
        (overflow = .shortStrOverflow ∨ overflow = .longStrOverflow)) ∨
      (∀ text, field.default ≠ some (.text text)) ∧ ∃ octets, (defaultOf field ty).wire = .ok octets := by
  cases declared : field.default with
  | none =>
    have zero : defaultOf field ty = zero ty := by
      rw [defaultOf, declared, Option.bind_none, Option.getD_none]
    rw [zero]
    exact .inr ⟨fun text same => (by cases same), exists_wire_zero ty⟩
  | some default =>
    obtain ⟨value, fitting⟩ := fits default declared
    rw [defaultOf_of_default declared fitting]
    cases default with
    | text text =>
      left
      cases ty <;> simp only [ofDefault?, ofText?, reduceCtorEq] at fitting <;> cases fitting
      · exact ⟨text, 4, .longStrOverflow, rfl, rfl, rfl, .inr rfl⟩
      · exact ⟨text, 1, .shortStrOverflow, rfl, rfl, rfl, .inl rfl⟩
    | int number =>
      exact .inr ⟨fun text same => (by cases same), exists_wire_of_ofNumber? fitting⟩
    | bool bit =>
      simp only [ofDefault?] at fitting
      split at fitting <;> cases fitting
      exact .inr ⟨fun text same => (by cases same), _, rfl⟩
    | emptyTable =>
      simp only [ofDefault?] at fitting
      split at fitting <;> cases fitting
      exact .inr ⟨fun text same => (by cases same), _, rfl⟩

/-- Each declared text is short enough for the length in front of its argument. -/
def DefaultsCounted (m : MethodLayout) : Prop :=
  ∀ argument ∈ m.arguments, ∀ text width, argument.1.default = some (.text text) →
    argument.2.lengthPrefix? = some width → (Utf8.encode text).length < BigEndian.capacity width

/-- The declared defaults fit the types of their arguments. -/
def DefaultsFit (m : MethodLayout) : Prop :=
  ∀ argument ∈ m.arguments, ∀ default, argument.1.default = some default →
    ofDefault? argument.2 default = some (defaultOf argument.1 argument.2)

namespace DefaultsFit

theorem exists_fit (fits : m.DefaultsFit) {argument : Field × WireType}
    (member : argument ∈ m.arguments) (default : DefaultValue)
    (declared : argument.1.default = some default) :
    ∃ value, ofDefault? argument.2 default = some value :=
  ⟨_, fits argument member default declared⟩

/-- A default record can be written when its texts are short enough. -/
theorem exists_encode_iff (fits : m.DefaultsFit) :
    (∃ octets, m.encode m.defaultRecord = .ok octets) ↔ m.DefaultsCounted := by
  rw [exists_encode_eq_ok m.typed_defaultRecord, defaultRecord, List.forall_mem_map]
  refine forall₂_congr fun argument member => ?_
  rcases defaultOf_cases (fits.exists_fit member) with
    ⟨text, width, overflow, declared, type, wire, -⟩ | ⟨none, written⟩
  · rw [wire]
    constructor
    · rintro ⟨octets, counted⟩ text' width' declared' type'
      cases declared.symm.trans declared'
      cases type.symm.trans type'
      exact (countedWire_eq_ok.mp counted).1
    · intro counted
      exact ⟨_, countedWire_eq_ok.mpr ⟨counted text width declared type, rfl⟩⟩
  · exact iff_of_true written fun text _ declared => (none text declared).elim

/-- The only reason not to write a default record is a text that is too long. -/
theorem encode_eq_error (fits : m.DefaultsFit) {e : FrameError}
    (failed : m.encode m.defaultRecord = .error e) :
    ∃ length, e = .shortStrOverflow length ∨ e = .longStrOverflow length := by
  obtain ⟨value, member, failed⟩ := MethodLayout.encode_eq_error m.typed_defaultRecord failed
  obtain ⟨argument, listed, rfl⟩ := List.mem_map.mp member
  rcases defaultOf_cases (fits.exists_fit listed) with
    ⟨text, width, overflow, -, -, wire, kind⟩ | ⟨-, octets, written⟩
  · change (defaultOf argument.1 argument.2).wire = .error e at failed
    rw [wire, countedWire] at failed
    split at failed <;> cases failed
    rcases kind with rfl | rfl
    · exact ⟨_, .inl rfl⟩
    · exact ⟨_, .inr rfl⟩
  · cases written.symm.trans failed

end DefaultsFit

/-- A default record that can be written reads back as itself. -/
theorem decode_defaultRecord {octets : Bytes} (encoded : m.encode m.defaultRecord = .ok octets) :
    m.decode octets = .ok m.defaultRecord := by
  refine (holds_of_encode m.typed_defaultRecord encoded).decode_eq_ok (.inr fun bytes member => ?_)
  obtain ⟨argument, -, same⟩ := List.mem_map.mp member
  exact wellFormed_of_defaultOf same

end MethodLayout

namespace Description

variable {d : Description} {method : Method}

/-- A method whose arguments have types that their defaults fit has a layout that these fit. -/
theorem exists_methodLayout (fits : ∀ field ∈ method.arguments.toList, d.Fits field) :
    ∃ m, d.methodLayout method = .ok m ∧ m.DefaultsFit := by
  obtain ⟨arguments, classified⟩ : ∃ arguments, d.classify method.arguments = .ok arguments := by
    refine Except.exists_mapM_eq_ok.mpr fun field member => ?_
    obtain ⟨ty, resolved, -⟩ := fits field member
    exact ⟨(field, ty), Except.bind_eq_ok.mpr ⟨ty, resolved, rfl⟩⟩
  obtain ⟨fields, types⟩ := classify_eq_ok.mp classified
  refine ⟨⟨method.qualifiedName, method.hasContent, method.synchronous, arguments⟩,
    methodLayout_eq_ok.mpr ⟨rfl, rfl, rfl, classified⟩, fun argument member default declared => ?_⟩
  have listed : argument.1 ∈ method.arguments.toList := by
    rw [← fields]
    exact List.mem_map.mpr ⟨argument, member, rfl⟩
  obtain ⟨ty, resolved, fit⟩ := fits argument.1 listed
  cases resolved.symm.trans (types argument member)
  obtain ⟨value, fitting⟩ := fit default declared
  rw [fitting, MethodLayout.defaultOf_of_default declared fitting]

end Description

/-- Once code has been generated, every method has a layout, and its default record consists of the
declared defaults. The record can be written, and reads back as itself, exactly when each declared
text is short enough for the length in front of it, which the generation does not check. -/
theorem generate_default_records {grammar : PathGrammar} {d : Description} {config : Config}
    {artifacts : Artifacts} {method : Method} (generated : (generate grammar d config).1 = .ok artifacts)
    (member : method ∈ d.methods) :
    ∃ m, d.methodLayout method = .ok m ∧ m.DefaultsFit ∧
      ((∃ octets, m.encode m.defaultRecord = .ok octets ∧ m.decode octets = .ok m.defaultRecord) ↔
        m.DefaultsCounted) ∧
      (¬ m.DefaultsCounted → ∃ length,
        m.encode m.defaultRecord = .error (.shortStrOverflow length) ∨
          m.encode m.defaultRecord = .error (.longStrOverflow length)) := by
  obtain ⟨m, resolved, fits⟩ :=
    Description.exists_methodLayout (generate_arguments generated method member)
  refine ⟨m, resolved, fits, ?_, fun long => ?_⟩
  · rw [← fits.exists_encode_iff]
    constructor
    · rintro ⟨octets, encoded, -⟩
      exact ⟨octets, encoded⟩
    · rintro ⟨octets, encoded⟩
      exact ⟨octets, encoded, MethodLayout.decode_defaultRecord encoded⟩
  · cases encoded : m.encode m.defaultRecord with
    | ok octets => exact (long (fits.exists_encode_iff.mp ⟨octets, encoded⟩)).elim
    | error e =>
      obtain ⟨length, rfl | rfl⟩ := fits.encode_eq_error encoded
      · exact ⟨length, .inl rfl⟩
      · exact ⟨length, .inr rfl⟩

/-! ## A default of the greatest length -/

namespace ChannelOpen

/-- A text of so many letters. -/
def text (length : Nat) : String :=
  String.ofList (List.replicate length 'x')

/-- An argument that starts out as a text of so many letters. -/
def argument (length : Nat) : Field :=
  { Field.new "virtual-host" "shortstr" (some (.text (text length))) with index := 0 }

/-- A class with one method that has this argument. -/
def channel (length : Nat) : Class :=
  (Class.new 40 "channel").withMethod ((Method.new 10 "open").withArgument (argument length))

def description (length : Nat) : Description :=
  { Description.new ⟨0, 9, 1⟩ 5672 with
    constants := [⟨"internal-error", 541, .hard⟩]
    classes := [channel length]
    bounded := by simp [channel, Class.withMethod, Class.new, FieldList.empty, FieldList.length] }

def config : Config := ⟨"rt", "framing"⟩

def layout (length : Nat) : MethodLayout where
  name := "channel.open"
  hasContent := false
  synchronous := false
  arguments := [(argument length, .shortstr)]

private theorem defaultsCounted_iff (length : Nat) :
    (layout length).DefaultsCounted ↔ length < 256 := by
  have octets : (Utf8.encode (text length)).length = length := by
    have letter : 'x'.utf8Size = 1 := rfl
    simp [Utf8.encode, text, letter]
  constructor
  · intro counted
    have short := counted _ List.mem_cons_self (text length) 1 rfl rfl
    rwa [octets] at short
  · intro short pair member text' width declared wide
    cases List.mem_singleton.mp member
    cases declared
    cases wide
    rwa [octets]

/-- Code is generated, whether the text is short enough or not. -/
private theorem generated (length : Nat) (h : length = 255 ∨ length = 256) :
    ∃ artifacts, (generate .names (description length) config).1 = .ok artifacts := by
  have complete : (generate .names (description length) config).1.isOk = true := by
    unfold generate generateSteps
    rw [Config.runtimePath_of_rt rfl]
    rcases h with rfl | rfl <;> decide +kernel
  exact Except.exists_eq_ok_of_isOk complete

/-- A text of 255 letters makes a default record that reads back, and another letter one that cannot
be written. -/
theorem default_records_at_the_limit :
    (∃ octets, (layout 255).encode (layout 255).defaultRecord = .ok octets ∧
        (layout 255).decode octets = .ok (layout 255).defaultRecord) ∧
      (∃ artifacts, (generate .names (description 256) config).1 = .ok artifacts) ∧
      ∃ length, (layout 256).encode (layout 256).defaultRecord = .error (.shortStrOverflow length) ∨
        (layout 256).encode (layout 256).defaultRecord = .error (.longStrOverflow length) := by
  have resolved (length : Nat) :
      (description length).methodLayout ((channel length).methods.headD (.new 0 "")) =
        .ok (layout length) := rfl
  obtain ⟨artifacts, short⟩ := generated 255 (.inl rfl)
  obtain ⟨artifacts', long⟩ := generated 256 (.inr rfl)
  obtain ⟨m, found, -, reads, -⟩ := generate_default_records short List.mem_cons_self
  obtain ⟨m', found', -, -, fails⟩ := generate_default_records long List.mem_cons_self
  cases (resolved 255).symm.trans found
  cases (resolved 256).symm.trans found'
  refine ⟨reads.mpr ((defaultsCounted_iff 255).mpr (by decide)), ⟨artifacts', long⟩, fails ?_⟩
  rw [defaultsCounted_iff]
  decide

end ChannelOpen

end WireProtocol
