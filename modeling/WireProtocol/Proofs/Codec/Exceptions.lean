import WireProtocol.Proofs.FirstMatch
import WireProtocol.Proofs.Outcome

/-!
# Tables of exceptions

* `ExceptionTable.ofConstants_eq_ok`: constants make up a table when the codes of all exceptions fit
  sixteen bits and one of them stands in for unknown codes.
* `ExceptionTable.TellsFirst`: the table tells, for each code and each name, the first constant that
  was declared with it.
* `ExceptionTable.tellsFirst`: so does every table that constants make up.
* `ExceptionTable.TellsFirst.agrees`: names and codes lead to one another.
* `ExceptionTable.TellsFirst.classify_again`: what becomes of a code that is classified twice.
-/

namespace WireProtocol

namespace Constant

/-- The constant is a soft or hard error with that code. -/
def IsExceptionOf (code : UInt16) (c : Constant) : Prop :=
  c.errorClass ≠ .none ∧ c.code = code.toUInt32

/-- The constant is a soft or hard error that is shown by that name. -/
def IsExceptionNamed (name : String) (c : Constant) : Prop :=
  c.errorClass ≠ .none ∧ c.displayName = name

/-- The constant can stand in for unknown codes. -/
def IsFallback (c : Constant) : Prop :=
  c.errorClass = .hard ∧ c.displayName = "INTERNAL_ERROR"

instance (code : UInt16) : DecidablePred (IsExceptionOf code) :=
  fun _ => inferInstanceAs (Decidable (_ ∧ _))

instance (name : String) : DecidablePred (IsExceptionNamed name) :=
  fun _ => inferInstanceAs (Decidable (_ ∧ _))

instance : DecidablePred IsFallback :=
  fun _ => inferInstanceAs (Decidable (_ ∧ _))

/-- What is known about an exception whose code fits sixteen bits. -/
def info (c : Constant) : ExceptionInfo :=
  ⟨c.errorClass.isHard, c.code.toUInt16, c.displayName⟩

variable {c : Constant} {code : UInt16}

theorem isException_iff : c.errorClass.isException = true ↔ c.errorClass ≠ .none := by
  cases c.errorClass <;> simp [ErrorClass.isException]

theorem isHard_iff : c.errorClass.isHard = true ↔ c.errorClass = .hard := by
  cases c.errorClass <;> simp [ErrorClass.isHard]

/-- Codes of sixteen bits are the same when they are so in thirty-two. -/
theorem toUInt16_eq_iff (fits : c.code.toNat < UInt16.size) :
    c.code.toUInt16 = code ↔ c.code = code.toUInt32 := by
  rw [← UInt16.toNat_inj, ← UInt32.toNat_inj, UInt32.toNat_toUInt16, UInt16.toNat_toUInt32,
    Nat.mod_eq_of_lt fits]

theorem replyCode?_eq_some_iff : c.replyCode? = some code ↔ c.code = code.toUInt32 := by
  unfold replyCode?
  by_cases fits : c.code.toNat < UInt16.size
  · rw [if_pos fits, Option.some.injEq, toUInt16_eq_iff fits]
  · rw [if_neg fits]
    refine ⟨nofun, fun same => (fits ?_).elim⟩
    rw [same, UInt16.toNat_toUInt32]
    exact code.toNat_lt

theorem toException_eq_ok {info : ExceptionInfo} :
    c.toException = .ok info ↔ c.code.toNat < UInt16.size ∧ info = c.info := by
  unfold toException replyCode?
  by_cases fits : c.code.toNat < UInt16.size
  · simp [fits, Constant.info, eq_comm]
  · simp [fits]

/-- The first exception of a code, in so far as its code fits. -/
theorem info_of_isExceptionOf (own : c.IsExceptionOf code) :
    c.info = ⟨c.errorClass.isHard, code, c.displayName⟩ := by
  rw [info, own.2, UInt16.toUInt16_toUInt32]

end Constant

namespace ExceptionTable

open Constant

variable {constants : List Constant} {table : ExceptionTable}

/-! ## What a table consists of -/

/-- What is known about the exceptions among constants. -/
def infos (constants : List Constant) : List ExceptionInfo :=
  (constants.filter (·.errorClass.isException)).map info

theorem fallback?_eq_some_iff {standIn : Constant} :
    fallback? constants = some standIn ↔ FirstWith IsFallback constants standIn := by
  rw [fallback?, find?_eq_some_iff_firstWith]
  refine FirstWith.congr fun c _ => ?_
  simp [IsFallback, fallbackName, and_comm]

/-- Constants make up a table when the codes of all exceptions fit sixteen bits and one of them
stands in for unknown codes. -/
theorem ofConstants_eq_ok : ofConstants constants = .ok table ↔
    (∀ c ∈ constants, c.errorClass ≠ .none → c.code.toNat < UInt16.size) ∧
      ∃ standIn, FirstWith IsFallback constants standIn ∧
        table = {
          byCode := firstByKey (·.code) (infos constants)
          byName := firstByKey (·.name) (infos constants)
          names := firstByKey (·.1) (codeNames constants)
          fallback := standIn.info } := by
  have collected {exceptions : List ExceptionInfo} :
      (constants.filter (·.errorClass.isException)).mapM (·.toException) = .ok exceptions ↔
        (∀ c ∈ constants, c.errorClass ≠ .none → c.code.toNat < UInt16.size) ∧
          exceptions = infos constants := by
    have fit : (∀ c ∈ constants, c.errorClass ≠ .none → c.code.toNat < UInt16.size) ↔
        ∀ c ∈ constants.filter (·.errorClass.isException), ∃ info, c.toException = .ok info := by
      simp [List.mem_filter, isException_iff, toException_eq_ok]
    have known {exceptions : List ExceptionInfo}
        (ran : (constants.filter (·.errorClass.isException)).mapM (·.toException) = .ok exceptions) :
        exceptions = infos constants := by
      have same := Except.map_eq_of_mapM (g := id) (k := info) ran
        fun c own made => (toException_eq_ok.mp made).2
      rwa [List.map_id] at same
    rw [fit, ← Except.exists_mapM_eq_ok]
    constructor
    · intro ran
      exact ⟨⟨exceptions, ran⟩, known ran⟩
    · rintro ⟨⟨others, ran⟩, rfl⟩
      rwa [← known ran]
  unfold ofConstants
  cases chosen : fallback? constants with
  | none =>
    refine ⟨nofun, fun ⟨_, standIn, first, _⟩ => ?_⟩
    rw [← fallback?_eq_some_iff, chosen] at first
    cases first
  | some standIn =>
    have first := fallback?_eq_some_iff.mp chosen
    have exception : standIn.errorClass ≠ .none := by simp [first.holds.1]
    constructor
    · intro made
      obtain ⟨exceptions, ran, made⟩ := Except.bind_eq_ok.mp made
      obtain ⟨own, here, made⟩ := Except.bind_eq_ok.mp made
      obtain ⟨fit, rfl⟩ := collected.mp ran
      obtain ⟨-, rfl⟩ := toException_eq_ok.mp here
      cases made
      exact ⟨fit, standIn, first, rfl⟩
    · rintro ⟨fit, other, first', rfl⟩
      rw [← fallback?_eq_some_iff, chosen] at first'
      cases first'
      exact Except.bind_eq_ok.mpr ⟨_, collected.mpr ⟨fit, rfl⟩, Except.bind_eq_ok.mpr
        ⟨_, toException_eq_ok.mpr ⟨fit standIn first.mem exception, rfl⟩, rfl⟩⟩

/-- What is looked for among the exceptions is looked for among the constants. -/
theorem find?_infos (test : ExceptionInfo → Bool) (constants : List Constant) :
    (infos constants).find? test =
      (constants.find? fun c => c.errorClass.isException && test c.info).map info := by
  simp only [infos, List.find?_map, List.find?_filter, Function.comp_def, Bool.decide_and,
    Bool.decide_eq_true]

theorem lookup_codeNames (code : UInt16) (constants : List Constant) :
    (codeNames constants).lookup code =
      (constants.find? fun c => c.replyCode? == some code).map displayName := by
  induction constants with
  | nil => rfl
  | cons c constants ih =>
    rw [codeNames] at ih ⊢
    rw [List.filterMap_cons, List.find?_cons]
    cases fits : c.replyCode? with
    | none => simpa using ih
    | some own =>
      rw [Option.map_some, List.lookup_cons, Option.some_beq_some, Bool.beq_comm]
      cases own == code <;> simp [ih]

theorem lookup_firstByKey {α β : Type} [DecidableEq α] (k : α) (entries : List (α × β)) :
    (firstByKey (·.1) entries).lookup k = entries.lookup k := by
  rw [lookup_eq_map_find?, lookup_eq_map_find?, find?_firstByKey]

/-! ## What a table tells -/

/-- The table tells, for each code and each name, the first constant that was declared with it. A
code without exception is classified as the constant that stands in, and leaves a warning. -/
structure TellsFirst (constants : List Constant) (table : ExceptionTable) : Prop where
  /-- Every exception has a code of sixteen bits. -/
  codes : ∀ c ∈ constants, c.errorClass ≠ .none → ∃ code : UInt16, c.code = code.toUInt32
  /-- What is known about a code is said by the first exception with it. -/
  known : ∀ code c, FirstWith (IsExceptionOf code) constants c →
    table.classify code = (⟨c.errorClass.isHard, code, c.displayName⟩, none)
  /-- A code without exception is classified as the first constant that can stand in. -/
  unknown : ∀ code, (∀ c ∈ constants, ¬ c.IsExceptionOf code) →
    ∃ standIn own, FirstWith IsFallback constants standIn ∧ standIn.code = own.toUInt32 ∧
      table.classify code =
        (⟨true, own, standIn.displayName⟩, some ⟨code, standIn.displayName⟩)
  /-- A name stands for the code of the first exception that is shown by it. -/
  named : ∀ name c, FirstWith (IsExceptionNamed name) constants c →
    ∃ code, c.code = code.toUInt32 ∧ table.codeOf? name = some code
  nameless : ∀ name, (∀ c ∈ constants, ¬ c.IsExceptionNamed name) → table.codeOf? name = none
  /-- A code is shown by the name of the first constant of any class that has it. -/
  shown : ∀ code c, FirstWith (fun c => c.code = code.toUInt32) constants c →
    table.nameOf? code = some c.displayName
  hidden : ∀ code, (∀ c ∈ constants, c.code ≠ code.toUInt32) → table.nameOf? code = none

/-- So does every table that constants make up. -/
theorem tellsFirst (made : ofConstants constants = .ok table) : TellsFirst constants table := by
  obtain ⟨fit, standIn, first, rfl⟩ := ofConstants_eq_ok.mp made
  have own (c : Constant) (member : c ∈ constants) (exception : c.errorClass ≠ .none) :
      c.code = c.code.toUInt16.toUInt32 :=
    (toUInt16_eq_iff (fit c member exception)).mp rfl
  have codes (code : UInt16) (c : Constant) (member : c ∈ constants) :
      (c.errorClass.isException && c.info.code == code) = true ↔ c.IsExceptionOf code := by
    rw [Bool.and_eq_true, isException_iff, beq_iff_eq]
    exact and_congr_right fun exception => toUInt16_eq_iff (fit c member exception)
  have names (name : String) (c : Constant) (_ : c ∈ constants) :
      (c.errorClass.isException && c.info.name == name) = true ↔ c.IsExceptionNamed name := by
    rw [Bool.and_eq_true, isException_iff, beq_iff_eq]
    rfl
  have replies (code : UInt16) (c : Constant) (_ : c ∈ constants) :
      (c.replyCode? == some code) = true ↔ c.code = code.toUInt32 := by
    rw [beq_iff_eq, replyCode?_eq_some_iff]
  constructor
  · exact fun c member exception => ⟨c.code.toUInt16, own c member exception⟩
  · intro code c owner
    rw [classify, find?_firstByKey, find?_infos, owner.find?_eq (codes code), Option.map_some,
      info_of_isExceptionOf owner.holds]
  · intro code none
    have absent := List.find?_eq_none.mpr fun c member => (codes code c member).not.mpr (none c member)
    refine ⟨standIn, standIn.code.toUInt16, first, ?_, ?_⟩
    · exact own standIn first.mem (by simp [first.holds.1])
    · rw [classify, find?_firstByKey, find?_infos, absent, Option.map_none, info,
        isHard_iff.mpr first.holds.1]
      rfl
  · intro name c owner
    refine ⟨c.code.toUInt16, own c owner.mem owner.holds.1, ?_⟩
    rw [codeOf?, find?_firstByKey, find?_infos, owner.find?_eq (names name)]
    rfl
  · intro name none
    have absent := List.find?_eq_none.mpr fun c member => (names name c member).not.mpr (none c member)
    rw [codeOf?, find?_firstByKey, find?_infos, absent]
    rfl
  · intro code c owner
    rw [nameOf?, lookup_firstByKey, lookup_codeNames, owner.find?_eq (replies code), Option.map_some]
  · intro code none
    have absent :=
      List.find?_eq_none.mpr fun c member => (replies code c member).not.mpr (none c member)
    rw [nameOf?, lookup_firstByKey, lookup_codeNames, absent, Option.map_none]

/-- The tables agree on constants that were declared first. -/
structure Agrees (constants : List Constant) (table : ExceptionTable) : Prop where
  /-- What is known about an exception is found through its name, if it is the first one of its code
  and of its name. -/
  throughName : ∀ code c, FirstWith (IsExceptionOf code) constants c →
    FirstWith (IsExceptionNamed c.displayName) constants c →
      (table.codeOf? c.displayName).map table.classify =
        some (⟨c.errorClass.isHard, code, c.displayName⟩, none)
  /-- A code is shown by the name of its first exception, unless a plain constant was declared with it
  before. -/
  shownAlike : ∀ code before owner after, constants = before ++ owner :: after →
    owner.IsExceptionOf code → (∀ earlier ∈ before, ¬ earlier.IsExceptionOf code) →
      (∀ earlier ∈ before, earlier.errorClass = .none → earlier.code ≠ code.toUInt32) →
        table.nameOf? code = some (table.classify code).1.name

namespace TellsFirst

theorem agrees (h : TellsFirst constants table) : Agrees constants table := by
  constructor
  · intro code c first first'
    obtain ⟨code', same, found⟩ := h.named c.displayName c first'
    have : code' = code := UInt16.toUInt32_inj.mp (same.symm.trans first.holds.2)
    subst this
    rw [found, Option.map_some, h.known code' c first]
  · intro code before owner after parts here others plain
    have first : FirstWith (IsExceptionOf code) constants owner := ⟨before, after, parts, here, others⟩
    have shown : FirstWith (fun c => c.code = code.toUInt32) constants owner := by
      refine ⟨before, after, parts, here.2, fun earlier inside same => ?_⟩
      by_cases exception : earlier.errorClass = .none
      · exact plain earlier inside exception same
      · exact others earlier inside ⟨exception, same⟩
    rw [h.shown code owner shown, h.known code owner first]

/-- The constant that stands in for unknown codes has a code of sixteen bits, and there is a first
exception with that code, be it this constant or another one. -/
theorem exists_owner (made : ofConstants constants = .ok table) :
    ∃ standIn own owner, FirstWith IsFallback constants standIn ∧ standIn.code = own.toUInt32 ∧
      FirstWith (IsExceptionOf own) constants owner := by
  obtain ⟨fit, standIn, first, -⟩ := ofConstants_eq_ok.mp made
  have exception : standIn.errorClass ≠ .none := by simp [first.holds.1]
  have same := (toUInt16_eq_iff (fit standIn first.mem exception)).mp rfl
  obtain ⟨owner, found⟩ := FirstWith.exists_of_mem (p := IsExceptionOf standIn.code.toUInt16)
    first.mem ⟨exception, same⟩
  exact ⟨standIn, _, owner, first, same, found⟩

/-- What a code has been classified as has a code of its own, which is never unknown. It is classified
as the same again, unless it was taken for the constant that stands in and this one does not own its
code. -/
theorem classify_again (h : TellsFirst constants table) {standIn owner : Constant} {own : UInt16}
    (fallback : FirstWith IsFallback constants standIn) (same : standIn.code = own.toUInt32)
    (owns : FirstWith (IsExceptionOf own) constants owner) (code : UInt16) :
    (table.classify (table.classify code).1.code).2 = none ∧
      (table.classify (table.classify code).1.code).1.code = (table.classify code).1.code ∧
      ((table.classify (table.classify code).1.code).1 = (table.classify code).1 ↔
        (∃ c ∈ constants, c.IsExceptionOf code) ∨ owner.IsFallback) := by
  by_cases declared : ∃ c ∈ constants, c.IsExceptionOf code
  · obtain ⟨c, member, here⟩ := declared
    obtain ⟨first, found⟩ := FirstWith.exists_of_mem member here
    rw [h.known code first found]
    dsimp only
    rw [h.known code first found]
    exact ⟨rfl, rfl, iff_of_true rfl (.inl ⟨c, member, here⟩)⟩
  · obtain ⟨standIn', own', fallback', same', classified⟩ :=
      h.unknown code fun c member here => declared ⟨c, member, here⟩
    cases fallback.unique fallback'
    have : own' = own := UInt16.toUInt32_inj.mp (same'.symm.trans same)
    subst this
    rw [classified]
    dsimp only
    rw [h.known own' owner owns]
    refine ⟨rfl, rfl, ?_⟩
    rw [or_iff_right declared, IsFallback, ← isHard_iff, ← fallback.holds.2]
    simp

end TellsFirst

end ExceptionTable

end WireProtocol
