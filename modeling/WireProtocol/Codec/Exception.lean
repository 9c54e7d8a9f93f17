import WireProtocol.Description.Basic
import WireProtocol.Description.Naming

/-!
# Exceptions

Constants that are soft or hard errors are exceptions: peers report them by code.

* `ExceptionInfo`: what is known about an exception.
* `ExceptionTable.ofConstants`: the exceptions of a protocol, with the one that stands in for codes
  that are not in the table.
* `ExceptionTable.classify`: what is known about a code. Classifying a code that is not in the table
  leaves a warning.
* `ExceptionTable.codeOf?`, `ExceptionTable.nameOf?`: from display names to codes and back.
-/

namespace WireProtocol

/-- What is known about an exception. A hard one closes the connection, a soft one the channel. -/
structure ExceptionInfo where
  hard : Bool
  code : UInt16
  name : String
deriving DecidableEq, Repr

/-- A code that stood in no table, and the name of the exception that it was taken for. -/
structure UnknownCode where
  code : UInt16
  fallback : String
deriving DecidableEq, Repr

/-- An exception in place of a code that stands in no table. A peer that sends one must not bring
the caller down, so the code is only reported. -/
def ExceptionInfo.standIn (fallback : ExceptionInfo) (code : UInt16) :
    ExceptionInfo × UnknownCode :=
  (fallback, ⟨code, fallback.name⟩)

/-- Why constants make up no exception table. -/
inductive ExceptionError where
  | missingFallback
  | codeOutOfRange (name : String) (code : UInt32)
deriving DecidableEq, Repr

/-- The elements of a list without those that have the key of an earlier one. -/
def firstByKey {α β : Type} [DecidableEq β] (key : α → β) : List α → List α
  | [] => []
  | a :: rest => a :: (firstByKey key rest).filter fun b => key b ≠ key a

namespace Constant

/-- The name that diagnostics show. -/
def displayName (c : Constant) : String :=
  Naming.constantName c.name

/-- The code of a constant as a reply code, if it fits sixteen bits. -/
def replyCode? (c : Constant) : Option UInt16 :=
  if c.code.toNat < UInt16.size then some c.code.toUInt16 else none

/-- The exception that a constant declares. -/
def toException (c : Constant) : Except ExceptionError ExceptionInfo :=
  match c.replyCode? with
  | some code => .ok ⟨c.errorClass.isHard, code, c.displayName⟩
  | none => .error (.codeOutOfRange c.name c.code)

end Constant

/-- The exceptions of a protocol: one per code, one per display name, and the display name of one
constant of any kind per code. -/
structure ExceptionTable where
  byCode : List ExceptionInfo
  byName : List ExceptionInfo
  names : List (UInt16 × String)
  fallback : ExceptionInfo
deriving DecidableEq, Repr

namespace ExceptionTable

/-- The display name of the exception that stands in for unknown codes. -/
def fallbackName : String := "INTERNAL_ERROR"

/-- The constant that stands in for unknown codes: the first hard error of the right name. -/
def fallback? (constants : List Constant) : Option Constant :=
  constants.find? fun c => c.displayName == fallbackName && c.errorClass == .hard

/-- The codes of constants that fit sixteen bits, with their display names. -/
def codeNames (constants : List Constant) : List (UInt16 × String) :=
  constants.filterMap fun c => c.replyCode?.map (·, c.displayName)

/-- The exceptions that constants declare. The first constant of a code, or of a name, counts. -/
def ofConstants (constants : List Constant) : Except ExceptionError ExceptionTable :=
  match fallback? constants with
  | none => .error .missingFallback
  | some standIn => do
    let exceptions ← (constants.filter (·.errorClass.isException)).mapM (·.toException)
    let fallback ← standIn.toException
    return {
      byCode := firstByKey (·.code) exceptions
      byName := firstByKey (·.name) exceptions
      names := firstByKey (·.1) (codeNames constants)
      fallback }

/-- What is known about a code, with a warning if nothing is. -/
def classify (table : ExceptionTable) (code : UInt16) : ExceptionInfo × Option UnknownCode :=
  match table.byCode.find? (·.code == code) with
  | some info => (info, none)
  | none =>
    let (info, warning) := table.fallback.standIn code
    (info, some warning)

/-- The code of the exception of a display name. -/
def codeOf? (table : ExceptionTable) (name : String) : Option UInt16 :=
  (table.byName.find? (·.name == name)).map (·.code)

/-- The display name of the constant with a code. -/
def nameOf? (table : ExceptionTable) (code : UInt16) : Option String :=
  table.names.lookup code

end ExceptionTable

end WireProtocol
