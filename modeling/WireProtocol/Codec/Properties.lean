import WireProtocol.Codec.Value
import WireProtocol.Layout.Fields

/-!
# Property payloads

Sixteen presence flags come before the properties of a class. The flag of a property is the bit
`15 - i` of its place `i`; the flags below the last property are reserved and stay clear. A bit
property is its flag and nothing else.

* `PropertyLayout`: what the property payload of a class consists of.
* `PropertyLayout.decode`, `PropertyLayout.encode`: a record of a class (a value or nothing for each
  property) in its payload.
-/

namespace WireProtocol

/-- A class with the types of its properties. -/
structure PropertyLayout where
  classId : UInt16
  name : String
  properties : List (Field × WireType)

/-- The layout of the properties of a class, if all of their domains resolve. -/
def Description.propertyLayout (d : Description) (c : Class) :
    Except DescriptionError PropertyLayout := do
  return {
    classId := c.id
    name := c.name
    properties := ← d.classify c.properties }

/-- The presence flag of the property at a place. -/
def presenceBit (index : Nat) : UInt16 :=
  UInt16.ofNat (0x8000 >>> index)

/-- The flags that no property of a class with so many of them has. -/
def reservedMask (count : Nat) : UInt16 :=
  UInt16.ofNat ((1 <<< (16 - count)) - 1)

namespace PropertyLayout

/-- The types of the properties. -/
def types (p : PropertyLayout) : List WireType :=
  p.properties.map (·.2)

/-- The properties from a place on, of which those with a flag are there. -/
def readPresent (flags : UInt16) : Nat → List WireType → Read (List (Option WireValue))
  | _, [] => return []
  | index, ty :: types => do
    let value ←
      if flags &&& presenceBit index = 0 then pure none
      else if ty.isBit then pure (some (.bit true))
      else some <$> WireValue.read ty
    let others ← readPresent flags (index + 1) types
    return value :: others

/-- The record in a payload, all of which has to be read. A class without properties has no flags
either. -/
def readRecord (p : PropertyLayout) : Read (List (Option WireValue)) := do
  if p.properties.isEmpty then
    Read.finish
    return []
  else
    let flags ← Read.short
    if flags &&& reservedMask p.properties.length ≠ 0 then
      throw (.reservedFlags p.classId flags)
    let record ← readPresent flags 0 p.types
    Read.finish
    return record

/-- The record that a payload holds. -/
def decode (p : PropertyLayout) (payload : Bytes) : Except FrameError (List (Option WireValue)) :=
  (p.readRecord.run (Reader.start p.name payload)).1

/-- The properties from a place on, and their flags added to those of the earlier ones. A bit that
is false is as good as absent. -/
def writePresent (flags : UInt16) : Nat → List (WireType × Option WireValue) → Write UInt16
  | _, [] => return flags
  | index, (_, none) :: record => writePresent flags (index + 1) record
  | index, (ty, some value) :: record => do
    if ty.isBit then
      let flags := if value.isSet then flags ||| presenceBit index else flags
      writePresent flags (index + 1) record
    else
      value.write
      writePresent (flags ||| presenceBit index) (index + 1) record

/-- The payload that holds a record. -/
def encode (p : PropertyLayout) (record : List (Option WireValue)) : Except FrameError Bytes :=
  if p.properties.isEmpty then
    .ok []
  else
    match Write.run (writePresent 0 0 (p.types.zip record)) Writer.empty with
    | (.ok flags, w) => .ok (w.flagged flags)
    | (.error e, _) => .error e

end PropertyLayout

end WireProtocol
