/-!
# Protocol versions

* `Version`: the triple that a description declares.
* `Version.reported`: the triple that peers expect to see.
* `Version.artifactName`: the name under which code for a version is stored.
-/

namespace WireProtocol

/-- The version of a protocol, as its description declares it. -/
structure Version where
  major : UInt8
  minor : UInt8
  revision : UInt8
deriving DecidableEq, Repr

namespace Version

/-- The three numbers, joined by hyphens. -/
def display (v : Version) : String :=
  s!"{v.major}-{v.minor}-{v.revision}"

/-- The triple that peers expect to see: a description that declares itself as 8.0 reports 0.8.0,
and every other one what it declares. -/
def reported (v : Version) : Version :=
  if v = ⟨8, 0, 0⟩ then ⟨0, 8, 0⟩ else v

/-- The name of the code for a version: what comes before it, then the reported numbers, without a
revision of zero. -/
def artifactName (stem : String) (v : Version) : String :=
  let r := v.reported
  let name := s!"{stem}_{r.major}_{r.minor}"
  if r.revision = 0 then name else s!"{name}_{r.revision}"

end Version

end WireProtocol
