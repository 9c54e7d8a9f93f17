import WireProtocol.Bytes.Utf8

/-!
# Well-formed texts

* `Utf8.WellFormed`: octets that spell a text.
* `Utf8.isWellFormed_iff_wellFormed`: the validator accepts them and no others.
-/

namespace WireProtocol

namespace Utf8

/-- The octets are those of some text. -/
def WellFormed (octets : Bytes) : Prop :=
  ∃ text : String, octets = encode text

theorem isWellFormed_iff_wellFormed {octets : Bytes} :
    isWellFormed octets = true ↔ WellFormed octets := by
  rw [isWellFormed_iff]
  constructor
  · rintro ⟨chars, same⟩
    refine ⟨String.ofList chars, ?_⟩
    rw [encode, String.toList_ofList]
    exact List.toByteArray_inj.mp same
  · rintro ⟨text, rfl⟩
    exact ⟨text.toList, rfl⟩

instance (octets : Bytes) : Decidable (WellFormed octets) :=
  decidable_of_iff _ isWellFormed_iff_wellFormed

end Utf8

end WireProtocol
