import RowAlgebra.Proofs.CanonicalFloat
import RowAlgebra.Proofs.JsonRoundTrip

/-! Reading is stable. However a text spells its value, the value is one whose own text is read
as that value again: it holds no blob, it is nested no deeper than the reader allows, and each of
its numbers is of the kind, integer or float, that its own spelling will give. So a text needs
to be rewritten only once. -/

namespace RowAlgebra

def Json.respelled (text : String) : Except CodecError String := (Value.ofJson text).map Value.toJson

namespace Proofs.StableDecoding

theorem ofJson_toJson_self {value : Value} (blobless : value.holdsBlob = false) (shallow : value.depth ≤ Json.depthLimit) :
    Value.ofJson value.toJson = .ok value := by
  have same : value.plain = value := value.plain_eq_self_iff.mpr blobless
  rw [Json.ofJson_ok_iff, Value.toJson, String.toList_ofList, Json.read_write, if_pos shallow, same]

theorem ofJson_toJson_of_ofJson {text : String} {value : Value} (found : Value.ofJson text = .ok value) :
    Value.ofJson value.toJson = .ok value := by
  have accepted := Json.ofJson_ok_iff.mp found
  exact ofJson_toJson_self (Json.read_holdsBlob accepted) (Json.read_depth accepted)

/-- Every accepted text, however it spells its value, has a value without blobs, with canonical
floats only and of at most 127 lists and maps within one another, and the text of that value is
read as that value. So rewriting accepted texts is idempotent. The values of texts are all the
values without blobs that are nested no deeper. -/
theorem respelled_stable :
    (∀ text value, Value.ofJson text = .ok value →
      value.holdsBlob = false ∧ value.depth ≤ 127 ∧ value.Canonical ∧ Value.ofJson value.toJson = .ok value) ∧
    (∀ text spelled, Json.respelled text = .ok spelled → Json.respelled spelled = .ok spelled) ∧
    ∀ value, (∃ text, Value.ofJson text = .ok value) ↔ value.holdsBlob = false ∧ value.depth ≤ 127 := by
  refine ⟨?_, ?_, ?_⟩
  · intro text value found
    have accepted := Json.ofJson_ok_iff.mp found
    exact ⟨Json.read_holdsBlob accepted, Json.read_depth accepted, value.canonical, ofJson_toJson_of_ofJson found⟩
  · intro text spelled done
    obtain ⟨value, found, rfl⟩ := map_ok_iff.mp done
    exact map_ok_iff.mpr ⟨value, ofJson_toJson_of_ofJson found, rfl⟩
  · intro value
    constructor
    · rintro ⟨text, found⟩
      have accepted := Json.ofJson_ok_iff.mp found
      exact ⟨Json.read_holdsBlob accepted, Json.read_depth accepted⟩
    · rintro ⟨blobless, shallow⟩
      exact ⟨value.toJson, ofJson_toJson_self blobless shallow⟩

/-- Blanks, a repeated key, an escaped pair of surrogates, and numbers in spellings of their own. -/
theorem spellings_settle :
    let text := " \x7b\"b\" : [ -0, 1E5, -7, 1e-400 ] ,\n\"b\":\"\\u0041\\ud83d\\ude00\\/\"\x7d "
    let value : Value := .map [("b", .list [.float 0, .float (.ofInt64 100000), .int (-7), .float 0]), ("b", .text "A😀/")]
    let spelled := "\x7b\"b\":[0.0,100000.0,-7,0.0],\"b\":\"A😀/\"\x7d"
    Value.ofJson text = .ok value ∧ Json.respelled text = .ok spelled ∧
      (value.holdsBlob = false ∧ value.depth ≤ 127 ∧ value.Canonical ∧ Value.ofJson value.toJson = .ok value) ∧
      Json.respelled spelled = .ok spelled := by
  intro text value spelled
  have found : Value.ofJson text = .ok value := by decide +kernel
  have done : Json.respelled text = .ok spelled := by decide +kernel
  obtain ⟨texts, rewrites, _⟩ := respelled_stable
  exact ⟨found, done, texts text value found, rewrites text spelled done⟩

end Proofs.StableDecoding

end RowAlgebra
