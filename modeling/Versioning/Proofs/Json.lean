import Versioning.Proofs.Range.RoundTrip
import Versioning.Proofs.WellFormed

namespace Versioning

namespace Json

variable {ε α : Type} {parse : String → Except ε α}

theorem decode_string (s : String) : decode parse (.string s) = (parse s).mapError .refused :=
  rfl

theorem decode_string_eq_ok_iff {s : String} {x : α} :
    decode parse (.string s) = .ok x ↔ parse s = .ok x := by
  rw [decode_eq_ok_iff]
  simp

theorem mapError_decode_string (wording : ε → String) (s : String) :
    (decode parse (.string s)).mapError (Error.message wording) = (parse s).mapError wording := by
  rw [decode_string]
  cases parse s <;> rfl

end Json

namespace Version

theorem ofJson_toJson (v : Version) : ofJson v.toJson = .ok v :=
  Json.decode_string_eq_ok_iff.mpr (v.parse_render .strict)

theorem toJson_of_ofJson {s : String} {v : Version} (h : ofJson (.string s) = .ok v) :
    v.toJson = .string (String.ofList (Text.trim s.toList)) := by
  obtain ⟨p, hp, ht⟩ := parse_eq_ok_iff.mp (Json.decode_string_eq_ok_iff.mp h)
  cases hp
  rw [ht, List.nil_append, toJson, render]

end Version

namespace Range

theorem ofJson_toJson (r : Range) : ofJson r.toJson = .ok r :=
  Json.decode_string_eq_ok_iff.mpr r.parse_render

end Range

/-- A JSON value is read as a version, or as a range, just when it is a text that the reader takes,
and a text that it refuses is refused in its own words. Whatever is stored is read back. A version
that was read is stored as its text without the blanks around it, and a range that was read is
stored as it would be after any further reading. -/
theorem stored_form_faithful :
    (∀ j v, Version.ofJson j = .ok v ↔ ∃ s, j = .string s ∧ Version.parse .strict s = .ok v) ∧
      (∀ j r, Range.ofJson j = .ok r ↔ ∃ s, j = .string s ∧ Range.parse s = .ok r) ∧
      (∀ s, (Version.ofJson (.string s)).mapError (Json.Error.message Version.Error.message) =
        (Version.parse .strict s).mapError Version.Error.message) ∧
      (∀ s, (Range.ofJson (.string s)).mapError (Json.Error.message Range.Error.message) =
        (Range.parse s).mapError Range.Error.message) ∧
      (∀ v : Version, Version.ofJson v.toJson = .ok v) ∧
      (∀ r : Range, Range.ofJson r.toJson = .ok r) ∧
      (∀ s v, Version.ofJson (.string s) = .ok v →
        v.toJson = .string (String.ofList (Text.trim s.toList))) ∧
      ∀ s r, Range.ofJson (.string s) = .ok r →
        (Range.ofJson r.toJson).map Range.toJson = .ok r.toJson := by
  refine ⟨fun _ _ => Json.decode_eq_ok_iff, fun _ _ => Json.decode_eq_ok_iff,
    Json.mapError_decode_string Version.Error.message,
    Json.mapError_decode_string Range.Error.message, Version.ofJson_toJson, Range.ofJson_toJson,
    fun _ _ => Version.toJson_of_ofJson, fun s r _ => ?_⟩
  rw [Range.ofJson_toJson]
  rfl

theorem stored_form_faithful_respaced :
    Version.ofJson (.string "\u30001.0.0-0a+01\n") =
        .ok ⟨1, 0, 0, [⟨['0', 'a'], rfl⟩], [⟨['0', '1'], rfl⟩]⟩ ∧
      Version.toJson ⟨1, 0, 0, [⟨['0', 'a'], rfl⟩], [⟨['0', '1'], rfl⟩]⟩ =
        .string (String.ofList (Text.trim "\u30001.0.0-0a+01\n".toList)) ∧
      Range.ofJson (.string " v1.0.0\t||1.0.0 ") =
        .ok ⟨[[⟨.equal, .release 1 0 0⟩], [⟨.equal, .release 1 0 0⟩]], by decide, by decide⟩ ∧
      (Range.ofJson (.string "=1.0.0 || =1.0.0")).map Range.toJson =
        .ok (.string "=1.0.0 || =1.0.0") := by
  obtain ⟨-, -, -, -, -, -, hversion, hrange⟩ := stored_form_faithful
  have hv : Version.ofJson (.string "\u30001.0.0-0a+01\n") =
      .ok ⟨1, 0, 0, [⟨['0', 'a'], rfl⟩], [⟨['0', '1'], rfl⟩]⟩ := rfl
  have hr : Range.ofJson (.string " v1.0.0\t||1.0.0 ") =
      .ok ⟨[[⟨.equal, .release 1 0 0⟩], [⟨.equal, .release 1 0 0⟩]], by decide, by decide⟩ := rfl
  exact ⟨hv, hversion _ _ hv, hr, hrange _ _ hr⟩

end Versioning
