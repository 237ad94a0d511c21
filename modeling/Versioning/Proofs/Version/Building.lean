import Versioning.Proofs.Outcome
import Versioning.Proofs.Version.RoundTrip

namespace Versioning.Version

structure Checks {α : Type} (read : List Char → Except Error α) (valid : List Char → Bool)
    (fault : String → Error) : Prop where
  ok : ∀ t, (∃ i, read t = .ok i) ↔ valid t
  error : ∀ t e, read t = .error e ↔ ¬ valid t ∧ fault (String.ofList t) = e

theorem checks_readIdentifier : Checks readIdentifier isIdentifier .invalidIdentifier where
  ok t := by by_cases h : isIdentifier t <;> simp [readIdentifier, Identifier.ofChars?, h]
  error t e := by by_cases h : isIdentifier t <;> simp [readIdentifier, Identifier.ofChars?, h]

theorem checks_readMetadata : Checks readMetadata isItem .invalidMetadata where
  ok t := by by_cases h : isItem t <;> simp [readMetadata, BuildItem.ofChars?, h]
  error t e := by by_cases h : isItem t <;> simp [readMetadata, BuildItem.ofChars?, h]

namespace Checks

variable {α : Type} {read : List Char → Except Error α} {valid : List Char → Bool}
  {fault : String → Error} {ts : List (List Char)}

theorem exists_mapM_eq_ok_iff (h : Checks read valid fault) :
    (∃ is, ts.mapM read = .ok is) ↔ ∀ t ∈ ts, valid t := by
  rw [Versioning.exists_mapM_eq_ok_iff]
  simp only [h.ok]

theorem mapM_eq_error_iff (h : Checks read valid fault) {e : Error} :
    ts.mapM read = .error e ↔
      ∃ t, FirstFailing (fun u => valid u) ts t ∧ e = fault (String.ofList t) := by
  rw [Versioning.mapM_eq_error_iff h.ok]
  constructor
  · rintro ⟨t, ht, he⟩
    exact ⟨t, ht, ((h.error t e).mp he).2.symm⟩
  · rintro ⟨t, ht, rfl⟩
    exact ⟨t, ht, (h.error t _).mpr ⟨ht.not_self, rfl⟩⟩

end Checks

theorem ofLabels_eq_error_iff {major minor patch : UInt64}
    {identifiers metadata : List (List Char)} {e : Error} :
    ofLabels major minor patch identifiers metadata = .error e ↔
      (∃ t, FirstFailing (fun u => isIdentifier u) identifiers t ∧
          e = .invalidIdentifier (String.ofList t)) ∨
        (∀ t ∈ identifiers, isIdentifier t) ∧
          ∃ t, FirstFailing (fun u => isItem u) metadata t ∧
            e = .invalidMetadata (String.ofList t) := by
  have hlast (is : List Identifier) : (metadata.mapM readMetadata >>= fun ms =>
      (pure ⟨major, minor, patch, is, ms⟩ : Except Error Version)) = .error e ↔
      metadata.mapM readMetadata = .error e := by
    rw [bind_eq_error_iff]
    simp [pure, Except.pure]
  rw [ofLabels, bind_eq_error_iff, checks_readIdentifier.mapM_eq_error_iff,
    ← checks_readIdentifier.exists_mapM_eq_ok_iff, ← checks_readMetadata.mapM_eq_error_iff]
  simp only [hlast, exists_and_right]

def labelText (mark : Char) (labels : List String) : String :=
  if labels = [] then "" else String.singleton mark ++ ".".intercalate labels

def spelled (major minor patch : UInt64) (identifiers metadata : List String) : String :=
  toString major ++ "." ++ toString minor ++ "." ++ toString patch ++ labelText '-' identifiers ++
    labelText '+' metadata

theorem toList_labelText (mark : Char) (labels : List String) :
    (labelText mark labels).toList = Parts.labelled mark (labels.map String.toList) := by
  cases labels with
  | nil => rfl
  | cons label labels =>
    rw [labelText, if_neg (List.cons_ne_nil _ _), String.toList_append, String.toList_singleton,
      String.toList_intercalate]
    rfl

theorem unmarked_strict (t : List Char) : unmarked .strict t = t := rfl

variable {major minor patch : UInt64} {identifiers metadata : List String}

theorem spelled_eq : spelled major minor patch identifiers metadata =
    String.ofList (Parts.join ⟨[number major, number minor, number patch],
      identifiers.map String.toList, metadata.map String.toList⟩) := by
  have hnumber (n : UInt64) : (toString n).toList = number n := String.toList_ofList
  have hdot : ".".toList = ['.'] := rfl
  apply String.toList_injective
  simp only [spelled, String.toList_append, String.toList_ofList, toList_labelText, hnumber, hdot]
  simp [Parts.join, Parts.dotted]

theorem parse_spelled (hi : ∀ t ∈ identifiers, ∀ c ∈ t.toList, isItemChar c)
    (hm : ∀ t ∈ metadata, ∀ c ∈ t.toList, isItemChar c ∨ c = '+') :
    parse .strict (spelled major minor patch identifiers metadata) =
      ofLabels major minor patch (identifiers.map String.toList) (metadata.map String.toList) := by
  let p : Parts := ⟨[number major, number minor, number patch], identifiers.map String.toList,
    metadata.map String.toList⟩
  have hi : ∀ t ∈ p.identifiers, ∀ c ∈ t, isItemChar c := List.forall_mem_map.mpr hi
  have hm : ∀ t ∈ p.metadata, ∀ c ∈ t, isItemChar c ∨ c = '+' := List.forall_mem_map.mpr hm
  have hsep : p.Separable := {
    core_ne_nil := List.cons_ne_nil _ _
    core := (release major minor patch).separable_parts.core
    identifiers := fun t ht => ⟨not_mem_of_class (hi t ht) (by decide),
      not_mem_of_class (hi t ht) (by decide)⟩
    metadata := fun t ht hdot => absurd (hm t ht '.' hdot) (by decide) }
  have hchars : ∀ c ∈ p.join, isVersionChar c := by
    apply Parts.forall_mem_join (by decide) (by decide) (by decide)
    · exact fun t ht c hc => isVersionChar_of_isDigit
        (isDigit_of_mem_core (v := release major minor patch) t ht c hc)
    · exact fun t ht c hc => isVersionChar_iff.mpr (.inl (hi t ht c hc))
    · intro t ht c hc
      rcases hm t ht c hc with hc | rfl
      · exact isVersionChar_iff.mpr (.inl hc)
      · decide
  have hne : p.join ≠ [] := by simp [p, Parts.join, Parts.dotted]
  rw [spelled_eq, parse_ofList .strict hne hchars, unmarked_strict, Parts.cut_join hsep,
    ofParts_numbers]

theorem build_eq_parse (major minor patch : UInt64) {identifiers metadata : List String}
    (hi : ∀ t ∈ identifiers, ∀ c ∈ t.toList, isItemChar c)
    (hm : ∀ t ∈ metadata, ∀ c ∈ t.toList, isItemChar c ∨ c = '+') :
    build major minor patch identifiers metadata =
      parse .strict (spelled major minor patch identifiers metadata) := by
  rw [parse_spelled hi hm, build]

theorem build_eq_parse_faulty :
    (∀ t ∈ ["0-", "", "01"], ∀ c ∈ t.toList, isItemChar c) ∧
      (∀ t ∈ ["a+b", ""], ∀ c ∈ t.toList, isItemChar c ∨ c = '+') ∧
      spelled 0 18446744073709551615 7 ["0-", "", "01"] ["a+b", ""] =
        "0.18446744073709551615.7-0-..01+a+b." ∧
      build 0 18446744073709551615 7 ["0-", "", "01"] ["a+b", ""] =
        parse .strict "0.18446744073709551615.7-0-..01+a+b." ∧
      build 0 18446744073709551615 7 ["0-", "", "01"] ["a+b", ""] =
        .error (.invalidIdentifier "") ∧
      spelled 1 0 0 [] ["a+b", ""] = "1.0.0+a+b." ∧
      build 1 0 0 [] ["a+b", ""] = parse .strict "1.0.0+a+b." ∧
      build 1 0 0 [] ["a+b", ""] = .error (.invalidMetadata "a+b") := by
  have hi : ∀ t ∈ ["0-", "", "01"], ∀ c ∈ t.toList, isItemChar c := by
    simpa using by decide
  have hm : ∀ t ∈ ["a+b", ""], ∀ c ∈ t.toList, isItemChar c ∨ c = '+' := by
    simpa using by decide
  have hlong : spelled 0 18446744073709551615 7 ["0-", "", "01"] ["a+b", ""] =
      "0.18446744073709551615.7-0-..01+a+b." := rfl
  have hshort : spelled 1 0 0 [] ["a+b", ""] = "1.0.0+a+b." := rfl
  refine ⟨hi, hm, hlong, ?_, rfl, hshort, ?_, rfl⟩
  · rw [← hlong]
    exact build_eq_parse 0 18446744073709551615 7 hi hm
  · rw [← hshort]
    exact build_eq_parse 1 0 0 (by simp) hm

end Versioning.Version
