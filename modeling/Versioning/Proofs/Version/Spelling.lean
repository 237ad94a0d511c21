import Versioning.Proofs.Outcome
import Versioning.Proofs.Version.Grammar

/-!
Every version has one spelling. Joining undoes cutting for every text, and a part is read only from
the text that it would be written as. So a text reads as a version just when it is the rendered form
of that version, with blanks around it and, where the mode allows one, a mark in front.
-/

namespace Versioning.Version

namespace Parts

theorem labelled_splitOn (mark : Char) (t : List Char) :
    labelled mark (t.splitOn '.') = mark :: t := by
  have hd : dotted (t.splitOn '.') = t := List.intercalate_splitOn '.'
  cases hs : t.splitOn '.' with
  | nil => exact absurd hs (List.splitOn_ne_nil '.' t)
  | cons item items =>
    rw [labelled, ← hs, hd]
    exact List.cons_ne_nil item items

theorem append_labelled_cut (mark : Char) (t : List Char) :
    (Text.cut mark t).1 ++ labelled mark (undotted (Text.cut mark t).2) = t := by
  by_cases h : mark ∈ t
  · obtain ⟨u, rest, rfl, hu⟩ := List.eq_append_cons_of_mem h
    rw [Text.cut_append hu]
    exact congrArg (u ++ ·) (labelled_splitOn mark rest)
  · rw [Text.cut_of_not_mem h]
    exact List.append_nil t

theorem join_cut (t : List Char) : (cut t).join = t := by
  let head := (Text.cut '+' t).1
  calc (cut t).join
      = dotted ((Text.cut '-' head).1.splitOn '.') ++
          labelled '-' (undotted (Text.cut '-' head).2) ++
          labelled '+' (undotted (Text.cut '+' t).2) := rfl
    _ = (Text.cut '-' head).1 ++ labelled '-' (undotted (Text.cut '-' head).2) ++
          labelled '+' (undotted (Text.cut '+' t).2) := by
        rw [dotted, List.intercalate_splitOn]
    _ = head ++ labelled '+' (undotted (Text.cut '+' t).2) := by rw [append_labelled_cut]
    _ = t := append_labelled_cut '+' t

end Parts

theorem number_of_readNumber {field : Field} {t : List Char} {n : UInt64}
    (h : readNumber field t = .ok n) : number n = t := by
  unfold readNumber at h
  split at h
  · contradiction
  next hn =>
    split at h
    · contradiction
    next hz =>
      split at h
      next hlt =>
        cases h
        have hn : Decimal.isNumeric t := by simpa using hn
        have hz : Decimal.hasLeadingZero t = false := by simpa using hz
        exact (eq_number hn hz (by simp)).symm
      · contradiction

theorem chars_of_readIdentifier (t : List Char) (i : Identifier)
    (h : readIdentifier t = .ok i) : i.chars = t := by
  unfold readIdentifier Identifier.ofChars? at h
  split at h
  · cases h
    rfl
  · contradiction

theorem chars_of_readMetadata (t : List Char) (i : BuildItem)
    (h : readMetadata t = .ok i) : i.chars = t := by
  unfold readMetadata BuildItem.ofChars? at h
  split at h
  · cases h
    rfl
  · contradiction

theorem parts_of_ofParts {p : Parts} {v : Version} (h : ofParts p = .ok v) : v.parts = p := by
  unfold ofParts at h
  split at h
  next x y z hcore =>
    obtain ⟨major, hx, h⟩ := bind_eq_ok h
    obtain ⟨minor, hy, h⟩ := bind_eq_ok h
    obtain ⟨patch, hz, h⟩ := bind_eq_ok h
    obtain ⟨identifiers, hi, h⟩ := bind_eq_ok h
    obtain ⟨metadata, hm, h⟩ := bind_eq_ok h
    cases h
    have hcore' : [number major, number minor, number patch] = p.core := by
      rw [hcore, number_of_readNumber hx, number_of_readNumber hy, number_of_readNumber hz]
    have hi' := map_of_mapM_eq_ok chars_of_readIdentifier hi
    have hm' := map_of_mapM_eq_ok chars_of_readMetadata hm
    rw [parts, hcore', hi', hm']
  · contradiction

theorem exists_mark (mode : Mode) (t : List Char) :
    ∃ p, MarkText mode p ∧ t = p ++ unmarked mode t := by
  unfold unmarked
  split
  · exact ⟨['v'], .lower, rfl⟩
  · exact ⟨['V'], .upper, rfl⟩
  · exact ⟨[], .none _, rfl⟩

theorem unmarked_append_join {mode : Mode} {p : List Char} (hp : MarkText mode p) (v : Version) :
    unmarked mode (p ++ v.parts.join) = v.parts.join := by
  cases hp with
  | none =>
    obtain ⟨d, t, hd, hj⟩ := join_eq_cons v
    rw [List.nil_append, hj, unmarked_cons hd]
  | lower => rfl
  | upper => rfl

theorem isVersionChar_of_mem_mark {mode : Mode} {p : List Char} (hp : MarkText mode p) :
    ∀ c ∈ p, isVersionChar c := by
  cases hp with
  | none => simp
  | lower => simpa using by decide
  | upper => simpa using by decide

theorem parse_eq_ok_iff {mode : Mode} {s : String} {v : Version} :
    parse mode s = .ok v ↔ ∃ p, MarkText mode p ∧ Text.trim s.toList = p ++ v.parts.join := by
  constructor
  · intro h
    unfold parse at h
    split at h
    · contradiction
    · split at h
      · contradiction
      · obtain ⟨p, hp, ht⟩ := exists_mark mode (Text.trim s.toList)
        refine ⟨p, hp, ?_⟩
        rw [parts_of_ofParts h, Parts.join_cut]
        exact ht
  · rintro ⟨p, hp, ht⟩
    have hn : Text.trim s.toList ≠ [] := by
      obtain ⟨d, t, -, hj⟩ := join_eq_cons v
      simp [ht, hj]
    have hc : ∀ c ∈ Text.trim s.toList, isVersionChar c := by
      rw [ht]
      intro c hc
      rcases List.mem_append.mp hc with hc | hc
      · exact isVersionChar_of_mem_mark hp c hc
      · exact isVersionChar_of_mem_join v c hc
    rw [parse_of_trim mode hn hc, ht, unmarked_append_join hp, Parts.cut_join v.separable_parts,
      ofParts_parts]

theorem parse_eq_ok_iff_semVerText (mode : Mode) (s : String) :
    (∀ v, parse mode s = .ok v ↔ ∃ t, Text.Trimmed s.toList t ∧
        SemVerText mode v.major.toNat v.minor.toNat v.patch.toNat
          (v.identifiers.map Identifier.chars) (v.metadata.map BuildItem.chars) t) ∧
      ((∃ v, parse mode s = .ok v) ↔ ∃ t major minor patch identifiers metadata,
        Text.Trimmed s.toList t ∧ SemVerText mode major minor patch identifiers metadata t) := by
  have hiff (v : Version) : parse mode s = .ok v ↔ ∃ t, Text.Trimmed s.toList t ∧
      SemVerText mode v.major.toNat v.minor.toNat v.patch.toNat v.parts.identifiers
        v.parts.metadata t := by
    simp only [parse_eq_ok_iff, semVerText_iff, Text.trimmed_iff, exists_eq_left']
  refine ⟨hiff, ?_⟩
  constructor
  · rintro ⟨v, hv⟩
    obtain ⟨t, ht, h⟩ := (hiff v).mp hv
    exact ⟨t, _, _, _, _, _, ht, h⟩
  · rintro ⟨t, major, minor, patch, identifiers, metadata, ht, h⟩
    obtain ⟨v, rfl, rfl, rfl, rfl, rfl⟩ := h.exists_version
    exact ⟨v, (hiff v).mpr ⟨t, ht, h⟩⟩

/-- What reads as a version is its rendered form, once blanks around it are gone and a mark in front
where one may stand. So two texts read strictly as one version just when they are trimmed alike. -/
theorem spelling_unique :
    (∀ s v, parse .strict s = .ok v ↔ Text.Trimmed s.toList v.render.toList) ∧
      (∀ s v, parse .lenient s = .ok v ↔
        ∃ p, MarkText .lenient p ∧ Text.Trimmed s.toList (p ++ v.render.toList)) ∧
      ∀ s t v w, parse .strict s = .ok v → parse .strict t = .ok w →
        (v = w ↔ Text.trim s.toList = Text.trim t.toList) := by
  have hspell (mode : Mode) (s : String) (v : Version) : parse mode s = .ok v ↔
      ∃ p, MarkText mode p ∧ Text.Trimmed s.toList (p ++ v.render.toList) := by
    simp only [parse_eq_ok_iff, Text.trimmed_iff, render, String.toList_ofList]
  have hstrict (s : String) (v : Version) :
      parse .strict s = .ok v ↔ Text.Trimmed s.toList v.render.toList := by
    rw [hspell]
    constructor
    · rintro ⟨p, ⟨⟩, ht⟩
      rwa [List.nil_append] at ht
    · intro ht
      exact ⟨[], .none .strict, by rwa [List.nil_append]⟩
  refine ⟨hstrict, hspell .lenient, ?_⟩
  intro s t v w hs ht
  have hv := ((hstrict s v).mp hs).eq
  have hw := ((hstrict t w).mp ht).eq
  constructor
  · rintro rfl
    rw [hv, hw]
  · intro he
    apply render_injective
    apply String.toList_injective
    rw [← hv, ← hw, he]

theorem spelling_unique_padded :
    parse .strict " 1.0.0-0a" = .ok ⟨1, 0, 0, [⟨['0', 'a'], rfl⟩], []⟩ ∧
      parse .strict "1.0.0-0a\n" = .ok ⟨1, 0, 0, [⟨['0', 'a'], rfl⟩], []⟩ ∧
      Text.trim " 1.0.0-0a".toList = Text.trim "1.0.0-0a\n".toList :=
  ⟨rfl, rfl, (spelling_unique.2.2 " 1.0.0-0a" "1.0.0-0a\n" _ _ rfl rfl).mp rfl⟩

end Versioning.Version
