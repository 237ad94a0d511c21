import Versioning.Proofs.Version.RoundTrip

namespace Versioning.Version

inductive MarkText : Mode → List Char → Prop
  | none (mode : Mode) : MarkText mode []
  | lower : MarkText .lenient ['v']
  | upper : MarkText .lenient ['V']

structure NumberText (n : Nat) (t : List Char) : Prop where
  ne_nil : t ≠ []
  isDigit : ∀ c ∈ t, c.isDigit
  canonical : t = ['0'] ∨ t.head? ≠ some '0'
  value : Decimal.value t = n
  bounded : n < UInt64.size

structure ItemText (t : List Char) : Prop where
  ne_nil : t ≠ []
  isItemChar : ∀ c ∈ t, isItemChar c

structure IdentifierText (t : List Char) : Prop where
  item : ItemText t
  canonical : ¬ ((∀ c ∈ t, c.isDigit) ∧ 1 < t.length ∧ t.head? = some '0')

inductive DottedText (item : List Char → Prop) : List (List Char) → List Char → Prop
  | one {t : List Char} (ht : item t) : DottedText item [t] t
  | cons {t u : List Char} {ts : List (List Char)} (ht : item t) (hu : DottedText item ts u) :
      DottedText item (t :: ts) (t ++ '.' :: u)

inductive LabelsText (mark : Char) (item : List Char → Prop) :
    List (List Char) → List Char → Prop
  | absent : LabelsText mark item [] []
  | present {ts : List (List Char)} {t : List Char} (ht : DottedText item ts t) :
      LabelsText mark item ts (mark :: t)

def SemVerText (mode : Mode) (major minor patch : Nat) (identifiers metadata : List (List Char))
    (t : List Char) : Prop :=
  ∃ p x y z i m, t = p ++ x ++ ['.'] ++ y ++ ['.'] ++ z ++ i ++ m ∧ MarkText mode p ∧
    NumberText major x ∧ NumberText minor y ∧ NumberText patch z ∧
    LabelsText '-' IdentifierText identifiers i ∧ LabelsText '+' ItemText metadata m

theorem isItem_iff {t : List Char} : isItem t ↔ ItemText t := by
  simp only [isItem, Bool.and_eq_true, Bool.not_eq_true', List.isEmpty_eq_false_iff,
    List.all_eq_true]
  constructor
  · rintro ⟨hn, hc⟩
    exact ⟨hn, hc⟩
  · rintro ⟨hn, hc⟩
    exact ⟨hn, hc⟩

theorem isIdentifier_iff {t : List Char} : isIdentifier t ↔ IdentifierText t := by
  have hz : Decimal.isNumeric t && Decimal.hasLeadingZero t ↔
      t ≠ [] ∧ (∀ c ∈ t, c.isDigit) ∧ 1 < t.length ∧ t.head? = some '0' := by
    rw [Bool.and_eq_true, Decimal.isNumeric_iff, Decimal.hasLeadingZero_iff, and_assoc]
  rw [isIdentifier, Bool.and_eq_true, isItem_iff, Bool.not_eq_true', ← Bool.not_eq_true, hz]
  constructor
  · rintro ⟨hi, hc⟩
    exact ⟨hi, fun h => hc ⟨hi.ne_nil, h⟩⟩
  · rintro ⟨hi, hc⟩
    exact ⟨hi, fun h => hc h.2⟩

theorem eq_number {n : UInt64} {t : List Char} (hn : Decimal.isNumeric t)
    (hz : Decimal.hasLeadingZero t = false) (hv : Decimal.value t = n.toNat) : t = number n := by
  rw [← Decimal.digits_value hn hz, hv, number]

theorem numberText_iff {n : UInt64} {t : List Char} : NumberText n.toNat t ↔ t = number n := by
  constructor
  · intro h
    apply eq_number (Decimal.isNumeric_iff.mpr ⟨h.ne_nil, h.isDigit⟩) _ h.value
    rw [← Bool.not_eq_true, Decimal.hasLeadingZero_iff]
    rintro ⟨hl, hz⟩
    rcases h.canonical with rfl | hc
    · simp at hl
    · exact hc hz
  · rintro rfl
    have hn := Decimal.isNumeric_iff.mp (Decimal.isNumeric_digits n.toNat)
    refine ⟨hn.1, hn.2, ?_, Decimal.value_digits n.toNat, n.toNat_lt⟩
    by_cases h : 0 < n.toNat
    · exact .inr (Decimal.head?_digits h)
    · have h0 : n.toNat = 0 := by omega
      left
      rw [number, h0]
      rfl

theorem dottedText_iff {item : List Char → Prop} {ts : List (List Char)} {t : List Char} :
    DottedText item ts t ↔ ts ≠ [] ∧ (∀ u ∈ ts, item u) ∧ t = Parts.dotted ts := by
  constructor
  · intro h
    induction h with
    | one ht => exact ⟨by simp, by simpa using ht, (Parts.dotted_singleton _).symm⟩
    | cons ht hu ih =>
      obtain ⟨hn, hall, rfl⟩ := ih
      exact ⟨by simp, by simpa using ⟨ht, hall⟩, (Parts.dotted_cons _ hn).symm⟩
  · rintro ⟨hn, hall, rfl⟩
    induction ts with
    | nil => contradiction
    | cons u ts ih =>
      have hu := hall u (by simp)
      by_cases hs : ts = []
      · subst hs
        rw [Parts.dotted_singleton]
        exact .one hu
      · rw [Parts.dotted_cons u hs]
        exact .cons hu (ih hs fun v hv => hall v (by simp [hv]))

theorem labelsText_iff {mark : Char} {item : List Char → Prop} {ts : List (List Char)}
    {t : List Char} : LabelsText mark item ts t ↔
      (∀ u ∈ ts, item u) ∧ t = Parts.labelled mark ts := by
  constructor
  · intro h
    cases h with
    | absent => simp [Parts.labelled]
    | present ht =>
      obtain ⟨hn, hall, rfl⟩ := dottedText_iff.mp ht
      refine ⟨hall, ?_⟩
      cases ts with
      | nil => contradiction
      | cons u ts => rfl
  · rintro ⟨hall, rfl⟩
    cases ts with
    | nil => exact .absent
    | cons u ts => exact .present (dottedText_iff.mpr ⟨by simp, hall, rfl⟩)

theorem semVerText_iff {mode : Mode} {v : Version} {t : List Char} :
    SemVerText mode v.major.toNat v.minor.toNat v.patch.toNat v.parts.identifiers v.parts.metadata
      t ↔ ∃ p, MarkText mode p ∧ t = p ++ v.parts.join := by
  have hids : ∀ u ∈ v.parts.identifiers, IdentifierText u := by
    intro u hu
    obtain ⟨i, -, rfl⟩ := List.mem_map.mp hu
    exact isIdentifier_iff.mp i.valid
  have hmeta : ∀ u ∈ v.parts.metadata, ItemText u := by
    intro u hu
    obtain ⟨i, -, rfl⟩ := List.mem_map.mp hu
    exact isItem_iff.mp i.valid
  have hjoin (p : List Char) : p ++ v.parts.join = p ++ number v.major ++ ['.'] ++ number v.minor ++
      ['.'] ++ number v.patch ++ Parts.labelled '-' v.parts.identifiers ++
      Parts.labelled '+' v.parts.metadata := by
    simp [Parts.join, Parts.dotted, parts]
  constructor
  · rintro ⟨p, x, y, z, i, m, rfl, hp, hx, hy, hz, hi, hm⟩
    refine ⟨p, hp, ?_⟩
    rw [hjoin, numberText_iff.mp hx, numberText_iff.mp hy, numberText_iff.mp hz,
      (labelsText_iff.mp hi).2, (labelsText_iff.mp hm).2]
  · rintro ⟨p, hp, rfl⟩
    exact ⟨p, _, _, _, _, _, hjoin p, hp, numberText_iff.mpr rfl, numberText_iff.mpr rfl,
      numberText_iff.mpr rfl, labelsText_iff.mpr ⟨hids, rfl⟩, labelsText_iff.mpr ⟨hmeta, rfl⟩⟩

theorem SemVerText.exists_version {mode : Mode} {major minor patch : Nat}
    {identifiers metadata : List (List Char)} {t : List Char}
    (h : SemVerText mode major minor patch identifiers metadata t) : ∃ v : Version,
      v.major.toNat = major ∧ v.minor.toNat = minor ∧ v.patch.toNat = patch ∧
        v.parts.identifiers = identifiers ∧ v.parts.metadata = metadata := by
  obtain ⟨p, x, y, z, i, m, -, -, hx, hy, hz, hi, hm⟩ := h
  have hids : ∀ u ∈ identifiers, isIdentifier u :=
    fun u hu => isIdentifier_iff.mpr ((labelsText_iff.mp hi).1 u hu)
  have hmeta : ∀ u ∈ metadata, isItem u :=
    fun u hu => isItem_iff.mpr ((labelsText_iff.mp hm).1 u hu)
  refine ⟨⟨.ofNatLT major hx.bounded, .ofNatLT minor hy.bounded, .ofNatLT patch hz.bounded,
    identifiers.pmap Identifier.mk hids, metadata.pmap BuildItem.mk hmeta⟩, by simp, by simp,
    by simp, ?_, ?_⟩
  · simp [parts, List.map_pmap]
  · simp [parts, List.map_pmap]

end Versioning.Version
