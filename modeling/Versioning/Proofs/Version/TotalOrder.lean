import Versioning.Proofs.Version.Precedence
import Versioning.Version.Sorting

namespace Versioning

theorem BuildItem.chars_injective : Function.Injective BuildItem.chars := by
  rintro ⟨a, ha⟩ ⟨b, hb⟩ h
  simpa using h

namespace Version

theorem eq_of_compareIdentifiers {as bs : List Identifier} (h : compareIdentifiers as bs = .eq) :
    as = bs := by
  induction as generalizing bs with
  | nil => cases bs with
    | nil => rfl
    | cons b bs => contradiction
  | cons a as ih => cases bs with
    | nil => contradiction
    | cons b bs =>
      unfold compareIdentifiers at h
      split at h
      · next hab => rw [hab, ih h]
      · next hab =>
        rw [Identifier.precedence_eq_order] at h
        exact absurd (Identifier.eq_of_order_eq h) hab

theorem comparePrerelease_eq_eq_iff {as bs : List Identifier} :
    comparePrerelease as bs = .eq ↔ as = bs := by
  constructor
  · intro h
    cases as <;> cases bs
    · rfl
    · contradiction
    · contradiction
    · exact eq_of_compareIdentifiers h
  · rintro rfl
    exact Std.ReflCmp.compare_self

theorem precedence_eq_eq_iff {a b : Version} : a.precedence b = .eq ↔ a.Equivalent b := by
  simp only [precedence, Ordering.then_eq_eq, Std.LawfulEqOrd.compare_eq_iff_eq,
    comparePrerelease_eq_eq_iff, Equivalent]

theorem compareMetadata_eq_eq_iff {a b : Version} :
    a.compareMetadata b = .eq ↔ a.metadata = b.metadata := by
  rw [compareMetadata, Std.LawfulEqOrd.compare_eq_iff_eq,
    (List.map_injective_iff.mpr BuildItem.chars_injective).eq_iff]

theorem compare_eq (a b : Version) :
    compare a b = (a.precedence b).then (a.compareMetadata b) :=
  rfl

theorem eq_iff_equivalent_and_metadata {a b : Version} :
    a = b ↔ a.Equivalent b ∧ a.metadata = b.metadata := by
  cases a
  cases b
  simp only [Equivalent, mk.injEq, and_assoc]

instance : Std.TransCmp compareMetadata :=
  inferInstanceAs (Std.TransCmp (compareOn fun v : Version => v.metadata.map BuildItem.chars))

instance : Std.TransOrd Version :=
  inferInstanceAs (Std.TransCmp (compareLex precedence compareMetadata))

instance : Std.LawfulEqOrd Version where
  eq_of_compare {a b} h := by
    obtain ⟨hp, hm⟩ := Ordering.then_eq_eq.mp h
    exact eq_iff_equivalent_and_metadata.mpr
      ⟨precedence_eq_eq_iff.mp hp, compareMetadata_eq_eq_iff.mp hm⟩

instance : Std.LawfulOrderOrd Version where
  isLE_compare _ _ := Iff.rfl
  isGE_compare _ _ := Std.OrientedCmp.isGE_iff_isLE

theorem compare_eq_ite (a b : Version) :
    compare a b = if a.Equivalent b then a.compareMetadata b else a.precedence b := by
  rw [compare_eq]
  split
  · next h => rw [precedence_eq_eq_iff.mpr h, Ordering.eq_then]
  · next h =>
    have hne : a.precedence b ≠ .eq := fun he => h (precedence_eq_eq_iff.mp he)
    cases hp : a.precedence b with
    | eq => contradiction
    | lt => rfl
    | gt => rfl

theorem compare_of_precedence_lt {a b : Version} (h : a.precedence b = .lt) :
    compare a b = .lt := by
  rw [compare_eq, h, Ordering.lt_then]

/-- Precedence ties the equivalent versions and no others. The order is linear, agrees with
precedence where that decides, and leaves what is equivalent to the metadata. -/
theorem order_agrees_with_equality :
    (∀ a b : Version, a.precedence b = .eq ↔ a.Equivalent b) ∧
      (∀ a b : Version, compare a b = .eq ↔ a = b) ∧
      (∀ a b : Version, a.precedence b = .lt → compare a b = .lt) ∧
      TotalPreorder (compare : Version → Version → Ordering) ∧ Std.IsLinearOrder Version ∧
      ∀ a b : Version,
        compare a b = if a.Equivalent b then a.compareMetadata b else a.precedence b :=
  ⟨fun _ _ => precedence_eq_eq_iff, fun _ _ => Std.LawfulEqOrd.compare_eq_iff_eq,
    fun _ _ => compare_of_precedence_lt, totalPreorder_of_transCmp _, .of_ord, compare_eq_ite⟩

theorem order_agrees_with_equality_candidate :
    precedence ⟨1, 0, 0, [⟨['r', 'c'], by decide⟩], [⟨['2'], by decide⟩]⟩
        ⟨1, 0, 0, [], [⟨['1'], by decide⟩]⟩ = .lt ∧
      compare (⟨1, 0, 0, [⟨['r', 'c'], by decide⟩], [⟨['2'], by decide⟩]⟩ : Version)
        ⟨1, 0, 0, [], [⟨['1'], by decide⟩]⟩ = .lt :=
  ⟨rfl, order_agrees_with_equality.2.2.1 _ _ rfl⟩

end Version

end Versioning
