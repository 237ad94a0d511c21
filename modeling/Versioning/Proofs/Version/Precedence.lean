import Mathlib.Data.List.Basic
import Versioning.Proofs.Text
import Versioning.Proofs.Decimal
import Versioning.Version.Basic

/-!
Precedence agrees with an order by value: identifiers count as natural numbers or as byte strings,
and lists of them compare lexicographically. The laws of a total preorder follow from there.
-/

namespace Versioning

/-- What an identifier counts as: the number that its digits denote, or the bytes of its text. -/
inductive Rank
  | number (n : Nat)
  | word (bytes : List UInt8)

namespace Rank

def order : Rank → Rank → Ordering
  | .number m, .number n => compare m n
  | .number _, .word _ => .lt
  | .word _, .number _ => .gt
  | .word a, .word b => compare a b

instance : Std.TransCmp order where
  eq_swap {a b} := by
    cases a <;> cases b <;> first | exact Std.OrientedOrd.eq_swap | rfl
  isLE_trans {a b c} hab hbc := by
    cases a <;> cases b <;> cases c
    all_goals first
      | exact Std.TransOrd.isLE_trans hab hbc
      | rfl
      | contradiction

end Rank

theorem isItem_of_isNumeric {t : List Char} (h : Decimal.isNumeric t) : isItem t := by
  obtain ⟨hn, hc⟩ := Decimal.isNumeric_iff.mp h
  rw [isItem, Bool.and_eq_true, Bool.not_eq_true', List.isEmpty_eq_false_iff, List.all_eq_true]
  exact ⟨hn, fun c hm => isItemChar_of_isDigit (hc c hm)⟩

theorem isIdentifier_iff_of_isNumeric {t : List Char} (h : Decimal.isNumeric t) :
    isIdentifier t ↔ Decimal.hasLeadingZero t = false := by
  rw [isIdentifier, isItem_of_isNumeric h, h, Bool.true_and, Bool.true_and, Bool.not_eq_true']

namespace Identifier

def rank (i : Identifier) : Rank :=
  if i.isNumeric then .number (Decimal.value i.chars) else .word i.text.toUTF8.data.toList

theorem hasLeadingZero_chars (i : Identifier) (h : i.isNumeric) :
    Decimal.hasLeadingZero i.chars = false :=
  (isIdentifier_iff_of_isNumeric h).mp i.valid

theorem bytes_text (i : Identifier) :
    i.text.toUTF8.data.toList = i.chars.map fun c => c.val.toUInt8 := by
  rw [text, String.toUTF8_eq_toByteArray, String.toByteArray_ofList, List.utf8Encode,
    List.toList_data_toByteArray, List.map_eq_flatMap]
  apply List.flatMap_congr
  intro c hc
  exact String.utf8EncodeChar_eq_singleton (utf8Size_of_isItemChar (i.isItemChar_of_mem c hc))

theorem compare_bytes (a b : Identifier) :
    compare a.text.toUTF8.data.toList b.text.toUTF8.data.toList = compare a.chars b.chars := by
  rw [bytes_text, bytes_text]
  apply compare_map
  intro c hc d hd
  have hc := toNat_lt_of_isItemChar (a.isItemChar_of_mem c hc)
  have hd := toNat_lt_of_isItemChar (b.isItemChar_of_mem d hd)
  have small {e : Char} (he : e.toNat < 128) : e.val.toUInt8.toNat = e.toNat := by
    rw [UInt32.toNat_toUInt8]
    change e.toNat % 256 = e.toNat
    omega
  rw [compare_byte, compare_char, small hc, small hd]

theorem precedence_eq_order (a b : Identifier) : a.precedence b = Rank.order a.rank b.rank := by
  unfold precedence rank
  split
  · next ha hb =>
    simp only [ha, hb]
    exact Decimal.compareDigits_eq (Decimal.isDigit_of_isNumeric ha) (Decimal.isDigit_of_isNumeric hb)
  · next ha hb => simp [ha, hb, Rank.order]
  · next ha hb => simp [ha, hb, Rank.order]
  · next ha hb => simpa [ha, hb, Rank.order] using (compare_bytes a b).symm

theorem eq_of_chars_eq {a b : Identifier} (h : a.chars = b.chars) : a = b := by
  cases a
  cases b
  simpa using h

theorem eq_of_order_eq {a b : Identifier} (h : Rank.order a.rank b.rank = .eq) : a = b := by
  apply eq_of_chars_eq
  -- Numbers of one value have one spelling, as no identifier has a zero in front.
  unfold rank at h
  split at h
  · next ha =>
    split at h
    · next hb =>
      exact Decimal.eq_of_value_eq ha hb (a.hasLeadingZero_chars ha) (b.hasLeadingZero_chars hb)
        (Nat.compare_eq_eq.mp h)
    · contradiction
  · split at h
    · contradiction
    · exact Std.LawfulEqOrd.eq_of_compare ((compare_bytes a b).symm.trans h)

end Identifier

namespace Version

theorem compareIdentifiers_eq (as bs : List Identifier) :
    compareIdentifiers as bs =
      List.compareLex Rank.order (as.map Identifier.rank) (bs.map Identifier.rank) := by
  induction as generalizing bs with
  | nil => cases bs <;> rfl
  | cons a as ih =>
    cases bs with
    | nil => rfl
    | cons b bs =>
      rw [List.map_cons, List.map_cons, List.compareLex_cons_cons]
      by_cases h : a = b
      · subst h
        have hs : Rank.order a.rank a.rank = .eq := Std.ReflCmp.compare_self
        rw [compareIdentifiers, if_pos rfl, ih, hs, Ordering.eq_then]
      · have hne : Rank.order a.rank b.rank ≠ .eq := fun he => h (Identifier.eq_of_order_eq he)
        rw [compareIdentifiers, if_neg h, Identifier.precedence_eq_order]
        cases ho : Rank.order a.rank b.rank with
        | lt => rfl
        | eq => exact absurd ho hne
        | gt => rfl

def prereleaseOrder : List Rank → List Rank → Ordering
  | [], [] => .eq
  | [], _ :: _ => .gt
  | _ :: _, [] => .lt
  | as, bs => List.compareLex Rank.order as bs

instance : Std.TransCmp prereleaseOrder where
  eq_swap {as bs} := by
    cases as <;> cases bs
    · rfl
    · rfl
    · rfl
    · exact @Std.OrientedCmp.eq_swap _ (List.compareLex Rank.order) _ _ _
  isLE_trans {as bs cs} hab hbc := by
    cases as <;> cases bs <;> cases cs
    all_goals first
      | exact @Std.TransCmp.isLE_trans _ (List.compareLex Rank.order) _ _ _ _ hab hbc
      | rfl
      | contradiction

theorem comparePrerelease_eq (as bs : List Identifier) :
    comparePrerelease as bs = prereleaseOrder (as.map Identifier.rank) (bs.map Identifier.rank) := by
  cases as <;> cases bs
  · rfl
  · rfl
  · rfl
  · exact compareIdentifiers_eq _ _

instance : Std.TransCmp comparePrerelease := by
  have he : comparePrerelease = fun as bs =>
      prereleaseOrder (as.map Identifier.rank) (bs.map Identifier.rank) := by
    funext as bs
    exact comparePrerelease_eq as bs
  rw [he]
  exact transCmp_comap (List.map Identifier.rank) prereleaseOrder

instance : Std.TransCmp precedence :=
  have := transCmp_comap identifiers comparePrerelease
  inferInstanceAs (Std.TransCmp (compareLex (compareOn major) (compareLex (compareOn minor)
    (compareLex (compareOn patch) fun a b => comparePrerelease a.identifiers b.identifiers))))

instance : Std.TransCmp precedence? where
  eq_swap {x y} := by
    cases x <;> cases y
    · rfl
    · rfl
    · rfl
    · exact @Std.OrientedCmp.eq_swap _ precedence _ _ _
  isLE_trans {x y z} hxy hyz := by
    cases x <;> cases y <;> cases z
    all_goals first
      | exact @Std.TransCmp.isLE_trans _ precedence _ _ _ _ hxy hyz
      | rfl
      | contradiction

def least : Version :=
  ⟨0, 0, 0, [⟨['0'], by decide⟩], []⟩

theorem isLE_order_zero (r : Rank) : (Rank.order (.number 0) r).isLE := by
  cases r with
  | number n => exact Nat.isLE_compare.mpr (Nat.zero_le n)
  | word bytes => rfl

theorem isLE_prereleaseOrder_zero (rs : List Rank) : (prereleaseOrder [.number 0] rs).isLE := by
  cases rs with
  | nil => rfl
  | cons r rs =>
    rw [prereleaseOrder, List.compareLex_cons_cons]
    · exact isLE_then (isLE_order_zero r) List.isLE_compareLex_nil_left
    all_goals intros; contradiction

def lowest (major : UInt64) : Version :=
  ⟨major, 0, 0, [⟨['0'], by decide⟩], []⟩

theorem isLE_compare_zero (n : UInt64) : (compare 0 n).isLE := by
  rw [compare_uint64]
  exact Nat.isLE_compare.mpr (Nat.zero_le _)

theorem isLE_precedence_lowest {major : UInt64} {v : Version} (h : (compare major v.major).isLE) :
    ((lowest major).precedence v).isLE := by
  have hp : (comparePrerelease (lowest major).identifiers v.identifiers).isLE := by
    rw [comparePrerelease_eq]
    exact isLE_prereleaseOrder_zero _
  exact isLE_then h (isLE_then (isLE_compare_zero _) (isLE_then (isLE_compare_zero _) hp))

theorem isLE_precedence_least (v : Version) : (least.precedence v).isLE :=
  isLE_precedence_lowest (isLE_compare_zero _)

theorem precedence_lowest_eq_lt_iff {major : UInt64} {v : Version} :
    v.precedence (lowest major) = .lt ↔ v.major < major := by
  constructor
  · intro h
    by_contra hlt
    have hle : (compare major v.major).isLE := Std.isLE_compare.mpr (UInt64.not_lt.mp hlt)
    have hge := Std.OrientedCmp.isGE_iff_isLE.mpr (isLE_precedence_lowest hle)
    simp [h] at hge
  · intro h
    have hlt : compare v.major (lowest major).major = .lt := Std.compare_eq_lt.mpr h
    rw [precedence, hlt, Ordering.lt_then]

theorem precedence_preorder :
    TotalPreorder precedence ∧ TotalPreorder precedence? ∧
      (∀ a b, precedence? (some a) (some b) = a.precedence b) ∧
      (∀ v, precedence? none (some v) = .lt) ∧
      (∀ x, (∀ y, precedence? x y ≠ .gt) ↔ x = none) ∧
      ∀ v, least.precedence v ≠ .gt := by
  refine ⟨totalPreorder_of_transCmp _, totalPreorder_of_transCmp _, fun a b => rfl, fun v => rfl,
    ?_, fun v => Ordering.isLE_iff_ne_gt.mp (isLE_precedence_least v)⟩
  intro x
  constructor
  · intro h
    cases x with
    | none => rfl
    | some v => exact absurd rfl (h none)
  · rintro rfl y
    cases y <;> simp [precedence?]

def rankOrder (a b : Version) : Ordering :=
  (List.compareLex compare [a.major.toNat, a.minor.toNat, a.patch.toNat]
    [b.major.toNat, b.minor.toNat, b.patch.toNat]).then
    (prereleaseOrder (a.identifiers.map Identifier.rank) (b.identifiers.map Identifier.rank))

theorem precedence_eq_rankOrder (a b : Version) : a.precedence b = rankOrder a b := by
  unfold precedence rankOrder
  rw [compare_uint64, compare_uint64, compare_uint64, comparePrerelease_eq,
    List.compareLex_cons_cons, List.compareLex_cons_cons, List.compareLex_cons_cons,
    List.compareLex_nil_nil, Ordering.then_eq, Ordering.then_assoc, Ordering.then_assoc]

end Version

end Versioning
