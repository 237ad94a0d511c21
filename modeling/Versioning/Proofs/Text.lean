import Mathlib.Data.List.Basic
import Mathlib.Data.List.TakeWhile
import Versioning.Version.Text

namespace Versioning.Text

structure Trimmed (s t : List Char) : Prop where
  padded : ∃ lead trail, s = lead ++ t ++ trail ∧ (∀ c ∈ lead, isBlank c) ∧ ∀ c ∈ trail, isBlank c
  head : ∀ c ∈ t.head?, ¬ isBlank c
  last : ∀ c ∈ t.getLast?, ¬ isBlank c

theorem dropWhile_blanks {w t : List Char} (hw : ∀ c ∈ w, isBlank c)
    (ht : ∀ c ∈ t.head?, ¬ isBlank c) : (w ++ t).dropWhile isBlank = t := by
  rw [List.dropWhile_append_of_pos hw]
  cases t with
  | nil => rfl
  | cons c t => exact List.dropWhile_cons_of_neg (ht c rfl)

theorem exists_blanks (t : List Char) : ∃ w, t = w ++ t.dropWhile isBlank ∧
    (∀ c ∈ w, isBlank c) ∧ ∀ c ∈ (t.dropWhile isBlank).head?, ¬ isBlank c := by
  refine ⟨t.takeWhile isBlank, List.takeWhile_append_dropWhile.symm, ?_, ?_⟩
  · intro c hc
    exact List.all_eq_true.mp List.all_takeWhile c hc
  · intro c hc
    have h := List.head?_dropWhile_not isBlank t
    rw [Option.mem_def.mp hc] at h
    simpa using h

theorem Trimmed.eq {s t : List Char} (h : Trimmed s t) : trim s = t := by
  obtain ⟨⟨lead, trail, rfl, hl, ht⟩, hhead, hlast⟩ := h
  by_cases hn : t = []
  · subst hn
    have hw : ∀ c ∈ lead ++ [] ++ trail, isBlank c := by
      simpa using List.forall_mem_append.mpr ⟨hl, ht⟩
    have hd : (lead ++ [] ++ trail).dropWhile isBlank = [] := List.dropWhile_eq_nil_iff.mpr hw
    rw [trim, hd]
    rfl
  · have hfront : ∀ c ∈ (t ++ trail).head?, ¬ isBlank c := by
      rwa [List.head?_append_of_ne_nil t hn]
    have hback : ∀ c ∈ t.reverse.head?, ¬ isBlank c := by
      rwa [List.head?_reverse]
    have htrail : ∀ c ∈ trail.reverse, isBlank c := by simpa using ht
    rw [trim, List.append_assoc, dropWhile_blanks hl hfront, List.reverse_append,
      dropWhile_blanks htrail hback, List.reverse_reverse]

theorem trimmed_trim (s : List Char) : Trimmed s (trim s) := by
  obtain ⟨lead, hs, hl, hhead⟩ := exists_blanks s
  obtain ⟨trail, hu, ht, hlast⟩ := exists_blanks (s.dropWhile isBlank).reverse
  have hrest : s.dropWhile isBlank = trim s ++ trail.reverse := by
    rw [trim, ← List.reverse_append, ← hu, List.reverse_reverse]
  refine ⟨⟨lead, trail.reverse, ?_, hl, by simpa using ht⟩, ?_, ?_⟩
  · rw [List.append_assoc, ← hrest]
    exact hs
  · intro c hc
    apply hhead c
    rw [hrest, List.head?_append, Option.mem_def.mp hc]
    rfl
  · rwa [trim, List.getLast?_reverse]

theorem trimmed_iff {s t : List Char} : Trimmed s t ↔ trim s = t := by
  constructor
  · exact Trimmed.eq
  · rintro rfl
    exact trimmed_trim s

theorem trim_eq_self {t : List Char} (h : ∀ c ∈ t, ¬ isBlank c) : trim t = t := by
  apply Trimmed.eq
  refine ⟨⟨[], [], by simp⟩, fun c hc => ?_, fun c hc => ?_⟩
  · exact h c (List.mem_of_mem_head? hc)
  · exact h c (List.mem_of_getLast? hc)

end Versioning.Text

namespace Versioning

theorem ne_of_class {p : Char → Bool} {c d : Char} (hc : p c) (hd : p d = false) : c ≠ d := by
  rintro rfl
  simp [hc] at hd

theorem not_mem_of_class {p : Char → Bool} {t : List Char} {d : Char} (ht : ∀ c ∈ t, p c)
    (hd : p d = false) : d ∉ t := by
  intro h
  exact ne_of_class (ht d h) hd rfl

theorem isAlphanum_iff {c : Char} : c.isAlphanum ↔
    48 ≤ c.toNat ∧ c.toNat ≤ 57 ∨ 65 ≤ c.toNat ∧ c.toNat ≤ 90 ∨ 97 ≤ c.toNat ∧ c.toNat ≤ 122 := by
  have hu : c.isUpper ↔ 65 ≤ c.toNat ∧ c.toNat ≤ 90 := decide_eq_true_iff
  have hl : c.isLower ↔ 97 ≤ c.toNat ∧ c.toNat ≤ 122 :=
    Bool.and_eq_true_iff.trans (and_congr decide_eq_true_iff decide_eq_true_iff)
  have ha : c.isAlpha ↔ c.isUpper ∨ c.isLower := Bool.or_eq_true_iff
  have hd : c.isAlphanum ↔ c.isAlpha ∨ c.isDigit := Bool.or_eq_true_iff
  rw [hd, ha, hu, hl, Char.isDigit_iff_toNat]
  change _ ∨ 48 ≤ c.toNat ∧ c.toNat ≤ 57 ↔ _
  omega

theorem isItemChar_iff {c : Char} : isItemChar c ↔ c.isAlphanum ∨ c = '-' := by
  simp [isItemChar]

theorem isItemChar_of_isDigit {c : Char} (h : c.isDigit) : isItemChar c := by
  simp [isItemChar, Char.isAlphanum, h]

theorem toNat_lt_of_isItemChar {c : Char} (h : isItemChar c) : c.toNat < 128 := by
  rcases isItemChar_iff.mp h with h | rfl
  · have := isAlphanum_iff.mp h
    omega
  · decide

theorem utf8Size_of_isItemChar {c : Char} (h : isItemChar c) : c.utf8Size = 1 := by
  apply Char.utf8Size_eq_one_iff.mpr
  rw [UInt32.le_iff_toNat_le]
  exact Nat.le_of_lt_succ (toNat_lt_of_isItemChar h)

theorem Identifier.isItemChar_of_mem (i : Identifier) : ∀ c ∈ i.chars, isItemChar c := by
  have h := i.valid
  simp only [isIdentifier, isItem, Bool.and_eq_true, List.all_eq_true] at h
  exact h.1.2

theorem BuildItem.isItemChar_of_mem (i : BuildItem) : ∀ c ∈ i.chars, isItemChar c := by
  have h := i.valid
  simp only [isItem, Bool.and_eq_true, List.all_eq_true] at h
  exact h.2

namespace Version

theorem isVersionChar_iff {c : Char} : isVersionChar c ↔ isItemChar c ∨ c = '.' ∨ c = '+' := by
  simp only [isVersionChar, isItemChar, Bool.or_eq_true, beq_iff_eq]
  grind

theorem not_isBlank_of_isVersionChar {c : Char} (h : isVersionChar c) : Text.isBlank c = false := by
  have key : c.toNat ∈ [43, 45, 46] ∨ c.isAlphanum := by
    rcases isVersionChar_iff.mp h with h | rfl | rfl
    · rcases isItemChar_iff.mp h with h | rfl
      · exact .inr h
      · exact .inl (by decide)
    · exact .inl (by decide)
    · exact .inl (by decide)
  rw [isAlphanum_iff] at key
  simp only [Text.isBlank, Bool.or_eq_false_iff, Bool.and_eq_false_iff, decide_eq_false_iff_not,
    beq_eq_false_iff_ne]
  simp only [List.mem_cons, List.not_mem_nil, or_false] at key
  omega

end Version

end Versioning
