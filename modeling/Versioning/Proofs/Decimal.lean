import Mathlib.Algebra.Group.Nat.Defs
import Versioning.Identifier
import Versioning.Proofs.Ordering

namespace Versioning.Decimal

theorem value_cons (c : Char) (t : List Char) :
    value (c :: t) = 10 ^ t.length * (c.toNat - '0'.toNat) + value t := by
  unfold value
  rw [Nat.ofDigitChars_cons, Nat.ofDigitChars_eq_ofDigitChars_zero]
  simp

theorem digit_bounds {c : Char} (h : c.isDigit) : 48 ≤ c.toNat ∧ c.toNat ≤ 57 :=
  Char.isDigit_iff_toNat.mp h

theorem value_lt {t : List Char} (h : ∀ c ∈ t, c.isDigit) : value t < 10 ^ t.length := by
  induction t with
  | nil => decide
  | cons c t ih =>
    have hc := digit_bounds (h c (by simp))
    have ht := ih fun d hd => h d (by simp [hd])
    have hm : 10 ^ t.length * (c.toNat - 48) ≤ 10 ^ t.length * 9 :=
      Nat.mul_le_mul_left _ (by omega)
    rw [value_cons, List.length_cons, Nat.pow_succ]
    change 10 ^ t.length * (c.toNat - 48) + _ < _
    omega

theorem le_value {c : Char} (t : List Char) (hc : c.isDigit) (hz : c ≠ '0') :
    10 ^ t.length ≤ value (c :: t) := by
  have hb := digit_bounds hc
  have hn : c.toNat ≠ 48 := fun he => hz (Char.toNat_inj.mp he)
  have hm : 10 ^ t.length * 1 ≤ 10 ^ t.length * (c.toNat - 48) :=
    Nat.mul_le_mul_left _ (by omega)
  rw [value_cons]
  change _ ≤ 10 ^ t.length * (c.toNat - 48) + _
  omega

theorem value_dropWhile_zero (t : List Char) : value (t.dropWhile (· == '0')) = value t := by
  induction t with
  | nil => rfl
  | cons c t ih =>
    by_cases hc : c = '0'
    · subst hc
      rw [List.dropWhile_cons_of_pos (by rfl), ih, value_cons]
      simp
    · rw [List.dropWhile_cons_of_neg (by simpa using hc)]

theorem value_zeros_append (k : Nat) (t : List Char) :
    value (List.replicate k '0' ++ t) = value t := by
  induction k with
  | zero => rfl
  | succ k ih =>
    rw [List.replicate_succ, List.cons_append, value_cons, ih]
    simp

theorem compare_digits {c d : Char} (hc : c.isDigit) (hd : d.isDigit) :
    compare c d = compare (c.toNat - '0'.toNat) (d.toNat - '0'.toNat) := by
  have hcb := digit_bounds hc
  have hdb := digit_bounds hd
  have hlt : c.toNat < d.toNat ↔ c.toNat - 48 < d.toNat - 48 := by omega
  have hgt : d.toNat < c.toNat ↔ d.toNat - 48 < c.toNat - 48 := by omega
  rw [compare_char]
  change _ = compare (c.toNat - 48) (d.toNat - 48)
  simp only [Nat.compare_eq_ite_lt, hlt, hgt]

theorem compare_places {base m n a b : Nat} (ha : a < base) (hb : b < base) :
    compare (base * m + a) (base * n + b) = (compare m n).then (compare a b) := by
  have below {m n a b : Nat} (ha : a < base) (h : m < n) : base * m + a < base * n + b := by
    have hm : base * (m + 1) ≤ base * n := Nat.mul_le_mul_left _ h
    rw [Nat.mul_succ] at hm
    omega
  rcases Nat.lt_trichotomy m n with h | h | h
  · rw [Nat.compare_eq_lt.mpr h, Nat.compare_eq_lt.mpr (below ha h), Ordering.lt_then]
  · rw [Nat.compare_eq_eq.mpr h, h, Ordering.eq_then]
    simp only [Nat.compare_eq_ite_lt, Nat.add_lt_add_iff_left]
  · have hb' := below (b := a) hb h
    rw [Nat.compare_eq_gt.mpr h, Nat.compare_eq_gt.mpr hb', Ordering.gt_then]

theorem compare_of_length_eq {a b : List Char} (hl : a.length = b.length)
    (ha : ∀ c ∈ a, c.isDigit) (hb : ∀ c ∈ b, c.isDigit) :
    compare a b = compare (value a) (value b) := by
  induction a generalizing b with
  | nil =>
    rw [List.eq_nil_of_length_eq_zero hl.symm]
    rfl
  | cons c a ih => cases b with
    | nil => simp at hl
    | cons d b =>
      have hl' : a.length = b.length := by simpa using hl
      have ha' : ∀ e ∈ a, e.isDigit := fun e he => ha e (by simp [he])
      have hb' : ∀ e ∈ b, e.isDigit := fun e he => hb e (by simp [he])
      rw [List.compare_cons_cons, compare_digits (ha c (by simp)) (hb d (by simp)), ih hl' ha' hb',
        value_cons, value_cons, hl', compare_places (hl' ▸ value_lt ha') (value_lt hb')]

theorem value_lt_value {a b : List Char} (ha : ∀ c ∈ a, c.isDigit) (hb : ∀ c ∈ b, c.isDigit)
    (hz : b.head? ≠ some '0') (hl : a.length < b.length) : value a < value b := by
  cases b with
  | nil => simp at hl
  | cons d b =>
    have hp : 10 ^ a.length ≤ 10 ^ b.length :=
      Nat.pow_le_pow_right (by decide) (by simpa [Nat.lt_succ_iff] using hl)
    calc value a < 10 ^ a.length := value_lt ha
      _ ≤ 10 ^ b.length := hp
      _ ≤ value (d :: b) := le_value b (hb d (by simp)) (by simpa using hz)

theorem compare_length_then {a b : List Char} (ha : ∀ c ∈ a, c.isDigit) (hb : ∀ c ∈ b, c.isDigit)
    (hza : a.head? ≠ some '0') (hzb : b.head? ≠ some '0') :
    (compare a.length b.length).then (compare a b) = compare (value a) (value b) := by
  rcases Nat.lt_trichotomy a.length b.length with h | h | h
  · have hv := value_lt_value ha hb hzb h
    rw [Nat.compare_eq_lt.mpr h, Nat.compare_eq_lt.mpr hv, Ordering.lt_then]
  · rw [Nat.compare_eq_eq.mpr h, Ordering.eq_then, compare_of_length_eq h ha hb]
  · have hv := value_lt_value hb ha hza h
    rw [Nat.compare_eq_gt.mpr h, Nat.compare_eq_gt.mpr hv, Ordering.gt_then]

theorem head?_dropWhile_zero (t : List Char) : (t.dropWhile (· == '0')).head? ≠ some '0' := by
  intro h
  have hn := List.head?_dropWhile_not (· == '0') t
  simp [h] at hn

theorem isDigit_of_mem_dropWhile {t : List Char} (h : ∀ c ∈ t, c.isDigit) :
    ∀ c ∈ t.dropWhile (· == '0'), c.isDigit :=
  fun c hc => h c ((List.dropWhile_suffix _).subset hc)

theorem compareDigits_eq {a b : List Char} (ha : ∀ c ∈ a, c.isDigit) (hb : ∀ c ∈ b, c.isDigit) :
    compareDigits a b = compare (value a) (value b) := by
  rw [← value_dropWhile_zero a, ← value_dropWhile_zero b]
  exact compare_length_then (isDigit_of_mem_dropWhile ha) (isDigit_of_mem_dropWhile hb)
    (head?_dropWhile_zero a) (head?_dropWhile_zero b)

theorem isNumeric_iff {t : List Char} : isNumeric t ↔ t ≠ [] ∧ ∀ c ∈ t, c.isDigit := by
  simp [isNumeric]

theorem isDigit_of_isNumeric {t : List Char} (h : isNumeric t) : ∀ c ∈ t, c.isDigit :=
  (isNumeric_iff.mp h).2

theorem hasLeadingZero_iff {t : List Char} :
    hasLeadingZero t ↔ 1 < t.length ∧ t.head? = some '0' := by
  unfold hasLeadingZero
  split
  · simp
  · next h =>
    constructor
    · intro hf
      contradiction
    · rintro ⟨hl, hz⟩
      match t with
      | [c] => simp at hl
      | c :: d :: t =>
        cases hz
        exact absurd rfl (h d t)

theorem dropWhile_zero_of_hasLeadingZero {t : List Char} (h : hasLeadingZero t = false) :
    t = ['0'] ∨ t.dropWhile (· == '0') = t := by
  match t with
  | [] => exact .inr rfl
  | ['0'] => exact .inl rfl
  | '0' :: _ :: _ => simp [hasLeadingZero] at h
  | c :: t =>
    by_cases hc : c = '0'
    · subst hc
      cases t with
      | nil => exact .inl rfl
      | cons d t => simp [hasLeadingZero] at h
    · exact .inr (List.dropWhile_cons_of_neg (by simpa using hc))

theorem eq_of_value_eq {a b : List Char} (ha : isNumeric a) (hb : isNumeric b)
    (hza : hasLeadingZero a = false) (hzb : hasLeadingZero b = false) (h : value a = value b) :
    a = b := by
  have hc : compareDigits a b = .eq := by
    rw [compareDigits_eq (isDigit_of_isNumeric ha) (isDigit_of_isNumeric hb), h]
    simp
  have hw : a.dropWhile (· == '0') = b.dropWhile (· == '0') :=
    Std.LawfulEqOrd.eq_of_compare (Ordering.then_eq_eq.mp hc).2
  have hna : a ≠ [] := by rintro rfl; simp [isNumeric] at ha
  have hnb : b ≠ [] := by rintro rfl; simp [isNumeric] at hb
  rcases dropWhile_zero_of_hasLeadingZero hza with rfl | ha'
  · rcases dropWhile_zero_of_hasLeadingZero hzb with rfl | hb'
    · rfl
    · exact absurd (hb'.symm.trans hw.symm) hnb
  · rcases dropWhile_zero_of_hasLeadingZero hzb with rfl | hb'
    · exact absurd (ha'.symm.trans hw) hna
    · rw [← ha', hw, hb']

theorem isNumeric_digits (n : Nat) : isNumeric (digits n) := by
  apply isNumeric_iff.mpr
  exact ⟨Nat.toDigits_ne_nil, fun c hc => Nat.isDigit_of_mem_toDigits (by decide) (by decide) hc⟩

theorem head?_digits {n : Nat} (h : 0 < n) : (digits n).head? ≠ some '0' := by
  induction n using Nat.strongRecOn with
  | ind n ih =>
    unfold digits
    rw [Nat.toDigits_eq_if (by decide)]
    split
    · simpa using Nat.ne_of_gt h
    · rw [List.head?_append, Option.or_of_isSome (by simp [Nat.toDigits_ne_nil])]
      exact ih (n / 10) (by omega) (by omega)

theorem hasLeadingZero_digits (n : Nat) : hasLeadingZero (digits n) = false := by
  rcases Nat.eq_zero_or_pos n with rfl | hn
  · rfl
  · have hz := head?_digits hn
    unfold hasLeadingZero
    split
    · next hd => simp [hd] at hz
    · rfl

theorem digits_value {t : List Char} (hn : isNumeric t) (hz : hasLeadingZero t = false) :
    digits (value t) = t :=
  eq_of_value_eq (isNumeric_digits _) hn (hasLeadingZero_digits _) hz (value_digits _)

theorem exists_digits_iff {t : List Char} :
    (∃ n, t = digits n) ↔ isNumeric t ∧ hasLeadingZero t = false := by
  constructor
  · rintro ⟨n, rfl⟩
    exact ⟨isNumeric_digits n, hasLeadingZero_digits n⟩
  · rintro ⟨hn, hz⟩
    exact ⟨value t, (digits_value hn hz).symm⟩

end Versioning.Decimal
