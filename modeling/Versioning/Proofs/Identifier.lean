import Versioning.Proofs.Version.Precedence

namespace Versioning

theorem isNumeric_and_isIdentifier_iff {t : List Char} :
    Decimal.isNumeric t ∧ isIdentifier t ↔ ∃ n, t = Decimal.digits n := by
  rw [Decimal.exists_digits_iff]
  exact and_congr_right isIdentifier_iff_of_isNumeric

theorem toList_eq_digits_iff {s : String} {n : Nat} :
    s.toList = Decimal.digits n ↔ s = n.repr := by
  rw [Decimal.digits, ← Nat.toList_repr, String.toList_inj]

namespace Identifier

theorem chars_of_text_eq_repr {i : Identifier} {n : Nat} (h : i.text = n.repr) :
    i.chars = Decimal.digits n := by
  rw [← toList_eq_digits_iff.mpr h, text, String.toList_ofList]

theorem rank_of_text_eq_repr {i : Identifier} {n : Nat} (h : i.text = n.repr) :
    i.rank = .number n := by
  have hc := chars_of_text_eq_repr h
  have hn : i.isNumeric := by
    rw [isNumeric, hc]
    exact Decimal.isNumeric_digits n
  rw [rank, if_pos hn, hc, Decimal.value_digits]

theorem precedence_of_text_eq_repr {a b : Identifier} {m n : Nat} (ha : a.text = m.repr)
    (hb : b.text = n.repr) : a.precedence b = compare m n := by
  rw [precedence_eq_order, rank_of_text_eq_repr ha, rank_of_text_eq_repr hb, Rank.order]

theorem numeric_by_value :
    (∀ s : String, Decimal.isNumeric s.toList ∧ isIdentifier s.toList ↔ ∃ n : Nat, s = n.repr) ∧
      (∀ k n : Nat, Decimal.value (List.replicate k '0' ++ n.repr.toList) = n) ∧
      (∀ l r : String, (∀ c ∈ l.toList, c.isDigit) → (∀ c ∈ r.toList, c.isDigit) →
        Decimal.compareDigits l.toList r.toList =
          compare (Decimal.value l.toList) (Decimal.value r.toList)) ∧
      ∀ (a b : Identifier) (m n : Nat), a.text = m.repr → b.text = n.repr →
        a.precedence b = compare m n := by
  refine ⟨?_, ?_, fun l r => Decimal.compareDigits_eq, fun a b m n => precedence_of_text_eq_repr⟩
  · intro s
    rw [isNumeric_and_isIdentifier_iff]
    exact exists_congr fun n => toList_eq_digits_iff
  · intro k n
    rw [Decimal.value_zeros_append, Nat.toList_repr]
    exact Decimal.value_digits n

theorem numeric_by_value_padded :
    (∀ c ∈ "000".toList, c.isDigit) ∧ (∀ c ∈ "0".toList, c.isDigit) ∧
      Decimal.compareDigits "000".toList "0".toList = .eq ∧
      (∀ c ∈ "018446744073709551615".toList, c.isDigit) ∧
      (∀ c ∈ "18446744073709551616".toList, c.isDigit) ∧
      Decimal.compareDigits "018446744073709551615".toList "18446744073709551616".toList = .lt ∧
      (⟨['1', '0'], rfl⟩ : Identifier).text = (10).repr ∧
      (⟨['9'], rfl⟩ : Identifier).text = (9).repr ∧
      precedence ⟨['1', '0'], rfl⟩ ⟨['9'], rfl⟩ = .gt := by
  obtain ⟨-, -, hwords, hidentifiers⟩ := numeric_by_value
  have hzeros : ∀ c ∈ "000".toList, c.isDigit := Decimal.isDigit_of_isNumeric rfl
  have hzero : ∀ c ∈ "0".toList, c.isDigit := Decimal.isDigit_of_isNumeric rfl
  have hlong : ∀ c ∈ "018446744073709551615".toList, c.isDigit := Decimal.isDigit_of_isNumeric rfl
  have hnext : ∀ c ∈ "18446744073709551616".toList, c.isDigit := Decimal.isDigit_of_isNumeric rfl
  have hten : (⟨['1', '0'], rfl⟩ : Identifier).text = (10).repr := rfl
  have hnine : (⟨['9'], rfl⟩ : Identifier).text = (9).repr := rfl
  exact ⟨hzeros, hzero, hwords _ _ hzeros hzero, hlong, hnext, hwords _ _ hlong hnext, hten, hnine,
    hidentifiers _ _ _ _ hten hnine⟩

end Identifier

end Versioning
