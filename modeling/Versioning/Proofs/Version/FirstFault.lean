import Versioning.Proofs.Version.Building
import Versioning.Proofs.Version.Spelling

namespace Versioning.Version

structure Sections (mode : Mode) (t : List Char) (p : Parts) (m x i w : List Char) : Prop where
  text : t = m ++ (x ++ i ++ w)
  mark : MarkText mode m
  longest : ∀ n, MarkText mode n → n <+: t → n.length ≤ m.length
  core : DottedText ('.' ∉ ·) p.core x
  identifiers : LabelsText '-' ('.' ∉ ·) p.identifiers i
  metadata : LabelsText '+' ('.' ∉ ·) p.metadata w
  no_hyphen : '-' ∉ x
  no_plus : '+' ∉ x ++ i

inductive FaultyNumber : NumberFault → List Char → Prop
  | empty : FaultyNumber .notANumber []
  | notDigit {t : List Char} {c : Char} (hc : c ∈ t) (hd : ¬ c.isDigit) : FaultyNumber .notANumber t
  | leadingZero {t : List Char} (hd : ∀ c ∈ t, c.isDigit) (hl : 1 < t.length)
      (hz : t.head? = some '0') : FaultyNumber .leadingZero t
  | tooLarge {t : List Char} (hn : t ≠ []) (hd : ∀ c ∈ t, c.isDigit)
      (hz : ¬ (1 < t.length ∧ t.head? = some '0')) (hv : UInt64.size ≤ Decimal.value t) :
      FaultyNumber .tooLarge t

def GoodNumber (t : List Char) : Prop :=
  ∃ n, NumberText n t

/-- The first fault of parts that stand in a text without foreign characters. -/
inductive PartsFault (p : Parts) : Error → Prop
  | malformed (h : p.core.length ≠ 3) : PartsFault p .malformed
  | number {field : Field} {t : List Char} {fault : NumberFault} (h : p.core.length = 3)
      (ht : FirstFailing (fun q => GoodNumber q.2) ([.major, .minor, .patch].zip p.core) (field, t))
      (hf : FaultyNumber fault t) : PartsFault p (.invalidNumber field (String.ofList t) fault)
  | identifier {t : List Char} (h : p.core.length = 3) (hc : ∀ u ∈ p.core, GoodNumber u)
      (ht : FirstFailing IdentifierText p.identifiers t) :
      PartsFault p (.invalidIdentifier (String.ofList t))
  | metadata {t : List Char} (h : p.core.length = 3) (hc : ∀ u ∈ p.core, GoodNumber u)
      (hi : ∀ u ∈ p.identifiers, IdentifierText u) (ht : FirstFailing ItemText p.metadata t) :
      PartsFault p (.invalidMetadata (String.ofList t))

inductive FirstFault (mode : Mode) : List Char → Error → Prop
  | blank : FirstFault mode [] .blank
  | character {t : List Char} {c : Char} (h : FirstFailing (isVersionChar ·) t c) :
      FirstFault mode t (.invalidCharacter c)
  | parts {t m x i w : List Char} {p : Parts} {e : Error} (hn : t ≠ [])
      (hc : ∀ c ∈ t, isVersionChar c) (hp : Sections mode t p m x i w) (he : PartsFault p e) :
      FirstFault mode t e

theorem readNumber_eq_ok_iff {field : Field} {t : List Char} :
    (∃ n, readNumber field t = .ok n) ↔ GoodNumber t := by
  constructor
  · rintro ⟨n, hn⟩
    exact ⟨n.toNat, numberText_iff.mpr (number_of_readNumber hn).symm⟩
  · rintro ⟨n, hn⟩
    have ht : NumberText (UInt64.ofNatLT n hn.bounded).toNat t := by simpa using hn
    exact ⟨_, (numberText_iff.mp ht) ▸ readNumber_number field _⟩

theorem faultyNumber_notANumber_iff {t : List Char} :
    FaultyNumber .notANumber t ↔ ¬ Decimal.isNumeric t := by
  rw [Decimal.isNumeric_iff]
  constructor
  · rintro h ⟨hn, hd⟩
    cases h with
    | empty => exact hn rfl
    | notDigit hc hnd => exact hnd (hd _ hc)
  · intro h
    by_cases hn : t = []
    · subst hn
      exact .empty
    · obtain ⟨c, hc, hd⟩ : ∃ c ∈ t, ¬ c.isDigit := by simpa [hn] using h
      exact .notDigit hc (by simpa using hd)

theorem faultyNumber_leadingZero_iff {t : List Char} :
    FaultyNumber .leadingZero t ↔ Decimal.isNumeric t ∧ Decimal.hasLeadingZero t := by
  rw [Decimal.isNumeric_iff, Decimal.hasLeadingZero_iff]
  constructor
  · rintro ⟨⟩
    next hd hl hz => exact ⟨⟨by rintro rfl; simp at hl, hd⟩, hl, hz⟩
  · rintro ⟨⟨-, hd⟩, hl, hz⟩
    exact .leadingZero hd hl hz

theorem faultyNumber_tooLarge_iff {t : List Char} :
    FaultyNumber .tooLarge t ↔
      Decimal.isNumeric t ∧ ¬ Decimal.hasLeadingZero t ∧ ¬ Decimal.value t < UInt64.size := by
  rw [Decimal.isNumeric_iff, Decimal.hasLeadingZero_iff, Nat.not_lt]
  constructor
  · rintro ⟨⟩
    next hn hd hz hv => exact ⟨⟨hn, hd⟩, hz, hv⟩
  · rintro ⟨⟨hn, hd⟩, hz, hv⟩
    exact .tooLarge hn hd hz hv

theorem readNumber_eq_error_iff {field : Field} {t : List Char} {e : Error} :
    readNumber field t = .error e ↔
      ∃ fault, FaultyNumber fault t ∧ e = .invalidNumber field (String.ofList t) fault := by
  constructor
  · intro h
    unfold readNumber at h
    split at h
    next hn =>
      cases h
      exact ⟨_, faultyNumber_notANumber_iff.mpr hn, rfl⟩
    next hn =>
      have hn := not_not.mp hn
      split at h
      next hz =>
        cases h
        exact ⟨_, faultyNumber_leadingZero_iff.mpr ⟨hn, hz⟩, rfl⟩
      next hz =>
        split at h
        · contradiction
        next hv =>
          cases h
          exact ⟨_, faultyNumber_tooLarge_iff.mpr ⟨hn, hz, hv⟩, rfl⟩
  · rintro ⟨fault, hf, rfl⟩
    cases fault with
    | notANumber => exact if_pos (faultyNumber_notANumber_iff.mp hf)
    | leadingZero =>
      obtain ⟨hn, hz⟩ := faultyNumber_leadingZero_iff.mp hf
      rw [readNumber, if_neg (not_not.mpr hn), if_pos hz]
    | tooLarge =>
      obtain ⟨hn, hz, hv⟩ := faultyNumber_tooLarge_iff.mp hf
      rw [readNumber, if_neg (not_not.mpr hn), if_neg hz, dif_neg hv]

theorem readNumber_bind_eq_error_iff {α : Type} {field : Field} {t : List Char} {e : Error}
    {f : UInt64 → Except Error α} {q : Prop} (hf : ∀ n, f n = .error e ↔ q) :
    readNumber field t >>= f = .error e ↔ readNumber field t = .error e ∨ GoodNumber t ∧ q := by
  rw [bind_eq_error_iff]
  simp only [hf, exists_and_right, readNumber_eq_ok_iff]

def NumbersFault (core : List (List Char)) (e : Error) : Prop :=
  ∃ q, FirstFailing (fun q => GoodNumber q.2) ([Field.major, .minor, .patch].zip core) q ∧
    readNumber q.1 q.2 = .error e

def LabelsFault (p : Parts) (e : Error) : Prop :=
  (∃ t, FirstFailing IdentifierText p.identifiers t ∧ e = .invalidIdentifier (String.ofList t)) ∨
    (∀ t ∈ p.identifiers, IdentifierText t) ∧
      ∃ t, FirstFailing ItemText p.metadata t ∧ e = .invalidMetadata (String.ofList t)

theorem partsFault_iff {p : Parts} {e : Error} : PartsFault p e ↔
    p.core.length ≠ 3 ∧ e = .malformed ∨
      p.core.length = 3 ∧ (NumbersFault p.core e ∨ (∀ u ∈ p.core, GoodNumber u) ∧ LabelsFault p e) := by
  constructor
  · intro h
    cases h with
    | malformed h => exact .inl ⟨h, rfl⟩
    | number h ht hf => exact .inr ⟨h, .inl ⟨_, ht, readNumber_eq_error_iff.mpr ⟨_, hf, rfl⟩⟩⟩
    | identifier h hc ht => exact .inr ⟨h, .inr ⟨hc, .inl ⟨_, ht, rfl⟩⟩⟩
    | metadata h hc hi ht => exact .inr ⟨h, .inr ⟨hc, .inr ⟨hi, _, ht, rfl⟩⟩⟩
  · rintro (⟨h, rfl⟩ | ⟨h, ⟨q, hq, he⟩ | ⟨hc, ⟨t, ht, rfl⟩ | ⟨hi, t, ht, rfl⟩⟩⟩)
    · exact .malformed h
    · obtain ⟨fault, hf, rfl⟩ := readNumber_eq_error_iff.mp he
      exact .number h hq hf
    · exact .identifier h hc ht
    · exact .metadata h hc hi ht

theorem numbersFault_iff {x y z : List Char} {e : Error} : NumbersFault [x, y, z] e ↔
    readNumber .major x = .error e ∨ GoodNumber x ∧
      (readNumber .minor y = .error e ∨ GoodNumber y ∧ readNumber .patch z = .error e) := by
  have hgood (q : Field × List Char) : (∃ n, readNumber q.1 q.2 = .ok n) ↔ GoodNumber q.2 :=
    readNumber_eq_ok_iff
  have hzip : [Field.major, .minor, .patch].zip [x, y, z] =
      [(.major, x), (.minor, y), (.patch, z)] := rfl
  rw [NumbersFault, hzip, exists_firstFailing_cons hgood, exists_firstFailing_cons hgood,
    exists_firstFailing_cons hgood]
  simp only [not_firstFailing_nil, false_and, exists_false, and_false, or_false]

theorem ofParts_eq_error_iff {p : Parts} {e : Error} : ofParts p = .error e ↔ PartsFault p e := by
  rw [partsFault_iff]
  unfold ofParts
  split
  next x y z hcore =>
    have hlabels (a b c : UInt64) :
        ofLabels a b c p.identifiers p.metadata = .error e ↔ LabelsFault p e := by
      rw [ofLabels_eq_error_iff]
      simp only [isIdentifier_iff, isItem_iff]
      exact Iff.rfl
    have hall : (∀ u ∈ p.core, GoodNumber u) ↔ GoodNumber x ∧ GoodNumber y ∧ GoodNumber z := by
      simp [hcore]
    have hl : p.core.length = 3 := by rw [hcore]; rfl
    rw [hall, hcore, numbersFault_iff, ← hcore]
    rw [readNumber_bind_eq_error_iff fun a => readNumber_bind_eq_error_iff fun b =>
      readNumber_bind_eq_error_iff (hlabels a b)]
    simp only [hl, ne_eq, not_true, false_and, false_or, true_and, and_or_left, or_assoc, and_assoc]
  next h =>
    have hl : p.core.length ≠ 3 := by
      intro hl
      obtain ⟨x, y, z, hcore⟩ := List.length_eq_three.mp hl
      exact h x y z hcore
    simp [hl, eq_comm]

namespace Parts

theorem not_mem_of_mem_splitOn (t : List Char) : ∀ u ∈ t.splitOn '.', '.' ∉ u := by
  induction t with
  | nil => simp
  | cons c t ih =>
    rw [List.splitOn_cons_eq_if_modifyHead]
    split
    · simpa using ih
    next hc =>
      cases hs : t.splitOn '.' with
      | nil => exact absurd hs (List.splitOn_ne_nil '.' t)
      | cons v vs =>
        rw [hs] at ih
        obtain ⟨hv, hvs⟩ := List.forall_mem_cons.mp ih
        have hcv : '.' ∉ c :: v := by
          rw [List.mem_cons]
          rintro (rfl | h)
          · exact hc rfl
          · exact hv h
        exact List.forall_mem_cons.mpr ⟨hcv, hvs⟩

theorem not_mem_of_mem_undotted (t : Option (List Char)) : ∀ u ∈ undotted t, '.' ∉ u := by
  cases t with
  | none => exact fun u hu => absurd hu List.not_mem_nil
  | some t => exact not_mem_of_mem_splitOn t

theorem not_mem_cut (mark : Char) (t : List Char) : mark ∉ (Text.cut mark t).1 := by
  intro h
  simpa using List.mem_takeWhile_imp h

end Parts

theorem MarkText.length_le {mode : Mode} {m : List Char} (h : MarkText mode m) : m.length ≤ 1 := by
  cases h with
  | none => exact Nat.zero_le 1
  | lower | upper => exact Nat.le_refl 1

theorem unmarked_append {mode : Mode} {m u : List Char} (hm : MarkText mode m)
    (hl : ∀ n, MarkText mode n → n <+: m ++ u → n.length ≤ m.length) :
    unmarked mode (m ++ u) = u := by
  cases hm with
  | none =>
    unfold unmarked
    split
    next t h => exact absurd (hl ['v'] .lower ⟨t, h.symm⟩) (by decide)
    next t h => exact absurd (hl ['V'] .upper ⟨t, h.symm⟩) (by decide)
    · rfl
  | lower | upper => rfl

theorem exists_longest_mark (mode : Mode) (t : List Char) : ∃ m, MarkText mode m ∧
    (∀ n, MarkText mode n → n <+: t → n.length ≤ m.length) ∧ t = m ++ unmarked mode t := by
  unfold unmarked
  split
  · exact ⟨['v'], .lower, fun n hn _ => hn.length_le, rfl⟩
  · exact ⟨['V'], .upper, fun n hn _ => hn.length_le, rfl⟩
  next hv hV =>
    refine ⟨[], .none mode, ?_, rfl⟩
    rintro n hn ⟨u, rfl⟩
    cases hn with
    | none => exact Nat.le_refl 0
    | lower => exact absurd rfl (hv u rfl)
    | upper => exact absurd rfl (hV u rfl)

theorem sections_iff {mode : Mode} {t : List Char} {p : Parts} :
    (∃ m x i w, Sections mode t p m x i w) ↔ p = .cut (unmarked mode t) := by
  constructor
  · rintro ⟨m, x, i, w, h⟩
    obtain ⟨hn, hcore, rfl⟩ := dottedText_iff.mp h.core
    obtain ⟨hids, rfl⟩ := labelsText_iff.mp h.identifiers
    obtain ⟨hmeta, rfl⟩ := labelsText_iff.mp h.metadata
    have ht : t = m ++ p.join := h.text
    have hu : unmarked mode t = p.join := by
      rw [ht]
      exact unmarked_append h.mark (ht ▸ h.longest)
    rw [hu, Parts.cut_join_of_sections hn hcore hids hmeta h.no_hyphen h.no_plus]
  · rintro rfl
    obtain ⟨m, hm, hl, ht⟩ := exists_longest_mark mode t
    let u := unmarked mode t
    let head := (Text.cut '+' u).1
    have hhead : (Text.cut '-' head).1 ++
        Parts.labelled '-' (Parts.undotted (Text.cut '-' head).2) = head :=
      Parts.append_labelled_cut '-' head
    have hu : head ++ Parts.labelled '+' (Parts.undotted (Text.cut '+' u).2) = u :=
      Parts.append_labelled_cut '+' u
    have htext : t = m ++ ((Text.cut '-' head).1 ++
        Parts.labelled '-' (Parts.undotted (Text.cut '-' head).2) ++
        Parts.labelled '+' (Parts.undotted (Text.cut '+' u).2)) := by
      rw [hhead, hu]
      exact ht
    refine ⟨m, (Text.cut '-' head).1, _, _, htext, hm, hl, ?_, ?_, ?_, Parts.not_mem_cut '-' head, ?_⟩
    · apply dottedText_iff.mpr
      exact ⟨List.splitOn_ne_nil '.' _, Parts.not_mem_of_mem_splitOn _,
        (List.intercalate_splitOn '.').symm⟩
    · exact labelsText_iff.mpr ⟨Parts.not_mem_of_mem_undotted _, rfl⟩
    · exact labelsText_iff.mpr ⟨Parts.not_mem_of_mem_undotted _, rfl⟩
    · rw [hhead]
      exact Parts.not_mem_cut '+' u

theorem parse_eq_error_iff_firstFault {mode : Mode} {s : String} {e : Error} :
    parse mode s = .error e ↔ FirstFault mode (Text.trim s.toList) e := by
  unfold parse
  generalize Text.trim s.toList = t
  split
  · constructor
    · rintro ⟨⟩
      exact .blank
    · intro h
      cases h with
      | blank => rfl
      | character h => exact absurd h not_firstFailing_nil
      | parts hn => exact absurd rfl hn
  next hn =>
    have hn : t ≠ [] := hn
    split
    next c hf =>
      have hc : FirstFailing (fun d => isVersionChar d) t c := firstFailing_iff_find?.mpr hf
      constructor
      · rintro ⟨⟩
        exact .character hc
      · intro h
        cases h with
        | blank => exact absurd rfl hn
        | character h => rw [Option.some.inj (hf.symm.trans (firstFailing_iff_find?.mp h))]
        | parts _ hall => exact absurd (hall c hc.mem) hc.not_self
    next hf =>
      have hall : ∀ c ∈ t, isVersionChar c := by simpa using hf
      rw [ofParts_eq_error_iff]
      constructor
      · intro h
        have hcut : ∃ m x i w, Sections mode t (.cut (unmarked mode t)) m x i w :=
          sections_iff.mpr rfl
        obtain ⟨m, x, i, w, hs⟩ := hcut
        exact .parts hn hall hs h
      · intro h
        cases h with
        | blank => exact absurd rfl hn
        | character h => exact absurd (hall _ h.mem) h.not_self
        | parts _ _ hs h => exact sections_iff.mp ⟨_, _, _, _, hs⟩ ▸ h

theorem fault_in_parts {mode : Mode} {s : String} {e : Error} (hn : s.toList ≠ [])
    (hc : ∀ c ∈ s.toList, isVersionChar c) (h : parse mode s = .error e) :
    e ≠ .blank ∧ ∀ c, e ≠ .invalidCharacter c := by
  have hf := parse_eq_error_iff_firstFault.mp h
  have ht : Text.trim s.toList = s.toList := by
    apply Text.trim_eq_self
    intro c hm
    simp [not_isBlank_of_isVersionChar (hc c hm)]
  rw [ht] at hf
  generalize s.toList = t at hn hc hf
  cases hf with
  | blank => contradiction
  | character hf => exact absurd (hc _ hf.mem) hf.not_self
  | parts _ _ _ he => cases he <;> simp

theorem parse_first_fault (mode : Mode) (s : String) :
    (∀ e, parse mode s = .error e ↔ ∃ t, Text.Trimmed s.toList t ∧ FirstFault mode t e) ∧
      ((∃ v, parse mode s = .ok v) ↔
        ∃ t, Text.Trimmed s.toList t ∧ ∀ e, ¬ FirstFault mode t e) := by
  simp only [Text.trimmed_iff, exists_eq_left', ← parse_eq_error_iff_firstFault]
  cases parse mode s <;> simp

example : parse .lenient "V1.02.x-01+" = .error (.invalidNumber .minor "02" .leadingZero) := by rfl

end Versioning.Version
