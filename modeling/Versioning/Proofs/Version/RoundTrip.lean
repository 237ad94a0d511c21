import Versioning.Proofs.Text
import Versioning.Proofs.Decimal
import Versioning.Version.Text

namespace Versioning.Version

namespace Parts

structure Separable (p : Parts) : Prop where
  core_ne_nil : p.core ≠ []
  core : ∀ t ∈ p.core, '.' ∉ t ∧ '-' ∉ t ∧ '+' ∉ t
  identifiers : ∀ t ∈ p.identifiers, '.' ∉ t ∧ '+' ∉ t
  metadata : ∀ t ∈ p.metadata, '.' ∉ t

theorem dotted_singleton (t : List Char) : dotted [t] = t :=
  List.intercalate_singleton

theorem dotted_cons (t : List Char) {items : List (List Char)} (hn : items ≠ []) :
    dotted (t :: items) = t ++ '.' :: dotted items := by
  rw [dotted, List.intercalate_cons_of_ne_nil hn, List.append_assoc]
  rfl

theorem mem_dotted {c : Char} {items : List (List Char)} (h : c ∈ dotted items) :
    c = '.' ∨ ∃ t ∈ items, c ∈ t := by
  induction items with
  | nil => simp [dotted] at h
  | cons t items ih =>
    by_cases hn : items = []
    · subst hn
      rw [dotted_singleton] at h
      exact .inr ⟨t, by simp, h⟩
    · rw [dotted_cons t hn, List.mem_append, List.mem_cons] at h
      rcases h with h | h | h
      · exact .inr ⟨t, by simp, h⟩
      · exact .inl h
      · rcases ih h with rfl | ⟨u, hu, hc⟩
        · exact .inl rfl
        · exact .inr ⟨u, by simp [hu], hc⟩

theorem mem_labelled {c mark : Char} {items : List (List Char)} (h : c ∈ labelled mark items) :
    c = mark ∨ c = '.' ∨ ∃ t ∈ items, c ∈ t := by
  cases items with
  | nil => simp [labelled] at h
  | cons t items =>
    rcases List.mem_cons.mp h with rfl | h
    · exact .inl rfl
    · exact .inr (mem_dotted h)

theorem forall_mem_join {p : Parts} {q : Char → Bool} (hdot : q '.') (hhyphen : q '-')
    (hplus : q '+') (hcore : ∀ t ∈ p.core, ∀ c ∈ t, q c) (hids : ∀ t ∈ p.identifiers, ∀ c ∈ t, q c)
    (hmeta : ∀ t ∈ p.metadata, ∀ c ∈ t, q c) : ∀ c ∈ p.join, q c := by
  have labels {mark c : Char} {items : List (List Char)} (hm : q mark)
      (hi : ∀ t ∈ items, ∀ c ∈ t, q c) (hc : c ∈ labelled mark items) : q c := by
    rcases mem_labelled hc with rfl | rfl | ⟨t, ht, hc⟩
    · exact hm
    · exact hdot
    · exact hi t ht c hc
  intro c hc
  rcases List.mem_append.mp hc with hc | hc
  · rcases List.mem_append.mp hc with hc | hc
    · rcases mem_dotted hc with rfl | ⟨t, ht, hc⟩
      · exact hdot
      · exact hcore t ht c hc
    · exact labels hhyphen hids hc
  · exact labels hplus hmeta hc

theorem not_mem_dotted {c : Char} {items : List (List Char)} (hc : c ≠ '.')
    (h : ∀ t ∈ items, c ∉ t) : c ∉ dotted items := by
  intro hm
  rcases mem_dotted hm with he | ⟨t, ht, hct⟩
  · exact hc he
  · exact h t ht hct

theorem splitOn_dotted {items : List (List Char)} (hn : items ≠ []) (h : ∀ t ∈ items, '.' ∉ t) :
    (dotted items).splitOn '.' = items :=
  List.splitOn_intercalate '.' h hn

theorem cut_append_labelled {mark : Char} {t : List Char} {items : List (List Char)}
    (ht : mark ∉ t) (h : ∀ u ∈ items, '.' ∉ u) :
    (Text.cut mark (t ++ labelled mark items)).1 = t ∧
      undotted (Text.cut mark (t ++ labelled mark items)).2 = items := by
  cases items with
  | nil =>
    rw [labelled, List.append_nil, Text.cut_of_not_mem ht]
    exact ⟨rfl, rfl⟩
  | cons u items =>
    rw [labelled, Text.cut_append ht]
    · exact ⟨rfl, splitOn_dotted (by simp) h⟩
    · simp

theorem cut_join_of_sections {p : Parts} (hn : p.core ≠ []) (hcore : ∀ t ∈ p.core, '.' ∉ t)
    (hids : ∀ t ∈ p.identifiers, '.' ∉ t) (hmeta : ∀ t ∈ p.metadata, '.' ∉ t)
    (hhyphen : '-' ∉ dotted p.core) (hplus : '+' ∉ dotted p.core ++ labelled '-' p.identifiers) :
    cut p.join = p := by
  obtain ⟨hhead, hm⟩ := cut_append_labelled hplus hmeta
  obtain ⟨hc, hi⟩ := cut_append_labelled hhyphen hids
  unfold cut join
  simp only [hhead, hm, hc, hi]
  rw [splitOn_dotted hn hcore]

theorem cut_join {p : Parts} (h : p.Separable) : cut p.join = p := by
  apply cut_join_of_sections h.core_ne_nil
  · exact fun t ht => (h.core t ht).1
  · exact fun t ht => (h.identifiers t ht).1
  · exact h.metadata
  · exact not_mem_dotted (by decide) fun t ht => (h.core t ht).2.1
  · intro hm
    rcases List.mem_append.mp hm with hm | hm
    · exact not_mem_dotted (by decide) (fun t ht => (h.core t ht).2.2) hm
    · rcases mem_labelled hm with hc | hc | ⟨t, ht, hc⟩
      · exact absurd hc (by decide)
      · exact absurd hc (by decide)
      · exact (h.identifiers t ht).2 hc

end Parts

theorem parse_of_trim (mode : Mode) {s : String} (hn : Text.trim s.toList ≠ [])
    (h : ∀ c ∈ Text.trim s.toList, isVersionChar c) :
    parse mode s = ofParts (.cut (unmarked mode (Text.trim s.toList))) := by
  have hf : (Text.trim s.toList).find? (!isVersionChar ·) = none := by
    apply List.find?_eq_none.mpr
    intro c hc
    simp [h c hc]
  unfold parse
  split
  · contradiction
  · rw [hf]

theorem parse_ofList (mode : Mode) {t : List Char} (hn : t ≠ []) (h : ∀ c ∈ t, isVersionChar c) :
    parse mode (String.ofList t) = ofParts (.cut (unmarked mode t)) := by
  have ht : Text.trim (String.ofList t).toList = t := by
    rw [String.toList_ofList]
    apply Text.trim_eq_self
    intro c hc
    simp [not_isBlank_of_isVersionChar (h c hc)]
  rw [parse_of_trim mode (by rwa [ht]) (by rwa [ht]), ht]

theorem readNumber_number (field : Field) (n : UInt64) : readNumber field (number n) = .ok n := by
  have hv : Decimal.value (number n) = n.toNat := Decimal.value_digits n.toNat
  have hlt : Decimal.value (number n) < UInt64.size := hv ▸ n.toNat_lt
  have hnum : Decimal.isNumeric (number n) = true := Decimal.isNumeric_digits n.toNat
  have hz : Decimal.hasLeadingZero (number n) = false := Decimal.hasLeadingZero_digits n.toNat
  unfold readNumber
  rw [if_neg (by simp [hnum]), if_neg (by simp [hz]), dif_pos hlt]
  congr 1
  apply UInt64.toNat_inj.mp
  simpa using hv

theorem readIdentifier_chars (i : Identifier) : readIdentifier i.chars = .ok i := by
  simp [readIdentifier, Identifier.ofChars?, i.valid]

theorem readMetadata_chars (i : BuildItem) : readMetadata i.chars = .ok i := by
  simp [readMetadata, BuildItem.ofChars?, i.valid]

theorem ofLabels_chars (major minor patch : UInt64) (identifiers : List Identifier)
    (metadata : List BuildItem) :
    ofLabels major minor patch (identifiers.map Identifier.chars) (metadata.map BuildItem.chars) =
      .ok ⟨major, minor, patch, identifiers, metadata⟩ := by
  have hi : readIdentifier ∘ Identifier.chars = pure := funext readIdentifier_chars
  have hm : readMetadata ∘ BuildItem.chars = pure := funext readMetadata_chars
  unfold ofLabels
  rw [List.mapM_map, List.mapM_map, hi, hm, List.mapM_pure, List.mapM_pure]
  simp only [List.map_id']
  rfl

theorem ofParts_numbers (major minor patch : UInt64) (identifiers metadata : List (List Char)) :
    ofParts ⟨[number major, number minor, number patch], identifiers, metadata⟩ =
      ofLabels major minor patch identifiers metadata := by
  unfold ofParts
  simp only [readNumber_number]
  rfl

theorem ofParts_parts (v : Version) : ofParts v.parts = .ok v := by
  rw [parts, ofParts_numbers]
  exact ofLabels_chars v.major v.minor v.patch v.identifiers v.metadata

theorem isDigit_of_mem_number {n : UInt64} : ∀ c ∈ number n, c.isDigit :=
  Decimal.isDigit_of_isNumeric (Decimal.isNumeric_digits n.toNat)

theorem isDigit_of_mem_core {v : Version} : ∀ t ∈ v.parts.core, ∀ c ∈ t, c.isDigit := by
  intro t ht
  simp only [parts, List.mem_cons, List.not_mem_nil, or_false] at ht
  rcases ht with rfl | rfl | rfl <;> exact isDigit_of_mem_number

theorem isItemChar_of_mem_identifiers {v : Version} :
    ∀ t ∈ v.parts.identifiers, ∀ c ∈ t, isItemChar c := by
  intro t ht
  obtain ⟨i, hi, rfl⟩ := List.mem_map.mp ht
  exact i.isItemChar_of_mem

theorem isItemChar_of_mem_metadata {v : Version} :
    ∀ t ∈ v.parts.metadata, ∀ c ∈ t, isItemChar c := by
  intro t ht
  obtain ⟨i, hi, rfl⟩ := List.mem_map.mp ht
  exact i.isItemChar_of_mem

theorem separable_parts (v : Version) : v.parts.Separable where
  core_ne_nil := by simp [parts]
  core t ht := by
    have hd := isDigit_of_mem_core t ht
    exact ⟨not_mem_of_class hd (by decide), not_mem_of_class hd (by decide),
      not_mem_of_class hd (by decide)⟩
  identifiers t ht := by
    have hi := isItemChar_of_mem_identifiers t ht
    exact ⟨not_mem_of_class hi (by decide), not_mem_of_class hi (by decide)⟩
  metadata t ht := not_mem_of_class (isItemChar_of_mem_metadata t ht) (by decide)

theorem isVersionChar_of_isDigit {c : Char} (h : c.isDigit) : isVersionChar c :=
  isVersionChar_iff.mpr (.inl (isItemChar_of_isDigit h))

theorem isVersionChar_of_mem_join (v : Version) : ∀ c ∈ v.parts.join, isVersionChar c := by
  apply Parts.forall_mem_join (by decide) (by decide) (by decide)
  · exact fun t ht c hc => isVersionChar_of_isDigit (isDigit_of_mem_core t ht c hc)
  · exact fun t ht c hc => isVersionChar_iff.mpr (.inl (isItemChar_of_mem_identifiers t ht c hc))
  · exact fun t ht c hc => isVersionChar_iff.mpr (.inl (isItemChar_of_mem_metadata t ht c hc))

theorem join_eq_cons (v : Version) : ∃ d t, d.isDigit ∧ v.parts.join = d :: t := by
  cases hm : number v.major with
  | nil => exact absurd hm Nat.toDigits_ne_nil
  | cons d t =>
    have hd : d.isDigit := isDigit_of_mem_number d (by rw [hm]; simp)
    refine ⟨d, v.parts.join.tail, hd, ?_⟩
    simp only [Parts.join, parts, hm, Parts.dotted, List.intercalate_cons_cons, List.cons_append,
      List.tail_cons]

theorem unmarked_cons {d : Char} (hd : d.isDigit) (mode : Mode) (t : List Char) :
    unmarked mode (d :: t) = d :: t := by
  unfold unmarked
  split
  · next h => cases h; simp at hd
  · next h => cases h; simp at hd
  · rfl

theorem parse_render (mode : Mode) (v : Version) : parse mode v.render = .ok v := by
  obtain ⟨d, t, hd, hj⟩ := join_eq_cons v
  have hu : unmarked mode v.parts.join = v.parts.join := by rw [hj, unmarked_cons hd]
  have hn : v.parts.join ≠ [] := by simp [hj]
  rw [render, parse_ofList mode hn (isVersionChar_of_mem_join v), hu,
    Parts.cut_join v.separable_parts, ofParts_parts]

theorem render_injective {v w : Version} (h : v.render = w.render) : v = w := by
  have hp : (Except.ok v : Except Error Version) = .ok w := by
    rw [← parse_render .strict v, h, parse_render]
  exact Except.ok.inj hp

theorem parse_renderMarked (mode : Mode) (v : Version) :
    parse mode v.renderMarked = ofParts (.cut (unmarked mode ('v' :: v.parts.join))) := by
  apply parse_ofList mode (List.cons_ne_nil _ _)
  exact List.forall_mem_cons.mpr ⟨by decide, isVersionChar_of_mem_join v⟩

theorem parse_lenient_renderMarked (v : Version) : parse .lenient v.renderMarked = .ok v := by
  have hu : unmarked .lenient ('v' :: v.parts.join) = v.parts.join := rfl
  rw [parse_renderMarked, hu, Parts.cut_join v.separable_parts, ofParts_parts]

def markedParts (v : Version) : Parts :=
  { v.parts with core := ['v' :: number v.major, number v.minor, number v.patch] }

theorem join_markedParts (v : Version) : v.markedParts.join = 'v' :: v.parts.join := by
  simp [markedParts, parts, Parts.join, Parts.dotted]

theorem separable_markedParts (v : Version) : v.markedParts.Separable where
  core_ne_nil := by simp [markedParts]
  core t ht := by
    have h := v.separable_parts.core
    rcases List.mem_cons.mp ht with rfl | ht
    · have hm := h (number v.major) (by simp [parts])
      simpa using hm
    · exact h t (List.mem_cons_of_mem _ ht)
  identifiers := v.separable_parts.identifiers
  metadata := v.separable_parts.metadata

theorem parse_strict_renderMarked (v : Version) : parse .strict v.renderMarked =
    .error (.invalidNumber .major (String.ofList ('v' :: number v.major)) .notANumber) := by
  have hu : unmarked .strict ('v' :: v.parts.join) = v.markedParts.join := (join_markedParts v).symm
  have hn : Decimal.isNumeric ('v' :: number v.major) = false := rfl
  rw [parse_renderMarked, hu, Parts.cut_join v.separable_markedParts]
  unfold ofParts markedParts
  simp only [readNumber, hn]
  rfl

theorem parse_rendered_modes (v : Version) :
    parse .strict v.render = .ok v ∧ parse .lenient v.render = .ok v ∧
      parse .lenient v.renderMarked = .ok v ∧
      parse .strict v.renderMarked =
        .error (.invalidNumber .major (String.ofList ('v' :: number v.major)) .notANumber) :=
  ⟨parse_render .strict v, parse_render .lenient v, parse_lenient_renderMarked v,
    parse_strict_renderMarked v⟩

end Versioning.Version
