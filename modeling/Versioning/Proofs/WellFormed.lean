import Versioning.Json
import Versioning.Proofs.Cache
import Versioning.Proofs.Range.Completeness
import Versioning.Proofs.Version.Building
import Versioning.Proofs.Version.Spelling

namespace Versioning

theorem Identifier.toList_text (i : Identifier) : i.text.toList = i.chars :=
  String.toList_ofList

theorem BuildItem.toList_text (i : BuildItem) : i.text.toList = i.chars :=
  String.toList_ofList

namespace Version

structure Parts.Valid (p : Parts) : Prop where
  identifiers : ∀ t ∈ p.identifiers, isIdentifier t
  metadata : ∀ t ∈ p.metadata, isItem t

theorem valid_parts (v : Version) : v.parts.Valid where
  identifiers t ht := by
    obtain ⟨i, -, rfl⟩ := List.mem_map.mp ht
    exact i.valid
  metadata t ht := by
    obtain ⟨i, -, rfl⟩ := List.mem_map.mp ht
    exact i.valid

theorem parts_of_parse {mode : Mode} {s : String} {v : Version} (h : parse mode s = .ok v) :
    v.parts = .cut (unmarked mode (Text.trim s.toList)) := by
  obtain ⟨p, hp, ht⟩ := parse_eq_ok_iff.mp h
  rw [ht, unmarked_append_join hp, Parts.cut_join v.separable_parts]

def FirstInvalid (valid : List Char → Bool) (labels : List String) (t : String) : Prop :=
  ∃ before after, labels = before ++ t :: after ∧ (∀ u ∈ before, valid u.toList) ∧ ¬ valid t.toList

variable {major minor patch : UInt64} {identifiers metadata : List String}

theorem build_eq_error_iff {e : Error} :
    build major minor patch identifiers metadata = .error e ↔
      (∃ t, FirstInvalid isIdentifier identifiers t ∧ e = .invalidIdentifier t) ∨
        (∀ t ∈ identifiers, isIdentifier t.toList) ∧
          ∃ t, FirstInvalid isItem metadata t ∧ e = .invalidMetadata t := by
  rw [build, ofLabels_eq_error_iff]
  simp only [firstFailing_map, List.forall_mem_map, exists_exists_and_eq_and, String.ofList_toList]
  exact Iff.rfl

theorem map_text_eq_iff {α : Type} {text : α → String} {chars : α → List Char}
    (h : ∀ i, (text i).toList = chars i) {is : List α} :
    is.map text = identifiers ↔ is.map chars = identifiers.map String.toList := by
  have hinj : Function.Injective String.toList := fun _ _ ht => String.toList_injective ht
  have hcomp : String.toList ∘ text = chars := funext h
  rw [← (List.map_injective_iff.mpr hinj).eq_iff, List.map_map, hcomp]

theorem build_eq_ok_iff {v : Version} :
    build major minor patch identifiers metadata = .ok v ↔
      v.major = major ∧ v.minor = minor ∧ v.patch = patch ∧
        v.identifiers.map Identifier.text = identifiers ∧
        v.metadata.map BuildItem.text = metadata := by
  rw [map_text_eq_iff Identifier.toList_text, map_text_eq_iff BuildItem.toList_text]
  constructor
  · intro h
    obtain ⟨is, hi, h⟩ := bind_eq_ok h
    obtain ⟨ms, hm, h⟩ := bind_eq_ok h
    cases h
    exact ⟨rfl, rfl, rfl, map_of_mapM_eq_ok chars_of_readIdentifier hi,
      map_of_mapM_eq_ok chars_of_readMetadata hm⟩
  · rintro ⟨rfl, rfl, rfl, hi, hm⟩
    rw [build, ← hi, ← hm]
    exact ofLabels_chars _ _ _ _ _

end Version

namespace Range

structure WellFormed (r : Range) : Prop where
  sets_ne_nil : r.sets ≠ []
  set_ne_nil : ∀ set ∈ r.sets, set ≠ []
  valid : ∀ set ∈ r.sets, ∀ c ∈ set, c.version.parts.Valid

theorem wellFormed (r : Range) : r.WellFormed where
  sets_ne_nil := r.sets_ne_nil
  set_ne_nil set hs := by
    rintro rfl
    exact r.nil_not_mem hs
  valid _ _ c _ := c.version.valid_parts

theorem ofSets_eq_ok_iff {sets : List (List Comparator)} {r : Range} :
    ofSets sets = .ok r ↔ r.sets = sets := by
  constructor
  · intro h
    unfold ofSets at h
    split at h
    · cases h
      rfl
    · contradiction
  · rintro rfl
    exact ofSets_sets r

theorem ofSets_eq_error_iff {sets : List (List Comparator)} {e : Error} :
    ofSets sets = .error e ↔ e = .emptySet ∧ (sets = [] ∨ [] ∈ sets) := by
  unfold ofSets
  split
  · next h => simp [h.1, h.2]
  · next h =>
    have h' : sets = [] ∨ [] ∈ sets := by
      by_cases hn : sets = []
      · exact .inl hn
      · exact .inr (by_contra fun hm => h ⟨hn, hm⟩)
    simp [h', eq_comm]

theorem ClosedText.nil_not_mem {sets : List (List Comparator)} {t : List Char}
    (h : ClosedText sets t) : [] ∉ sets := by
  induction h with
  | nil => exact List.not_mem_nil
  | snoc _ _ hs _ ih => simpa using ⟨ih, hs.ne_nil⟩

theorem OpenText.nil_not_mem {closed : List (List Comparator)} {current : List Comparator}
    {t : List Char} (h : OpenText closed current t) : [] ∉ closed := by
  cases h with
  | empty hp _ => exact hp.nil_not_mem
  | filled ht _ =>
    obtain ⟨_, _, _, _, hp, _, _⟩ := ht
    exact hp.nil_not_mem

namespace Reader

theorem nil_not_mem_closed {r : Reader} {t : List Char} (h : t.foldlM step start = .ok r) :
    [] ∉ r.closed := by
  obtain ⟨p, u, -, hp, -⟩ := consumed_foldlM h consumed_start
  exact fun hm => hp.nil_not_mem (Array.mem_toList_iff.mpr hm)

theorem range_eq_error_iff {r : Reader} {t : List Char} (h : t.foldlM step start = .ok r)
    {e : Error} : r.range = .error e ↔ e = .emptySet ∧ r.current = #[] := by
  -- The sets that are closed need no check any more, only the open one is left.
  have hclosed := nil_not_mem_closed h
  have hpush : [] ∈ (r.closed.push r.current.toList).toList ↔ r.current = #[] := by
    simp [hclosed]
  rw [range, ofSets_eq_error_iff, hpush]
  simp

end Reader

end Range

theorem Json.decode_eq_ok_iff {ε α : Type} {parse : String → Except ε α} {j : Json} {x : α} :
    decode parse j = .ok x ↔ ∃ s, j = .string s ∧ parse s = .ok x := by
  cases j with
  | string s =>
    rw [decode]
    cases hp : parse s <;> simp [Except.mapError, hp]
  | _ => simp [decode]

/-- Whichever way versions and ranges are had, their labels are valid and no set is empty. A version
that is read has the labels of its text, a stored value is one that was read, building takes labels
as they are and names the first that is not valid, and a range is what its sets make, unless one of
them is empty. -/
theorem values_well_formed :
    (∀ v : Version, v.parts.Valid) ∧ (∀ r : Range, r.WellFormed) ∧
      (∀ mode s v, Version.parse mode s = .ok v →
        v.parts = .cut (Version.unmarked mode (Text.trim s.toList))) ∧
      (∀ j v, Version.ofJson j = .ok v ↔ ∃ s, j = .string s ∧ Version.parse .strict s = .ok v) ∧
      (∀ j r, Range.ofJson j = .ok r ↔ ∃ s, j = .string s ∧ Range.parse s = .ok r) ∧
      (∀ requests s shared, (Cache.run requests).versions.entries[s]? = some shared →
        Version.parse .strict s = .ok shared.value) ∧
      (∀ requests s shared, (Cache.run requests).ranges.entries[s]? = some shared →
        Range.parse s = .ok shared.value) ∧
      (∀ (t : List Char) (r : Range.Reader), t.foldlM Range.Reader.step .start = .ok r →
        [] ∉ r.closed ∧ ∀ e, r.range = .error e ↔ e = .emptySet ∧ r.current = #[]) ∧
      (∀ sets r, Range.ofSets sets = .ok r ↔ r.sets = sets) ∧
      (∀ sets e, Range.ofSets sets = .error e ↔ e = .emptySet ∧ (sets = [] ∨ [] ∈ sets)) ∧
      (∀ major minor patch identifiers metadata v,
        Version.build major minor patch identifiers metadata = .ok v ↔
          v.major = major ∧ v.minor = minor ∧ v.patch = patch ∧
            v.identifiers.map Identifier.text = identifiers ∧
            v.metadata.map BuildItem.text = metadata) ∧
      ∀ major minor patch identifiers metadata e,
        Version.build major minor patch identifiers metadata = .error e ↔
          (∃ t, Version.FirstInvalid isIdentifier identifiers t ∧ e = .invalidIdentifier t) ∨
            (∀ t ∈ identifiers, isIdentifier t.toList) ∧
              ∃ t, Version.FirstInvalid isItem metadata t ∧ e = .invalidMetadata t :=
  ⟨Version.valid_parts, Range.wellFormed, fun _ _ _ => Version.parts_of_parse,
    fun _ _ => Json.decode_eq_ok_iff, fun _ _ => Json.decode_eq_ok_iff,
    fun requests => (Cache.holds_run requests).1.value,
    fun requests => (Cache.holds_run requests).2.value,
    fun _ _ h => ⟨Range.Reader.nil_not_mem_closed h, fun _ => Range.Reader.range_eq_error_iff h⟩,
    fun _ _ => Range.ofSets_eq_ok_iff, fun _ _ => Range.ofSets_eq_error_iff,
    fun _ _ _ _ _ _ => Version.build_eq_ok_iff, fun _ _ _ _ _ _ => Version.build_eq_error_iff⟩

theorem values_well_formed_sources :
    Version.parse .lenient " V1.0.0-0a.-+01\n" =
        .ok ⟨1, 0, 0, [⟨['0', 'a'], rfl⟩, ⟨['-'], rfl⟩], [⟨['0', '1'], rfl⟩]⟩ ∧
      (⟨1, 0, 0, [⟨['0', 'a'], rfl⟩, ⟨['-'], rfl⟩], [⟨['0', '1'], rfl⟩]⟩ : Version).parts =
        .cut "1.0.0-0a.-+01".toList ∧
      (Cache.run [.version "1.0.0"]).versions.entries["1.0.0"]? = some ⟨0, .release 1 0 0⟩ ∧
      Version.parse .strict "1.0.0" = .ok (.release 1 0 0) ∧
      (Cache.run [.range "1.0.0"]).ranges.entries["1.0.0"]? =
        some ⟨0, [[⟨.equal, .release 1 0 0⟩]], by decide, by decide⟩ ∧
      Range.parse "1.0.0" = .ok ⟨[[⟨.equal, .release 1 0 0⟩]], by decide, by decide⟩ ∧
      "1.0.0 ||".toList.foldlM Range.Reader.step .start =
        .ok ⟨8, #[[⟨.equal, .release 1 0 0⟩]], #[], .between⟩ ∧
      [] ∉ #[[(⟨.equal, .release 1 0 0⟩ : Comparator)]] := by
  obtain ⟨-, -, hparse, -, -, hversions, hranges, hreader, -⟩ := values_well_formed
  have hone : Version.parse .strict "1.0.0" = .ok (.release 1 0 0) := rfl
  have hsets : Range.parse "1.0.0" =
      .ok ⟨[[⟨.equal, .release 1 0 0⟩]], by decide, by decide⟩ := rfl
  have hversion : (Cache.run [.version "1.0.0"]).versions.entries["1.0.0"]? =
      some ⟨0, .release 1 0 0⟩ := by
    have hrun : (Cache.run [.version "1.0.0"]).versions =
        (Table.empty.lookup (Version.parse .strict) "1.0.0").2 := rfl
    rw [hrun, Table.getElem?_lookup_miss (by simp [Table.empty]) hone]
    rfl
  have hrange : (Cache.run [.range "1.0.0"]).ranges.entries["1.0.0"]? =
      some ⟨0, [[⟨.equal, .release 1 0 0⟩]], by decide, by decide⟩ := by
    have hrun : (Cache.run [.range "1.0.0"]).ranges =
        (Table.empty.lookup Range.parse "1.0.0").2 := rfl
    rw [hrun, Table.getElem?_lookup_miss (by simp [Table.empty]) hsets]
    rfl
  have hread : "1.0.0 ||".toList.foldlM Range.Reader.step .start =
      .ok ⟨8, #[[⟨.equal, .release 1 0 0⟩]], #[], .between⟩ := rfl
  exact ⟨rfl, hparse .lenient " V1.0.0-0a.-+01\n" _ rfl, hversion, hversions _ _ _ hversion, hrange,
    hranges _ _ _ hrange, hread, (hreader _ _ hread).1⟩

end Versioning
