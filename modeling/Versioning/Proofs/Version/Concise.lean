import Versioning.Proofs.Version.RoundTrip

namespace Versioning

theorem Identifier.chars_injective : Function.Injective Identifier.chars := by
  rintro ⟨t, ht⟩ ⟨u, hu⟩ rfl
  rfl

namespace Version

theorem number_injective {m n : UInt64} (h : number m = number n) : m = n := by
  have he : (Except.ok m : Except Error UInt64) = .ok n := by
    rw [← readNumber_number .major m, h, readNumber_number]
  exact Except.ok.inj he

theorem conciseParts_of_patch_ne_zero {v : Version} (h : v.patch ≠ 0) :
    v.conciseParts = v.withoutMetadata.parts := by
  rw [conciseParts, if_neg h]
  rfl

theorem core_conciseParts (v : Version) : v.conciseParts.core =
    [number v.major, number v.minor] ++ if v.patch = 0 then [] else [number v.patch] := by
  unfold conciseParts
  split <;> rfl

theorem mem_core_of_mem_concise {v : Version} {t : List Char} (h : t ∈ v.conciseParts.core) :
    t ∈ v.parts.core := by
  have hsub : v.conciseParts.core.Sublist v.parts.core := by
    rw [core_conciseParts]
    split
    · exact List.sublist_append_left [number v.major, number v.minor] [number v.patch]
    · exact .refl _
  exact hsub.mem h

theorem separable_conciseParts (v : Version) : v.conciseParts.Separable where
  core_ne_nil := by simp [core_conciseParts]
  core t ht := v.separable_parts.core t (mem_core_of_mem_concise ht)
  identifiers := v.separable_parts.identifiers
  metadata := by simp [conciseParts]

theorem isVersionChar_of_mem_concise (v : Version) :
    ∀ c ∈ v.conciseParts.join, isVersionChar c := by
  apply Parts.forall_mem_join (by decide) (by decide) (by decide)
  · intro t ht c hc
    exact isVersionChar_of_isDigit (isDigit_of_mem_core t (mem_core_of_mem_concise ht) c hc)
  · exact fun t ht c hc => isVersionChar_iff.mpr (.inl (isItemChar_of_mem_identifiers t ht c hc))
  · simp [conciseParts]

theorem concise_eq_cons (v : Version) : ∃ d t, d.isDigit ∧ v.conciseParts.join = d :: t := by
  cases hm : number v.major with
  | nil => exact absurd hm Nat.toDigits_ne_nil
  | cons d t =>
    have hd : d.isDigit := isDigit_of_mem_number d (by rw [hm]; simp)
    refine ⟨d, v.conciseParts.join.tail, hd, ?_⟩
    simp only [Parts.join, core_conciseParts, hm, Parts.dotted, List.cons_append, List.nil_append,
      List.intercalate_cons_cons, List.tail_cons]

theorem parse_concise_eq (v : Version) :
    parse .strict v.concise = ofParts v.conciseParts ∧
      parse .lenient v.conciseMarked = ofParts v.conciseParts := by
  obtain ⟨d, t, hd, hj⟩ := concise_eq_cons v
  have hc := isVersionChar_of_mem_concise v
  have hcut := Parts.cut_join v.separable_conciseParts
  constructor
  · have hu : unmarked .strict v.conciseParts.join = v.conciseParts.join := by
      rw [hj, unmarked_cons hd]
    rw [concise, parse_ofList .strict (by simp [hj]) hc, hu, hcut]
  · have hu : unmarked .lenient ('v' :: v.conciseParts.join) = v.conciseParts.join := rfl
    have hmarked : ∀ c ∈ 'v' :: v.conciseParts.join, isVersionChar c :=
      List.forall_mem_cons.mpr ⟨by decide, hc⟩
    rw [conciseMarked, parse_ofList .lenient (List.cons_ne_nil _ _) hmarked, hu, hcut]

theorem ofParts_conciseParts (v : Version) :
    ofParts v.conciseParts = if v.patch = 0 then .error .malformed else .ok v.withoutMetadata := by
  split
  next hz =>
    rw [ofParts, core_conciseParts, if_pos hz]
    rfl
  next hz => rw [conciseParts_of_patch_ne_zero hz, ofParts_parts]

theorem equivalent_of_conciseParts_eq {a b : Version} (h : a.conciseParts = b.conciseParts) :
    a.Equivalent b := by
  have hcore : a.conciseParts.core = b.conciseParts.core := congrArg Parts.core h
  have hids : a.identifiers.map Identifier.chars = b.identifiers.map Identifier.chars :=
    congrArg Parts.identifiers h
  rw [core_conciseParts, core_conciseParts] at hcore
  obtain ⟨hnumbers, hpatch⟩ := List.append_inj hcore rfl
  obtain ⟨hmajor, hminor⟩ : number a.major = number b.major ∧ number a.minor = number b.minor := by
    simpa using hnumbers
  refine ⟨number_injective hmajor, number_injective hminor, ?_,
    List.map_injective_iff.mpr Identifier.chars_injective hids⟩
  split at hpatch
  next ha =>
    split at hpatch
    next hb => rw [ha, hb]
    next => contradiction
  next =>
    split at hpatch
    next => contradiction
    next => exact number_injective (List.cons.inj hpatch).1

theorem conciseParts_eq_iff {a b : Version} : a.conciseParts = b.conciseParts ↔ a.Equivalent b := by
  constructor
  · exact equivalent_of_conciseParts_eq
  · intro h
    have hw := congrArg conciseParts (equivalent_iff.mp h)
    exact hw

theorem join_conciseParts_injective {a b : Version}
    (h : a.conciseParts.join = b.conciseParts.join) : a.Equivalent b := by
  apply equivalent_of_conciseParts_eq
  rw [← Parts.cut_join a.separable_conciseParts, h, Parts.cut_join b.separable_conciseParts]

theorem concise_eq_iff {a b : Version} : a.concise = b.concise ↔ a.Equivalent b := by
  constructor
  · intro h
    exact join_conciseParts_injective (String.ofList_injective h)
  · intro h
    rw [concise, concise, conciseParts_eq_iff.mpr h]

theorem conciseMarked_eq_iff {a b : Version} :
    a.conciseMarked = b.conciseMarked ↔ a.Equivalent b := by
  constructor
  · intro h
    exact join_conciseParts_injective (List.cons.inj (String.ofList_injective h)).2
  · intro h
    rw [conciseMarked, conciseMarked, conciseParts_eq_iff.mpr h]

theorem concise_forgets_metadata :
    (∀ a b : Version, a.concise = b.concise ↔ a.Equivalent b) ∧
      (∀ a b : Version, a.conciseMarked = b.conciseMarked ↔ a.Equivalent b) ∧
      ∀ v : Version,
        parse .strict v.concise =
          (if v.patch = 0 then .error .malformed else .ok v.withoutMetadata) ∧
        parse .lenient v.conciseMarked =
          (if v.patch = 0 then .error .malformed else .ok v.withoutMetadata) := by
  refine ⟨fun _ _ => concise_eq_iff, fun _ _ => conciseMarked_eq_iff, fun v => ?_⟩
  rw [← ofParts_conciseParts]
  exact parse_concise_eq v

example : parse .strict (concise ⟨1, 2, 0, [⟨['0'], rfl⟩, ⟨['3'], rfl⟩], []⟩) = .error .malformed :=
  rfl

end Version

end Versioning
