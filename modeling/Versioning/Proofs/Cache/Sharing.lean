import Versioning.Proofs.Cache

/-!
Values shared by a cache. A table never uses a number again and gives no two texts the same one, so
two lookups hand out one shared value just when they are for one text and nothing was cleared
between them.
-/

namespace Versioning

namespace Table

variable {ε α : Type} {parse : String → Except ε α} {t : Table α} {text : String} {a : Shared α}

/-- The table has built this value for this text. As long as it is kept it is found there, and its
number is never found anywhere else. -/
structure Built (t : Table α) (text : String) (a : Shared α) (kept : Prop) : Prop where
  id_lt : a.id < t.built
  unique : ∀ u b, t.entries[u]? = some b → a.id = b.id → text = u ∧ kept
  entry : kept → t.entries[text]? = some a

def Numbered (t : Table α) : Prop :=
  ∀ text a, t.entries[text]? = some a → t.Built text a True

theorem getElem?_empty (u : String) : (empty : Table α).entries[u]? = none := by
  simp [empty]

theorem getElem?_clear (t : Table α) (u : String) : t.clear.entries[u]? = none := by
  simp [clear]

theorem getElem?_insert (t : Table α) (u v : String) (value : α) :
    (t.insert u value).entries[v]? = if u = v then some ⟨t.built, value⟩ else t.entries[v]? := by
  rw [Table.insert, Std.HashMap.getElem?_insert]
  simp only [beq_iff_eq]

theorem lookup_cases (parse : String → Except ε α) (t : Table α) (u : String) :
    (t.lookup parse u).2 = t ∨
      t.entries[u]? = none ∧ ∃ value, (t.lookup parse u).2 = t.insert u value := by
  cases hu : t.entries[u]? with
  | some b =>
    left
    rw [lookup_hit hu]
  | none =>
    cases hp : parse u with
    | error e =>
      left
      rw [lookup_failure hu hp]
    | ok value =>
      right
      exact ⟨rfl, value, by rw [lookup_miss hu hp]⟩

theorem entry_of_lookup (h : (t.lookup parse text).1 = .ok a) :
    (t.lookup parse text).2.entries[text]? = some a := by
  cases ht : t.entries[text]? with
  | some b =>
    rw [lookup_hit ht] at h ⊢
    cases h
    exact ht
  | none =>
    cases hp : parse text with
    | error e =>
      rw [lookup_failure ht hp] at h
      contradiction
    | ok value =>
      have hm := getElem?_lookup_miss ht hp
      rw [lookup_miss ht hp] at h hm ⊢
      cases h
      exact hm

namespace Built

variable {kept : Prop}

theorem congr {kept' : Prop} (h : t.Built text a kept) (he : kept' ↔ kept) :
    t.Built text a kept' := by
  rwa [propext he]

theorem insert (h : t.Built text a kept) {u : String} (hu : t.entries[u]? = none) (value : α) :
    (t.insert u value).Built text a kept where
  id_lt := by
    have hlt := h.id_lt
    change a.id < t.built + 1
    omega
  unique v b hb he := by
    rw [getElem?_insert] at hb
    split at hb
    · -- The new number is above every number that was ever in use.
      cases hb
      have hlt := h.id_lt
      simp only at he
      omega
    · exact h.unique v b hb he
  entry hk := by
    have ha := h.entry hk
    have hne : u ≠ text := by
      rintro rfl
      cases hu.symm.trans ha
    rw [getElem?_insert, if_neg hne, ha]

theorem lookup (h : t.Built text a kept) (parse : String → Except ε α) (u : String) :
    (t.lookup parse u).2.Built text a kept := by
  rcases lookup_cases parse t u with hs | ⟨hu, value, hs⟩
  · rwa [hs]
  · rw [hs]
    exact h.insert hu value

theorem clear (h : t.Built text a kept) : t.clear.Built text a False where
  id_lt := h.id_lt
  unique u b hb := by
    rw [getElem?_clear] at hb
    contradiction
  entry := False.elim

theorem same_iff (h : t.Built text a kept) {u : String} {b : Shared α}
    (hb : (t.lookup parse u).1 = .ok b) :
    (a.id = b.id ↔ text = u ∧ kept) ∧ (a.id = b.id → a = b) := by
  have ha := h.lookup parse u
  have hu := entry_of_lookup hb
  have hsame : text = u ∧ kept → a = b := by
    rintro ⟨rfl, hk⟩
    have he := (ha.entry hk).symm.trans hu
    exact Option.some.inj he
  refine ⟨⟨ha.unique u b hu, fun hk => by rw [hsame hk]⟩, ?_⟩
  intro he
  exact hsame (ha.unique u b hu he)

end Built

namespace Numbered

theorem insert (h : t.Numbered) {u : String} (hu : t.entries[u]? = none) (value : α) :
    (t.insert u value).Numbered := by
  intro v b hb
  have hnew := hb
  rw [getElem?_insert] at hnew
  split at hnew
  · next huv =>
    subst huv
    cases hnew
    refine ⟨Nat.lt_succ_self _, ?_, fun _ => hb⟩
    intro w c hc he
    rw [getElem?_insert] at hc
    split at hc
    · next huw => exact ⟨huw, trivial⟩
    · have hlt := (h w c hc).id_lt
      simp only at he
      omega
  · exact (h v b hnew).insert hu value

theorem lookup (h : t.Numbered) (parse : String → Except ε α) (u : String) :
    (t.lookup parse u).2.Numbered := by
  rcases lookup_cases parse t u with hs | ⟨hu, value, hs⟩
  · rwa [hs]
  · rw [hs]
    exact h.insert hu value

theorem built (h : t.Numbered) (ha : (t.lookup parse text).1 = .ok a) :
    (t.lookup parse text).2.Built text a True :=
  h.lookup parse text text a (entry_of_lookup ha)

end Numbered

theorem numbered_empty : (empty : Table α).Numbered := by
  intro u b hb
  rw [getElem?_empty] at hb
  contradiction

theorem numbered_clear (t : Table α) : t.clear.Numbered := by
  intro u b hb
  rw [getElem?_clear] at hb
  contradiction

end Table

namespace Cache

variable {ε α : Type} {parse : String → Except ε α} {table : Cache → Table α}
  {ask : String → Request} {s t : String} {a b : Shared α}

/-- One of the tables of a cache: requests of its kind look up in it, a clearing clears it, and no
other request touches it. -/
structure Part (parse : String → Except ε α) (table : Cache → Table α) (ask : String → Request) :
    Prop where
  empty : table .empty = .empty
  lookup : ∀ c text, table (c.after (ask text)) = ((table c).lookup parse text).2
  step : ∀ c request, request = .clear ∧ table (c.after request) = (table c).clear ∨
    request ≠ .clear ∧ (table (c.after request) = table c ∨
      ∃ text, table (c.after request) = ((table c).lookup parse text).2)

theorem part_versions : Part (Version.parse .strict) Cache.versions .version where
  empty := rfl
  lookup _ _ := rfl
  step c request := by
    cases request with
    | version text => exact .inr ⟨by simp, .inr ⟨text, rfl⟩⟩
    | range text => exact .inr ⟨by simp, .inl rfl⟩
    | clear => exact .inl ⟨rfl, rfl⟩

theorem part_ranges : Part Range.parse Cache.ranges .range where
  empty := rfl
  lookup _ _ := rfl
  step c request := by
    cases request with
    | version text => exact .inr ⟨by simp, .inl rfl⟩
    | range text => exact .inr ⟨by simp, .inr ⟨text, rfl⟩⟩
    | clear => exact .inl ⟨rfl, rfl⟩

namespace Part

theorem numbered_after (h : Part parse table ask) {c : Cache} (hc : (table c).Numbered)
    (request : Request) : (table (c.after request)).Numbered := by
  rcases h.step c request with ⟨-, hs⟩ | ⟨-, hs | ⟨text, hs⟩⟩
  · rw [hs]
    exact Table.numbered_clear _
  · rwa [hs]
  · rw [hs]
    exact hc.lookup parse text

theorem numbered_run (h : Part parse table ask) (requests : List Request) :
    (table (run requests)).Numbered := by
  induction requests using List.reverseRecOn with
  | nil =>
    have he : table (run []) = .empty := h.empty
    rw [he]
    exact Table.numbered_empty
  | append_singleton requests last ih =>
    rw [run_append_singleton]
    exact h.numbered_after ih last

theorem built_after (h : Part parse table ask) {c : Cache} {kept : Prop}
    (hc : (table c).Built s a kept) (request : Request) :
    (table (c.after request)).Built s a (request ≠ .clear ∧ kept) := by
  rcases h.step c request with ⟨hr, hs⟩ | ⟨hr, hs | ⟨text, hs⟩⟩
  · rw [hs]
    exact hc.clear.congr (by simp [hr])
  · rw [hs]
    exact hc.congr (by simp [hr])
  · rw [hs]
    exact (hc.lookup parse text).congr (by simp [hr])

theorem built_run (h : Part parse table ask) {earlier : List Request}
    (ha : ((table (run earlier)).lookup parse s).1 = .ok a) (between : List Request) :
    (table (run (earlier ++ ask s :: between))).Built s a (.clear ∉ between) := by
  -- On the requests from the last one back, since it is the latest that may have cleared the table.
  induction between using List.reverseRecOn with
  | nil =>
    rw [run_append_singleton, h.lookup]
    exact ((h.numbered_run earlier).built ha).congr (by simp)
  | append_singleton between last ih =>
    rw [← List.cons_append, ← List.append_assoc, run_append_singleton]
    exact (h.built_after ih last).congr (by simp [not_or, and_comm, eq_comm])

theorem same_iff (h : Part parse table ask) {earlier between : List Request}
    (ha : ((table (run earlier)).lookup parse s).1 = .ok a)
    (hb : ((table (run (earlier ++ ask s :: between))).lookup parse t).1 = .ok b) :
    (a.id = b.id ↔ s = t ∧ .clear ∉ between) ∧ (a.id = b.id → a = b) :=
  (h.built_run ha between).same_iff hb

end Part

/-- Two lookups of one kind hand out the same shared value, number and content, just when they are
for the same text and no clearing came between them, whatever else was asked before and between. -/
theorem shared_id_eq_iff (earlier between : List Request) :
    (∀ s t a b, ((run earlier).version s).1 = .ok a →
      ((run (earlier ++ .version s :: between)).version t).1 = .ok b →
        (a.id = b.id ↔ s = t ∧ .clear ∉ between) ∧ (a.id = b.id → a = b)) ∧
      ∀ s t a b, ((run earlier).range s).1 = .ok a →
        ((run (earlier ++ .range s :: between)).range t).1 = .ok b →
          (a.id = b.id ↔ s = t ∧ .clear ∉ between) ∧ (a.id = b.id → a = b) :=
  ⟨fun _ _ _ _ ha hb => part_versions.same_iff ha hb,
    fun _ _ _ _ ha hb => part_ranges.same_iff ha hb⟩

theorem shared_id_eq_iff_cleared :
    ∃ (v : Version) (r : Range), ((run []).version "1.0.0").1 = .ok ⟨0, v⟩ ∧
      ((run [.version "1.0.0", .range "1.0.0"]).version "1.0.0").1 = .ok ⟨0, v⟩ ∧
      .clear ∉ [Request.range "1.0.0"] ∧ ((run []).range "1.0.0").1 = .ok ⟨0, r⟩ ∧
      ((run [.range "1.0.0", .clear]).range "1.0.0").1 = .ok ⟨1, r⟩ ∧
      .clear ∈ [Request.clear] := by
  obtain ⟨v, hversion⟩ : ∃ v, Version.parse .strict "1.0.0" = .ok v := ⟨_, rfl⟩
  obtain ⟨r, hrange⟩ : ∃ r, Range.parse "1.0.0" = .ok r := ⟨_, rfl⟩
  have hfirst : ((run []).version "1.0.0").1 = .ok ⟨0, v⟩ := by
    have hmiss : (run []).versions.entries["1.0.0"]? = none := Table.getElem?_empty _
    rw [version_fst, Table.lookup_miss hmiss hversion]
    rfl
  have hagain : ((run [.version "1.0.0", .range "1.0.0"]).version "1.0.0").1 = .ok ⟨0, v⟩ := by
    have hentry : (run [.version "1.0.0", .range "1.0.0"]).versions.entries["1.0.0"]? =
        some ⟨0, v⟩ := Table.getElem?_lookup_miss (Table.getElem?_empty _) hversion
    rw [version_fst, Table.lookup_hit hentry]
  have hbefore : ((run []).range "1.0.0").1 = .ok ⟨0, r⟩ := by
    have hmiss : (run []).ranges.entries["1.0.0"]? = none := Table.getElem?_empty _
    rw [range_fst, Table.lookup_miss hmiss hrange]
    rfl
  have hafter : ((run [.range "1.0.0", .clear]).range "1.0.0").1 = .ok ⟨1, r⟩ := by
    have hrun : (run [.range "1.0.0", .clear]).ranges =
        (Table.empty.lookup Range.parse "1.0.0").2.clear := rfl
    have hmiss : (run [.range "1.0.0", .clear]).ranges.entries["1.0.0"]? = none :=
      Table.getElem?_clear _ _
    rw [range_fst, Table.lookup_miss hmiss hrange, hrun,
      Table.lookup_miss (Table.getElem?_empty _) hrange]
    rfl
  obtain ⟨hsame, -⟩ := shared_id_eq_iff [] [.range "1.0.0"]
  obtain ⟨-, hother⟩ := shared_id_eq_iff [] [.clear]
  refine ⟨v, r, hfirst, hagain, ((hsame _ _ _ _ hfirst hagain).1.mp rfl).2, hbefore, hafter, ?_⟩
  by_contra hc
  exact Nat.zero_ne_one ((hother _ _ _ _ hbefore hafter).1.mpr ⟨rfl, hc⟩)

end Cache

end Versioning
