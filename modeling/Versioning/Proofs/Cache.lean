import Mathlib.Data.List.Induction
import Versioning.Cache

namespace Versioning

namespace Table

variable {ε α : Type} {parse : String → Except ε α} {t : Table α} {text : String}

structure Holds (parse : String → Except ε α) (t : Table α) (asked : String → Prop) : Prop where
  nodup : t.entries.keys.Nodup
  mem_iff : ∀ text, text ∈ t.entries.keys ↔ asked text ∧ ∃ value, parse text = .ok value
  value : ∀ text shared, t.entries[text]? = some shared → parse text = .ok shared.value

theorem lookup_hit {shared : Shared α} (h : t.entries[text]? = some shared) :
    t.lookup parse text = (.ok shared, t) := by
  rw [lookup, h]

theorem lookup_failure {e : ε} (hm : t.entries[text]? = none) (h : parse text = .error e) :
    t.lookup parse text = (.error e, t) := by
  rw [lookup, hm, h]

theorem lookup_miss {value : α} (hm : t.entries[text]? = none) (h : parse text = .ok value) :
    t.lookup parse text = (.ok ⟨t.built, value⟩, t.insert text value) := by
  rw [lookup, hm, h]

theorem getElem?_lookup_miss {value : α} (hm : t.entries[text]? = none)
    (h : parse text = .ok value) :
    (t.lookup parse text).2.entries[text]? = some ⟨t.built, value⟩ := by
  rw [lookup_miss hm h]
  exact Std.HashMap.getElem?_insert_self

theorem mem_keys_iff : text ∈ t.entries.keys ↔ ∃ shared, t.entries[text]? = some shared := by
  rw [Std.HashMap.mem_keys, ← Std.HashMap.isSome_getElem?_iff_mem, Option.isSome_iff_exists]

theorem holds_empty : Holds parse empty fun _ => False where
  nodup := Std.HashMap.nodup_keys
  mem_iff text := by simp [empty]
  value text shared h := by simp [empty] at h

theorem holds_clear (t : Table α) : Holds parse t.clear fun _ => False where
  nodup := Std.HashMap.nodup_keys
  mem_iff text := by simp [clear]
  value text shared h := by simp [clear] at h

namespace Holds

variable {asked : String → Prop}

theorem congr {asked' : String → Prop} (h : Holds parse t asked) (he : ∀ u, asked' u ↔ asked u) :
    Holds parse t asked' where
  nodup := h.nodup
  mem_iff u := by rw [h.mem_iff, he]
  value := h.value

theorem lookup_value (h : Holds parse t asked) (text : String) :
    (t.lookup parse text).1.map Shared.value = parse text := by
  cases hm : t.entries[text]? with
  | some shared =>
    rw [lookup_hit hm, h.value text shared hm]
    rfl
  | none => cases hp : parse text with
    | error e =>
      rw [lookup_failure hm hp]
      rfl
    | ok value =>
      rw [lookup_miss hm hp]
      rfl

theorem lookup_unchanged (h : Holds parse t asked) (hu : (∃ e, parse text = .error e) ∨ asked text) :
    (t.lookup parse text).2 = t := by
  cases hm : t.entries[text]? with
  | some shared => rw [lookup_hit hm]
  | none => cases hp : parse text with
    | error e => rw [lookup_failure hm hp]
    | ok value =>
      -- It can be read and was asked for, so it cannot be missing.
      have ha : asked text := by simpa [hp] using hu
      obtain ⟨shared, hs⟩ := mem_keys_iff.mp ((h.mem_iff text).mpr ⟨ha, value, hp⟩)
      cases hm.symm.trans hs

theorem insert {value : α} (h : Holds parse t asked) (hp : parse text = .ok value) :
    Holds parse (t.insert text value) fun u => u = text ∨ asked u where
  nodup := Std.HashMap.nodup_keys
  mem_iff u := by
    have hm := h.mem_iff u
    rw [Std.HashMap.mem_keys] at hm
    rw [Table.insert, Std.HashMap.mem_keys, Std.HashMap.mem_insert, hm, beq_iff_eq]
    constructor
    · rintro (rfl | ⟨ha, hv⟩)
      · exact ⟨.inl rfl, value, hp⟩
      · exact ⟨.inr ha, hv⟩
    · rintro ⟨rfl | ha, hv⟩
      · exact .inl rfl
      · exact .inr ⟨ha, hv⟩
  value u shared hs := by
    rw [Table.insert, Std.HashMap.getElem?_insert] at hs
    split at hs
    · next he =>
      cases hs
      rwa [← eq_of_beq he]
    · exact h.value u shared hs

theorem lookup (h : Holds parse t asked) (text : String) :
    Holds parse (t.lookup parse text).2 fun u => u = text ∨ asked u := by
  by_cases hu : (∃ e, parse text = .error e) ∨ asked text
  · have hsame (u : String) : (u = text ∨ asked u) ∧ (∃ value, parse u = .ok value) ↔
        asked u ∧ ∃ value, parse u = .ok value := by
      constructor
      · rintro ⟨rfl | ha, hv⟩
        · obtain ⟨value, hv⟩ := hv
          exact ⟨by simpa [hv] using hu, value, hv⟩
        · exact ⟨ha, hv⟩
      · rintro ⟨ha, hv⟩
        exact ⟨.inr ha, hv⟩
    rw [h.lookup_unchanged hu]
    exact ⟨h.nodup, fun u => by rw [h.mem_iff, hsame], h.value⟩
  · obtain ⟨hp, ha⟩ := not_or.mp hu
    cases hv : parse text with
    | error e => exact absurd ⟨e, hv⟩ hp
    | ok value =>
      have hm : t.entries[text]? = none := by
        rw [Option.eq_none_iff_forall_ne_some]
        intro shared hs
        exact ha ((h.mem_iff text).mp (mem_keys_iff.mpr ⟨shared, hs⟩)).1
      rw [lookup_miss hm hv]
      exact h.insert hv

end Holds

end Table

namespace Cache

def Asked (request : Request) (requests : List Request) : Prop :=
  ∃ earlier later, requests = earlier ++ request :: later ∧ .clear ∉ later

theorem run_append_singleton (requests : List Request) (last : Request) :
    run (requests ++ [last]) = (run requests).after last :=
  List.foldl_append

theorem asked_append_singleton {request last : Request} {requests : List Request} :
    Asked request (requests ++ [last]) ↔
      request = last ∨ last ≠ .clear ∧ Asked request requests := by
  constructor
  · rintro ⟨earlier, later, he, hc⟩
    rcases List.eq_nil_or_concat later with rfl | ⟨later, r, rfl⟩
    · obtain ⟨-, hl⟩ := List.append_inj' he rfl
      exact .inl (by simpa using hl.symm)
    · rw [List.concat_eq_append, ← List.cons_append, ← List.append_assoc] at he
      rw [List.concat_eq_append] at hc
      obtain ⟨rfl, hl⟩ := List.append_inj' he rfl
      have hr : last = r := by simpa using hl
      subst hr
      exact .inr ⟨fun hl => hc (by simp [hl]), earlier, later, rfl, fun hm => hc (by simp [hm])⟩
  · rintro (rfl | ⟨hl, earlier, later, rfl, hc⟩)
    · exact ⟨requests, [], rfl, List.not_mem_nil⟩
    · refine ⟨earlier, later ++ [last], by simp, ?_⟩
      simpa using ⟨hc, hl.symm⟩

theorem not_asked_nil {request : Request} : ¬ Asked request [] := by
  rintro ⟨earlier, later, he, -⟩
  simp at he

def Holds (c : Cache) (requests : List Request) : Prop :=
  c.versions.Holds (Version.parse .strict) (fun s => Asked (.version s) requests) ∧
    c.ranges.Holds Range.parse fun s => Asked (.range s) requests

theorem Holds.after {c : Cache} {requests : List Request} (h : c.Holds requests)
    (last : Request) : (c.after last).Holds (requests ++ [last]) := by
  obtain ⟨hv, hr⟩ := h
  cases last with
  | version text =>
    exact ⟨(hv.lookup text).congr fun s => by simp [asked_append_singleton],
      hr.congr fun s => by simp [asked_append_singleton]⟩
  | range text =>
    exact ⟨hv.congr fun s => by simp [asked_append_singleton],
      (hr.lookup text).congr fun s => by simp [asked_append_singleton]⟩
  | clear =>
    exact ⟨(Table.holds_clear _).congr fun s => by simp [asked_append_singleton],
      (Table.holds_clear _).congr fun s => by simp [asked_append_singleton]⟩

theorem holds_run (requests : List Request) : (run requests).Holds requests := by
  induction requests using List.reverseRecOn with
  | nil =>
    exact ⟨Table.holds_empty.congr fun s => by simp [not_asked_nil],
      Table.holds_empty.congr fun s => by simp [not_asked_nil]⟩
  | append_singleton requests last ih =>
    rw [run_append_singleton]
    exact ih.after last

theorem version_fst (c : Cache) (text : String) :
    (c.version text).1 = (c.versions.lookup (Version.parse .strict) text).1 :=
  rfl

theorem range_fst (c : Cache) (text : String) :
    (c.range text).1 = (c.ranges.lookup Range.parse text).1 :=
  rfl

theorem version_snd (c : Cache) (text : String) : (c.version text).2 =
    { c with versions := (c.versions.lookup (Version.parse .strict) text).2 } :=
  rfl

theorem range_snd (c : Cache) (text : String) : (c.range text).2 =
    { c with ranges := (c.ranges.lookup Range.parse text).2 } :=
  rfl

theorem size_eq (c : Cache) :
    c.size = c.versions.entries.keys.length + c.ranges.entries.keys.length := by
  rw [Std.HashMap.length_keys, Std.HashMap.length_keys]
  rfl

theorem isEmpty_iff (c : Cache) : c.isEmpty ↔ c.size = 0 :=
  beq_iff_eq

/-- After any requests a cache answers as the parsers do, and holds the texts that were read with
success since the last clearing. A lookup that fails or is repeated changes nothing, and no lookup
changes the table of the other kind. -/
theorem run_transparent (requests : List Request) :
    (run requests).Holds requests ∧
      (∀ s, ((run requests).version s).1.map Shared.value = Version.parse .strict s) ∧
      (∀ s, ((run requests).range s).1.map Shared.value = Range.parse s) ∧
      (run requests).size = (run requests).versions.entries.keys.length +
        (run requests).ranges.entries.keys.length ∧
      ((run requests).isEmpty ↔ (run requests).size = 0) ∧
      (∀ s, (∃ e, Version.parse .strict s = .error e) ∨ Asked (.version s) requests →
        ((run requests).version s).2 = run requests) ∧
      (∀ s, (∃ e, Range.parse s = .error e) ∨ Asked (.range s) requests →
        ((run requests).range s).2 = run requests) ∧
      (∀ s, ((run requests).version s).2.ranges = (run requests).ranges ∧
        ((run requests).range s).2.versions = (run requests).versions) ∧
      (run requests).clear.size = 0 := by
  obtain ⟨hv, hr⟩ := holds_run requests
  exact ⟨⟨hv, hr⟩, hv.lookup_value, hr.lookup_value, size_eq _, isEmpty_iff _,
    fun s hs => by rw [version_snd, hv.lookup_unchanged hs],
    fun s hs => by rw [range_snd, hr.lookup_unchanged hs], fun s => ⟨rfl, rfl⟩, rfl⟩

theorem run_transparent_repeated :
    (∃ e, Version.parse .strict "v1.0.0" = .error e) ∧ (∃ e, Range.parse "|" = .error e) ∧
      Asked (.version "1.0.0")
        [.version "1.0.0", .range "1.0.0", .clear, .version "1.0.0", .range "1.0.0"] ∧
      ((run [.version "1.0.0", .range "1.0.0", .clear, .version "1.0.0", .range "1.0.0"]).version
          "1.0.0").2 =
        run [.version "1.0.0", .range "1.0.0", .clear, .version "1.0.0", .range "1.0.0"] ∧
      ((run [.version "1.0.0", .range "1.0.0"]).version "v1.0.0").2 =
        run [.version "1.0.0", .range "1.0.0"] ∧
      ((run [.version "1.0.0", .range "1.0.0"]).range "|").2 =
        run [.version "1.0.0", .range "1.0.0"] := by
  have hversion : ∃ e, Version.parse .strict "v1.0.0" = .error e :=
    ⟨.invalidNumber .major "v1" .notANumber, rfl⟩
  have hrange : ∃ e, Range.parse "|" = .error e := ⟨.invalidCharacter 1, rfl⟩
  have hasked : Asked (.version "1.0.0")
      [.version "1.0.0", .range "1.0.0", .clear, .version "1.0.0", .range "1.0.0"] :=
    ⟨[.version "1.0.0", .range "1.0.0", .clear], [.range "1.0.0"], rfl, by decide⟩
  obtain ⟨-, -, -, -, -, hagain, -⟩ := run_transparent
    [.version "1.0.0", .range "1.0.0", .clear, .version "1.0.0", .range "1.0.0"]
  obtain ⟨-, -, -, -, -, hsame, hsame', -⟩ :=
    run_transparent [.version "1.0.0", .range "1.0.0"]
  exact ⟨hversion, hrange, hasked, hagain _ (.inr hasked), hsame _ (.inl hversion),
    hsame' _ (.inl hrange)⟩

end Cache

end Versioning
