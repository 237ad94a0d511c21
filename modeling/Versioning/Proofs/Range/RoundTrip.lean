import Versioning.Proofs.Range.Completeness
import Versioning.Proofs.Version.RoundTrip

namespace Versioning

theorem Version.versionText_render (v : Version) : Range.VersionText v v.render.toList where
  ne_nil := by
    obtain ⟨d, t, -, hj⟩ := v.join_eq_cons
    rw [render, String.toList_ofList, hj]
    exact List.cons_ne_nil d t
  isVersionChar := by
    rw [render, String.toList_ofList]
    exact v.isVersionChar_of_mem_join
  parse := by
    rw [String.ofList_toList]
    exact v.parse_render .lenient

namespace Range

theorem comparatorText_render (c : Comparator) : ComparatorText c c.render.toList := by
  rw [Comparator.render, String.toList_append]
  exact .marked c.operator c.version.versionText_render

theorem toList_render (r : Range) : r.render.toList =
    [' ', '|', '|', ' '].intercalate (r.sets.map fun set =>
      [' '].intercalate (set.map fun c => c.render.toList)) := by
  rw [render, String.toList_intercalate, List.map_map]
  congr 1
  apply List.map_congr_left
  intro set _
  rw [Function.comp_apply, String.toList_intercalate, List.map_map]
  rfl

theorem rangeText_render (r : Range) : RangeText r.sets r.render.toList := by
  have hblank : AllBlank [' '] := .singleton (by decide)
  have hgap : Gap [' '] := ⟨by simp, hblank⟩
  have hbars : Bars [' ', '|', '|', ' '] := ⟨[' '], [' '], rfl, hgap, hblank⟩
  have hset : ∀ set ∈ r.sets, SetText set ([' '].intercalate (set.map fun c => c.render.toList)) := by
    intro set hs
    have hn : set ≠ [] := fun he => r.nil_not_mem (he ▸ hs)
    exact Separated.intercalate hgap _ hn fun c _ => comparatorText_render c
  refine ⟨[], _, [], ?_, .nil, Separated.intercalate hbars _ r.sets_ne_nil hset, .nil⟩
  rw [toList_render, List.nil_append, List.append_nil]

theorem parse_render (r : Range) : parse r.render = .ok r := by
  rw [parse_of_rangeText r.rangeText_render, ofSets_sets]

theorem parse_render_faithful :
    (∀ r : Range, parse r.render = .ok r) ∧
      (∀ r q : Range, r = q ↔ r.render = q.render) ∧
      ∀ s, ((parse s).map render >>= parse).map render = (parse s).map render := by
  refine ⟨parse_render, fun r q => ⟨congrArg render, fun h => ?_⟩, fun s => ?_⟩
  · have he : (Except.ok r : Except Error Range) = .ok q := by
      rw [← parse_render r, h, parse_render q]
    exact Except.ok.inj he
  · cases parse s with
    | error e => rfl
    | ok r =>
      change (parse r.render).map render = _
      rw [parse_render]

end Range

end Versioning
