import Versioning.Proofs.Extremum
import Versioning.Proofs.Version.TotalOrder
import Versioning.Range.Selection

namespace Versioning.Range

open Version

variable {α : Type} {r : Range} {version : α → Version}

theorem greatest?_eq_getLast? {xs ys : List α}
    (h : StableSort (fun x y => (version x).precedence (version y)) (r.select version xs) ys) :
    r.greatest? version xs = ys.getLast? := by
  have := transCmp_comap version precedence
  exact Extremum.greatest?_eq_getLast? h

theorem least?_eq_head? {xs ys : List α}
    (h : StableSort (fun x y => (version x).precedence (version y)) (r.select version xs) ys) :
    r.least? version xs = ys.head? := by
  have := transCmp_comap version precedence
  exact Extremum.least?_eq_head? h

theorem exists_stableSort_select (r : Range) (version : α → Version) (xs : List α) :
    ∃ ys, StableSort (fun x y => (version x).precedence (version y)) (r.select version xs) ys := by
  have := transCmp_comap version precedence
  exact ⟨_, stableSort_mergeSort _ _⟩

section Places

variable {vs ws : List Version} {v w : Version} {i j : Nat}

theorem mem_select_zipIdx :
    (w, j) ∈ r.select Prod.fst vs.zipIdx ↔ vs[j]? = some w ∧ r.admits w := by
  rw [mem_select, List.mk_mem_zipIdx_iff_getElem?]

theorem pairwise_select_zipIdx (r : Range) (vs : List Version) :
    (r.select Prod.fst vs.zipIdx).Pairwise fun x y => x.2 < y.2 := by
  have h : (vs.zipIdx.map Prod.snd).Pairwise fun i j => i < j := by
    rw [List.zipIdx_map_snd]
    exact List.pairwise_lt_range'
  exact (List.pairwise_map.mp h).sublist List.filter_sublist

theorem select_eq_nil_iff : r.select Prod.fst vs.zipIdx = [] ↔ r.admitsAny vs = false := by
  rw [List.eq_nil_iff_forall_not_mem, admitsAny, List.any_eq_false]
  constructor
  · intro h v hv ha
    obtain ⟨i, hi⟩ := List.mem_iff_getElem?.mp hv
    exact h (v, i) (mem_select_zipIdx.mpr ⟨hi, ha⟩)
  · intro h x hx
    obtain ⟨hx, ha⟩ := mem_select_zipIdx.mp hx
    exact h x.1 (List.mem_of_getElem? hx) ha

theorem greatest?_eq_none_iff :
    r.greatest? Prod.fst vs.zipIdx = none ↔ r.admitsAny vs = false := by
  rw [greatest?, Extremum.greatest?_eq_none_iff, select_eq_nil_iff]

theorem least?_eq_none_iff : r.least? Prod.fst vs.zipIdx = none ↔ r.admitsAny vs = false := by
  rw [least?, Extremum.least?_eq_none_iff, select_eq_nil_iff]

theorem last_pair_iff {o : Ordering} (h : j = i → o = .eq) :
    ((j < i → ¬ o.isGT) ∧ (i < j → o.swap.isGT)) ↔ o ≠ .gt ∧ (o = .eq → j ≤ i) := by
  cases o with
  | lt => simp
  | eq => simp
  | gt =>
    have hlt : i ≤ j → i < j := fun hle => Nat.lt_of_le_of_ne hle fun he => nomatch h he.symm
    simpa using hlt

theorem first_pair_iff {o : Ordering} (h : j = i → o = .eq) :
    ((j < i → ¬ o.isLE) ∧ (i < j → o.swap.isLE)) ↔ o ≠ .lt ∧ (o = .eq → i ≤ j) := by
  cases o with
  | lt =>
    have hlt : i ≤ j → i < j := fun hle => Nat.lt_of_le_of_ne hle fun he => nomatch h he.symm
    simpa using hlt
  | eq => simp
  | gt => simp

theorem survives_select_iff {keeps : Ordering → Bool} {fits : Ordering → Nat → Nat → Prop}
    (h : ∀ o i j, (j = i → o = .eq) →
      (((j < i → ¬ keeps o) ∧ (i < j → keeps o.swap)) ↔ fits o j i)) :
    Extremum.Survives (fun x y => keeps (x.1.precedence y.1)) (r.select Prod.fst vs.zipIdx) (v, i) ↔
      vs[i]? = some v ∧ r.admits v ∧
        ∀ j w, vs[j]? = some w → r.admits w → fits (w.precedence v) j i := by
  rw [Extremum.survives_iff_of_pairwise (pairwise_select_zipIdx r vs), mem_select_zipIdx, and_assoc]
  refine and_congr_right fun hv => and_congr_right fun _ => ?_
  have pair {j : Nat} {w : Version} (hw : vs[j]? = some w) :
      ((j < i → ¬ keeps (w.precedence v)) ∧ (i < j → keeps (v.precedence w))) ↔
        fits (w.precedence v) j i := by
    have hs : v.precedence w = (w.precedence v).swap := Std.OrientedCmp.eq_swap
    rw [hs]
    apply h
    rintro rfl
    obtain rfl : v = w := Option.some.inj (hv.symm.trans hw)
    exact Std.ReflCmp.compare_self
  constructor
  · intro hall j w hw ha
    exact (pair hw).mp (hall (w, j) (mem_select_zipIdx.mpr ⟨hw, ha⟩))
  · rintro hall ⟨w, j⟩ hx
    obtain ⟨hw, ha⟩ := mem_select_zipIdx.mp hx
    exact (pair hw).mpr (hall j w hw ha)

theorem greatest?_eq_some_iff :
    r.greatest? Prod.fst vs.zipIdx = some (v, i) ↔ vs[i]? = some v ∧ r.admits v ∧
      ∀ j w, vs[j]? = some w → r.admits w →
        w.precedence v ≠ .gt ∧ (w.precedence v = .eq → j ≤ i) := by
  have := transCmp_comap (Prod.fst : Version × Nat → Version) precedence
  rw [greatest?, Extremum.greatest?_eq_some_iff]
  exact survives_select_iff fun o i j => last_pair_iff

theorem least?_eq_some_iff :
    r.least? Prod.fst vs.zipIdx = some (v, i) ↔ vs[i]? = some v ∧ r.admits v ∧
      ∀ j w, vs[j]? = some w → r.admits w →
        w.precedence v ≠ .lt ∧ (w.precedence v = .eq → i ≤ j) := by
  have := transCmp_comap (Prod.fst : Version × Nat → Version) precedence
  rw [least?, Extremum.least?_eq_some_iff]
  exact survives_select_iff fun o i j => first_pair_iff

def Farthest (r : Range) (vs : List Version) (far : Ordering) (v : Version) : Prop :=
  v ∈ vs ∧ r.admits v ∧ ∀ w ∈ vs, r.admits w → w.precedence v ≠ far

theorem farthest_of_places {far : Ordering} (hv : vs[i]? = some v) (ha : r.admits v)
    (hall : ∀ (j : Nat) w, vs[j]? = some w → r.admits w → w.precedence v ≠ far) :
    r.Farthest vs far v := by
  refine ⟨List.mem_of_getElem? hv, ha, ?_⟩
  intro w hw haw
  obtain ⟨j, hj⟩ := List.mem_iff_getElem?.mp hw
  exact hall j w hj haw

theorem farthest_of_greatest? (h : r.greatest? Prod.fst vs.zipIdx = some (v, i)) :
    r.Farthest vs .gt v := by
  obtain ⟨hv, ha, hall⟩ := greatest?_eq_some_iff.mp h
  exact farthest_of_places hv ha fun j w hj hw => (hall j w hj hw).1

theorem farthest_of_least? (h : r.least? Prod.fst vs.zipIdx = some (v, i)) :
    r.Farthest vs .lt v := by
  obtain ⟨hv, ha, hall⟩ := least?_eq_some_iff.mp h
  exact farthest_of_places hv ha fun j w hj hw => (hall j w hj hw).1

theorem equivalent_of_ne {far : Ordering} (hf : far ≠ .eq) (hv : v.precedence w ≠ far)
    (hw : w.precedence v ≠ far) : v.Equivalent w := by
  apply precedence_eq_eq_iff.mp
  have hs : w.precedence v = (v.precedence w).swap := Std.OrientedCmp.eq_swap
  rw [hs] at hw
  cases far <;> cases hp : v.precedence w <;> simp_all

theorem Farthest.equivalent {far : Ordering} (hf : far ≠ .eq) (hp : ws.Perm vs)
    (hw : r.Farthest ws far w) (hv : r.Farthest vs far v) : w.Equivalent v := by
  obtain ⟨hmv, hav, hv⟩ := hv
  obtain ⟨hmw, haw, hw⟩ := hw
  exact equivalent_of_ne hf (hv w (hp.mem_iff.mp hmw) haw) (hw v (hp.mem_iff.mpr hmv) hav)

theorem rel_of_perm {far : Ordering} {choose : List Version → Option (Version × Nat)}
    (hf : far ≠ .eq) (hnone : ∀ vs, choose vs = none ↔ r.admitsAny vs = false)
    (hsome : ∀ vs x, choose vs = some x → r.Farthest vs far x.1) (h : ws.Perm vs) :
    Option.Rel (fun x y => x.1.Equivalent y.1) (choose ws) (choose vs) := by
  have hn : choose ws = none ↔ choose vs = none := by
    rw [hnone, hnone, admitsAny, admitsAny, h.any_eq]
  cases hw : choose ws with
  | none =>
    rw [hn.mp hw]
    exact .none
  | some x => cases hv : choose vs with
    | none => exact absurd (hn.mpr hv) (by simp [hw])
    | some y => exact .some ((hsome ws x hw).equivalent hf h (hsome vs y hv))

theorem greatest?_perm (h : ws.Perm vs) :
    Option.Rel (fun x y => x.1.Equivalent y.1) (r.greatest? Prod.fst ws.zipIdx)
      (r.greatest? Prod.fst vs.zipIdx) :=
  rel_of_perm (by decide) (fun _ => greatest?_eq_none_iff) (fun _ _ => farthest_of_greatest?) h

theorem least?_perm (h : ws.Perm vs) :
    Option.Rel (fun x y => x.1.Equivalent y.1) (r.least? Prod.fst ws.zipIdx)
      (r.least? Prod.fst vs.zipIdx) :=
  rel_of_perm (by decide) (fun _ => least?_eq_none_iff) (fun _ _ => farthest_of_least?) h

end Places

/-- The extremes of the versions that a range admits are the ends of a stable sort of them by
precedence, with their places in the list. There are none when no version is admitted. Among
equals the last is the greatest and the first the least, and another arrangement of the list has
equivalent extremes. -/
theorem extremes_of_stableSort (r : Range) (vs : List Version) :
    (∃ ys, StableSort (fun x y => x.1.precedence y.1) (r.select Prod.fst vs.zipIdx) ys) ∧
      (∀ ys, StableSort (fun x y => x.1.precedence y.1) (r.select Prod.fst vs.zipIdx) ys →
        r.greatest? Prod.fst vs.zipIdx = ys.getLast? ∧ r.least? Prod.fst vs.zipIdx = ys.head?) ∧
      (r.greatest? Prod.fst vs.zipIdx = none ↔ r.admitsAny vs = false) ∧
      (r.least? Prod.fst vs.zipIdx = none ↔ r.admitsAny vs = false) ∧
      (r.admitsAny vs = false ↔ ∀ v ∈ vs, ¬ r.admits v) ∧
      (∀ v i, r.greatest? Prod.fst vs.zipIdx = some (v, i) ↔ vs[i]? = some v ∧ r.admits v ∧
        ∀ j w, vs[j]? = some w → r.admits w →
          w.precedence v ≠ .gt ∧ (w.precedence v = .eq → j ≤ i)) ∧
      (∀ v i, r.least? Prod.fst vs.zipIdx = some (v, i) ↔ vs[i]? = some v ∧ r.admits v ∧
        ∀ j w, vs[j]? = some w → r.admits w →
          w.precedence v ≠ .lt ∧ (w.precedence v = .eq → i ≤ j)) ∧
      ∀ ws : List Version, ws.Perm vs →
        Option.Rel (fun x y => x.1.Equivalent y.1) (r.greatest? Prod.fst ws.zipIdx)
            (r.greatest? Prod.fst vs.zipIdx) ∧
          Option.Rel (fun x y => x.1.Equivalent y.1) (r.least? Prod.fst ws.zipIdx)
            (r.least? Prod.fst vs.zipIdx) :=
  ⟨exists_stableSort_select r Prod.fst vs.zipIdx,
    fun _ h => ⟨greatest?_eq_getLast? h, least?_eq_head? h⟩, greatest?_eq_none_iff,
    least?_eq_none_iff, List.any_eq_false, fun _ _ => greatest?_eq_some_iff,
    fun _ _ => least?_eq_some_iff, fun _ h => ⟨greatest?_perm h, least?_perm h⟩⟩

theorem extremes_of_stableSort_ties :
    ∃ (r : Range) (vs : List Version) (ys : List (Version × Nat)),
      r.sets = [[⟨.greaterEqual, .release 1 0 0⟩]] ∧
      vs = [.release 1 0 0, .release 0 9 0, ⟨1, 0, 0, [], [⟨['5'], rfl⟩]⟩] ∧
      StableSort (fun x y => x.1.precedence y.1) (r.select Prod.fst vs.zipIdx) ys ∧
      ys.getLast? = some (⟨1, 0, 0, [], [⟨['5'], rfl⟩]⟩, 2) ∧
      ys.head? = some (.release 1 0 0, 0) ∧ vs.reverse.Perm vs ∧
      Option.Rel (fun x y => x.1.Equivalent y.1) (r.greatest? Prod.fst vs.reverse.zipIdx)
        (some (⟨1, 0, 0, [], [⟨['5'], rfl⟩]⟩, 2)) := by
  let r : Range := ⟨[[⟨.greaterEqual, .release 1 0 0⟩]], by decide, by decide⟩
  let vs : List Version := [.release 1 0 0, .release 0 9 0, ⟨1, 0, 0, [], [⟨['5'], rfl⟩]⟩]
  have hgreatest : r.greatest? Prod.fst vs.zipIdx = some (⟨1, 0, 0, [], [⟨['5'], rfl⟩]⟩, 2) := rfl
  have hleast : r.least? Prod.fst vs.zipIdx = some (.release 1 0 0, 0) := rfl
  obtain ⟨⟨ys, hys⟩, hends, -, -, -, -, -, hperm⟩ := extremes_of_stableSort r vs
  obtain ⟨hlast, hfirst⟩ := hends ys hys
  have hreverse := (hperm vs.reverse (List.reverse_perm vs)).1
  rw [hgreatest] at hlast hreverse
  exact ⟨r, vs, ys, rfl, rfl, hys, hlast.symm, hfirst.symm.trans hleast, List.reverse_perm vs,
    hreverse⟩

end Versioning.Range
