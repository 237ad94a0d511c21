import Mathlib.Data.List.Basic
import Versioning.Proofs.Ordering

namespace Versioning

variable {α : Type} {order : α → α → Ordering} {x y : α} {xs ys zs : List α}

structure StableSort (order : α → α → Ordering) (xs ys : List α) : Prop where
  perm : ys.Perm xs
  sorted : ys.Pairwise fun x y => (order x y).isLE
  stable : ∀ x, ys.filter (fun y => (order x y).isEq) = xs.filter (fun y => (order x y).isEq)

theorem isLE_or_isLE [Std.OrientedCmp order] (x y : α) :
    ((order x y).isLE || (order y x).isLE) := by
  have h : order y x = (order x y).swap := Std.OrientedCmp.eq_swap
  rw [h]
  cases order x y <;> decide

theorem pairwise_isLE_mergeSort [Std.TransCmp order] (xs : List α) :
    (xs.mergeSort fun x y => (order x y).isLE).Pairwise fun x y => (order x y).isLE := by
  apply List.pairwise_mergeSort
  · exact fun x y z => Std.TransCmp.isLE_trans
  · exact isLE_or_isLE

theorem stableSort_mergeSort (order : α → α → Ordering) [Std.TransCmp order] (xs : List α) :
    StableSort order xs (xs.mergeSort fun x y => (order x y).isLE) where
  perm := List.mergeSort_perm xs _
  sorted := pairwise_isLE_mergeSort xs
  stable x := by
    let rank : α → Bool := fun y => (order x y).isEq
    let ys := xs.mergeSort fun x y => (order x y).isLE
    have hrank : (xs.filter rank).Pairwise fun y z => (order y z).isLE := by
      apply List.pairwise_of_forall_mem_list
      intro y hy z hz
      have hy : order x y = .eq := Ordering.isEq_iff_eq_eq.mp (List.mem_filter.mp hy).2
      have hz : order x z = .eq := Ordering.isEq_iff_eq_eq.mp (List.mem_filter.mp hz).2
      rw [← Std.TransCmp.congr_left hy, hz]
      rfl
    have hsub : (xs.filter rank).Sublist ys := by
      apply List.sublist_mergeSort _ _ hrank List.filter_sublist
      · exact fun x y z => Std.TransCmp.isLE_trans
      · exact isLE_or_isLE
    have hsub' : (xs.filter rank).Sublist (ys.filter rank) := by
      simpa only [List.filter_filter, Bool.and_self] using hsub.filter rank
    exact (hsub'.eq_of_length ((List.mergeSort_perm xs _).filter rank).length_eq.symm).symm

theorem isLE_head [Std.ReflCmp order] (h : (y :: ys).Pairwise fun x y => (order x y).isLE)
    (hx : x ∈ y :: ys) : (order y x).isLE := by
  rcases List.mem_cons.mp hx with rfl | hx
  · exact Ordering.isLE_of_eq_eq Std.ReflCmp.compare_self
  · exact List.rel_of_pairwise_cons h hx

theorem isEq_self [Std.ReflCmp order] (x : α) : (order x x).isEq :=
  Ordering.isEq_iff_eq_eq.mpr Std.ReflCmp.compare_self

theorem mem_of_filter_eq [Std.ReflCmp order]
    (h : ys.filter (fun y => (order x y).isEq) = zs.filter fun z => (order x z).isEq)
    (hx : x ∈ ys) : x ∈ zs := by
  have hmem : x ∈ ys.filter fun y => (order x y).isEq := List.mem_filter.mpr ⟨hx, isEq_self x⟩
  rw [h] at hmem
  exact List.mem_of_mem_filter hmem

theorem eq_of_filter_eq [Std.TransCmp order] (hy : ys.Pairwise fun x y => (order x y).isLE)
    (hz : zs.Pairwise fun x y => (order x y).isLE)
    (h : ∀ x, ys.filter (fun y => (order x y).isEq) = zs.filter fun z => (order x z).isEq) :
    ys = zs := by
  induction ys generalizing zs with
  | nil =>
    apply Eq.symm
    apply List.eq_nil_iff_forall_not_mem.mpr
    intro z hmem
    exact List.not_mem_nil (mem_of_filter_eq (h z).symm hmem)
  | cons y ys ih => cases zs with
    | nil => exact absurd (mem_of_filter_eq (h y) (by simp)) List.not_mem_nil
    | cons z zs =>
      have hyz : (order y z).isLE := isLE_head hy (mem_of_filter_eq (h z).symm (by simp))
      have hzy : (order z y).isLE := isLE_head hz (mem_of_filter_eq (h y) (by simp))
      have htied : order y z = .eq :=
        Ordering.eq_eq_of_isLE_of_isGE hyz (Std.OrientedCmp.isGE_iff_isLE.mpr hzy)
      -- The two heads are of one rank, so they are the first of it in either list.
      have hfirst := h y
      rw [List.filter_cons, if_pos (isEq_self y), List.filter_cons,
        if_pos (Ordering.isEq_iff_eq_eq.mpr htied)] at hfirst
      obtain rfl : y = z := (List.cons.inj hfirst).1
      have htail : ys = zs := by
        apply ih hy.of_cons hz.of_cons
        intro x
        have hx := h x
        rw [List.filter_cons, List.filter_cons] at hx
        split at hx
        · exact (List.cons.inj hx).2
        · exact hx
      rw [htail]

theorem stableSort_iff [Std.TransCmp order] :
    StableSort order xs ys ↔ ys = xs.mergeSort fun x y => (order x y).isLE := by
  have hmerge := stableSort_mergeSort order xs
  constructor
  · intro h
    apply eq_of_filter_eq h.sorted hmerge.sorted
    intro x
    rw [h.stable, hmerge.stable]
  · rintro rfl
    exact hmerge

theorem eq_of_perm (order : α → α → Ordering) [Std.OrientedCmp order] (h : xs.Perm ys)
    (he : ∀ x ∈ xs, ∀ y ∈ ys, order x y = .eq → x = y)
    (hx : xs.Pairwise fun x y => (order x y).isLE) (hy : ys.Pairwise fun x y => (order x y).isLE) :
    xs = ys := by
  apply h.eq_of_pairwise _ hx hy
  intro x y hmx hmy hxy hyx
  apply he x hmx y hmy
  exact Ordering.eq_eq_of_isLE_of_isGE hxy (Std.OrientedCmp.isGE_iff_isLE.mpr hyx)

end Versioning
