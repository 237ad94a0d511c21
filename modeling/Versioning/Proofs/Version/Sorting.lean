import Mathlib.Data.List.Forall2
import Versioning.Proofs.StableSort
import Versioning.Proofs.Version.TotalOrder
import Versioning.Version.Sorting

namespace Versioning.Version

variable {vs ws : List Version}

theorem stableSort_sort_iff : StableSort compare vs ws ↔ ws = sort vs :=
  stableSort_iff

theorem stableSort_sortByPrecedence_iff :
    StableSort precedence vs ws ↔ ws = sortByPrecedence vs :=
  stableSort_iff

theorem sort_eq_of_perm (h : ws.Perm vs) : sort ws = sort vs := by
  have hperm : (sort ws).Perm (sort vs) :=
    (sort_perm ws).trans (h.trans (sort_perm vs).symm)
  apply eq_of_perm compare hperm
  · exact fun a _ b _ => Std.LawfulEqOrd.eq_of_compare
  · exact pairwise_isLE_mergeSort ws
  · exact pairwise_isLE_mergeSort vs

theorem isLE_precedence_of_isLE_compare {a b : Version} (h : (compare a b).isLE) :
    (a.precedence b).isLE :=
  (Ordering.isLE_then_iff_and.mp h).1

theorem pairwise_precedence_sort (vs : List Version) :
    (sort vs).Pairwise fun a b => (a.precedence b).isLE := by
  apply (pairwise_isLE_mergeSort vs).imp
  exact isLE_precedence_of_isLE_compare

theorem eq_of_precedence_withoutMetadata {a b : Version}
    (h : a.withoutMetadata.precedence b.withoutMetadata = .eq) :
    a.withoutMetadata = b.withoutMetadata :=
  equivalent_iff.mp (precedence_eq_eq_iff.mp h)

theorem map_withoutMetadata_sort (vs : List Version) :
    (sort vs).map withoutMetadata = (sortByPrecedence vs).map withoutMetadata := by
  have hperm : (sort vs).Perm (sortByPrecedence vs) :=
    (sort_perm vs).trans (sortByPrecedence_perm vs).symm
  have hsorted : (sortByPrecedence vs).Pairwise fun a b => (a.precedence b).isLE :=
    pairwise_isLE_mergeSort vs
  apply eq_of_perm precedence (hperm.map withoutMetadata)
  · intro a ha b hb
    obtain ⟨a, -, rfl⟩ := List.mem_map.mp ha
    obtain ⟨b, -, rfl⟩ := List.mem_map.mp hb
    exact eq_of_precedence_withoutMetadata
  · exact List.pairwise_map.mpr (pairwise_precedence_sort vs)
  · exact List.pairwise_map.mpr hsorted

theorem forall₂_equivalent_sort (vs : List Version) :
    List.Forall₂ Equivalent (sort vs) (sortByPrecedence vs) := by
  have h : List.Forall₂ Eq ((sort vs).map withoutMetadata)
      ((sortByPrecedence vs).map withoutMetadata) := by
    rw [map_withoutMetadata_sort, List.forall₂_eq_eq_eq]
  rw [List.forall₂_map_left_iff, List.forall₂_map_right_iff] at h
  exact h.imp fun _ _ => equivalent_iff.mpr

theorem sort_forgets_order (vs : List Version) :
    (∀ ys, StableSort compare vs ys ↔ ys = sort vs) ∧
      (∀ ys, StableSort precedence vs ys ↔ ys = sortByPrecedence vs) ∧
      (∀ ws, ws.Perm vs → sort ws = sort vs) ∧
      List.Forall₂ Equivalent (sort vs) (sortByPrecedence vs) :=
  ⟨fun _ => stableSort_sort_iff, fun _ => stableSort_sortByPrecedence_iff,
    fun _ => sort_eq_of_perm, forall₂_equivalent_sort vs⟩

theorem sort_forgets_order_ties :
    ∃ a b : Version, a = ⟨1, 0, 0, [], [⟨['a'], rfl⟩]⟩ ∧ b = ⟨1, 0, 0, [], [⟨['b'], rfl⟩]⟩ ∧
      [b, a].Perm [a, b] ∧ sort [b, a] = [a, b] ∧ sortByPrecedence [b, a] = [b, a] ∧
      List.Forall₂ Equivalent [a, b] [b, a] := by
  let a : Version := ⟨1, 0, 0, [], [⟨['a'], rfl⟩]⟩
  let b : Version := ⟨1, 0, 0, [], [⟨['b'], rfl⟩]⟩
  have hswap : [b, a].Perm [a, b] := .swap a b []
  have hsort : sort [b, a] = [a, b] := by
    rw [(sort_forgets_order [a, b]).2.2.1 [b, a] hswap]
    exact List.mergeSort_of_pairwise (by decide)
  have hkept : sortByPrecedence [b, a] = [b, a] := List.mergeSort_of_pairwise (by decide)
  have hplaces := (sort_forgets_order [b, a]).2.2.2
  rw [hsort, hkept] at hplaces
  exact ⟨a, b, rfl, rfl, hswap, hsort, hkept, hplaces⟩

end Versioning.Version
