import Mathlib.Data.List.Forall2
import Versioning.Proofs.Version.TotalOrder
import Versioning.Range.Selection

namespace Versioning

namespace Version

variable {a b : Version}

theorem precedence_congr_left (h : a.Equivalent b) (v : Version) :
    a.precedence v = b.precedence v := by
  apply Std.TransCmp.congr_left
  exact precedence_eq_eq_iff.mpr h

theorem precedence_congr_right (h : a.Equivalent b) (v : Version) :
    v.precedence a = v.precedence b := by
  apply Std.TransCmp.congr_right
  exact precedence_eq_eq_iff.mpr h

end Version

def Comparator.Equivalent (x y : Comparator) : Prop :=
  x.operator = y.operator ∧ x.version.Equivalent y.version

namespace Comparator

variable {x y : Comparator} {a b c : Version}

theorem admits_congr (h : a.Equivalent b) : x.admits a = x.admits b := by
  rw [admits, admits, Version.precedence_congr_left h]

theorem Equivalent.admits_eq (h : x.Equivalent y) (v : Version) : x.admits v = y.admits v := by
  rw [admits, admits, h.1, Version.precedence_congr_right h.2]

theorem admits_between (hab : (a.precedence b).isLE) (hbc : (b.precedence c).isLE)
    (ha : x.admits a) (hc : x.admits c) : x.admits b := by
  obtain ⟨op, v⟩ := x
  have hba : (b.precedence a).isGE := Std.OrientedCmp.isGE_iff_isLE.mpr hab
  -- What bounds from above is passed down from the greater version, the rest up from the lesser.
  cases op with
  | equal =>
    rw [admits_equal_iff] at ha hc ⊢
    have hle : (b.precedence v).isLE := Std.TransCmp.isLE_trans hbc (by simp [hc])
    have hge : (b.precedence v).isGE := Std.TransCmp.isGE_trans hba (by simp [ha])
    exact Ordering.eq_eq_of_isLE_of_isGE hle hge
  | less =>
    rw [admits_less_iff] at hc ⊢
    exact Std.TransCmp.lt_of_isLE_of_lt hbc hc
  | greater =>
    rw [admits_greater_iff] at ha ⊢
    exact Std.TransCmp.gt_of_isGE_of_gt hba ha
  | lessEqual => exact Std.TransCmp.isLE_trans hbc hc
  | greaterEqual => exact Std.TransCmp.isGE_trans hba ha

end Comparator

namespace Range

variable {a b c : Version} {r q : Range}

def ofSet (set : List Comparator) (hn : set ≠ []) : Range where
  sets := [set]
  sets_ne_nil := List.cons_ne_nil set []
  nil_not_mem := by simpa using hn.symm

def Equivalent (r q : Range) : Prop :=
  List.Forall₂ (List.Forall₂ Comparator.Equivalent) r.sets q.sets

theorem admits_congr (h : a.Equivalent b) : r.admits a = r.admits b := by
  simp only [admits, Comparator.admits_congr h]

theorem all_admits_eq {s t : List Comparator} (h : List.Forall₂ Comparator.Equivalent s t)
    (v : Version) : (s.all fun x => x.admits v) = t.all fun x => x.admits v := by
  induction h with
  | nil => rfl
  | cons hx _ ih => rw [List.all_cons, List.all_cons, hx.admits_eq v, ih]

theorem any_all_admits_eq {s t : List (List Comparator)}
    (h : List.Forall₂ (List.Forall₂ Comparator.Equivalent) s t) (v : Version) :
    (s.any fun set => set.all fun x => x.admits v) =
      t.any fun set => set.all fun x => x.admits v := by
  induction h with
  | nil => rfl
  | cons hs _ ih => rw [List.any_cons, List.any_cons, all_admits_eq hs v, ih]

theorem Equivalent.admits_eq (h : r.Equivalent q) (v : Version) : r.admits v = q.admits v :=
  any_all_admits_eq h v

theorem forall_admits_between {set : List Comparator} (hab : a.precedence b ≠ .gt)
    (hbc : b.precedence c ≠ .gt) (ha : ∀ x ∈ set, x.admits a) (hc : ∀ x ∈ set, x.admits c) :
    ∀ x ∈ set, x.admits b := by
  intro x hx
  have hab := Ordering.isLE_iff_ne_gt.mpr hab
  have hbc := Ordering.isLE_iff_ne_gt.mpr hbc
  exact Comparator.admits_between hab hbc (ha x hx) (hc x hx)

theorem admits_iff_of_sets_eq_singleton {set : List Comparator} (h : r.sets = [set]) (v : Version) :
    r.admits v ↔ ∀ x ∈ set, x.admits v := by
  rw [admits_iff, h]
  simp

theorem admits_by_precedence :
    (∀ (r : Range) (a b : Version), a.Equivalent b → r.admits a = r.admits b) ∧
      (∀ r q : Range, r.Equivalent q → ∀ v, r.admits v = q.admits v) ∧
      (∀ (r : Range) (set : List Comparator) (a b c : Version), r.sets = [set] →
        a.precedence b ≠ .gt → b.precedence c ≠ .gt → r.admits a → r.admits c → r.admits b) ∧
      ∀ (r : Range) (a b c : Version), ∀ set ∈ r.sets,
        a.precedence b ≠ .gt → b.precedence c ≠ .gt →
          (∀ x ∈ set, x.admits a) → (∀ x ∈ set, x.admits c) →
            (∀ x ∈ set, x.admits b) ∧ r.admits b := by
  refine ⟨fun _ _ _ => admits_congr, fun _ _ => Equivalent.admits_eq, ?_, ?_⟩
  · intro r set a b c hset hab hbc ha hc
    rw [admits_iff_of_sets_eq_singleton hset] at ha hc ⊢
    exact forall_admits_between hab hbc ha hc
  · intro r a b c set hset hab hbc ha hc
    have hb := forall_admits_between hab hbc ha hc
    exact ⟨hb, admits_iff.mpr ⟨set, hset, hb⟩⟩

theorem admits_by_precedence_prerelease :
    ∃ r q : Range, r.sets = [[⟨.greaterEqual, .release 1 0 0⟩]] ∧
      q.sets = [[⟨.greaterEqual, ⟨1, 0, 0, [], [⟨['5'], rfl⟩]⟩⟩]] ∧ r.Equivalent q ∧
      (Version.release 1 0 0).Equivalent ⟨1, 0, 0, [], [⟨['5'], rfl⟩]⟩ ∧
      (Version.release 1 0 0).precedence ⟨2, 0, 0, [⟨['r', 'c'], rfl⟩], []⟩ ≠ .gt ∧
      (⟨2, 0, 0, [⟨['r', 'c'], rfl⟩], []⟩ : Version).precedence (.release 2 0 0) ≠ .gt ∧
      r.admits (.release 1 0 0) ∧ r.admits (.release 2 0 0) ∧
      r.admits ⟨2, 0, 0, [⟨['r', 'c'], rfl⟩], []⟩ ∧
      q.admits ⟨1, 0, 0, [], [⟨['5'], rfl⟩]⟩ := by
  let r := ofSet [⟨.greaterEqual, .release 1 0 0⟩] (List.cons_ne_nil _ _)
  let q := ofSet [⟨.greaterEqual, ⟨1, 0, 0, [], [⟨['5'], rfl⟩]⟩⟩] (List.cons_ne_nil _ _)
  obtain ⟨halike, hrange, hone, hset⟩ := admits_by_precedence
  have hmeta : (Version.release 1 0 0).Equivalent ⟨1, 0, 0, [], [⟨['5'], rfl⟩]⟩ :=
    ⟨rfl, rfl, rfl, rfl⟩
  have heq : r.Equivalent q := .cons (.cons ⟨rfl, hmeta⟩ .nil) .nil
  have ha : r.admits (.release 1 0 0) := rfl
  have hc : r.admits (.release 2 0 0) := rfl
  refine ⟨r, q, rfl, rfl, heq, hmeta, by decide, by decide, ha, hc, ?_, ?_⟩
  · exact hone r _ (.release 1 0 0) _ (.release 2 0 0) rfl (by decide) (by decide) ha hc
  · rw [← hrange r q heq, ← halike r _ _ hmeta]
    exact (hset r (.release 1 0 0) (.release 1 0 0) (.release 2 0 0) _ (.head _) (by decide)
      (by decide) (by decide) (by decide)).2

end Range

end Versioning
