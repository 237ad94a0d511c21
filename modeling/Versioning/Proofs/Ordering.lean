
namespace Versioning

structure TotalPreorder {α : Type} (order : α → α → Ordering) : Prop where
  self (a : α) : order a a = .eq
  swap (a b : α) : order a b = (order b a).swap
  trans (a b c : α) : order a b ≠ .gt → order b c ≠ .gt → order a c ≠ .gt
  strict (a b c : α) : order a b ≠ .gt → order b c ≠ .gt →
    order a b = .lt ∨ order b c = .lt → order a c = .lt

theorem totalPreorder_of_transCmp {α : Type} (order : α → α → Ordering) [Std.TransCmp order] :
    TotalPreorder order where
  self _ := Std.ReflCmp.compare_self
  swap _ _ := Std.OrientedCmp.eq_swap
  trans a b c hab hbc := by
    have hab := Ordering.isLE_iff_ne_gt.mpr hab
    have hbc := Ordering.isLE_iff_ne_gt.mpr hbc
    exact Ordering.isLE_iff_ne_gt.mp (Std.TransCmp.isLE_trans hab hbc)
  strict a b c hab hbc h := by
    rcases h with h | h
    · exact Std.TransCmp.lt_of_lt_of_isLE h (Ordering.isLE_iff_ne_gt.mpr hbc)
    · exact Std.TransCmp.lt_of_isLE_of_lt (Ordering.isLE_iff_ne_gt.mpr hab) h

theorem transCmp_comap {α β : Type} (f : α → β) (order : β → β → Ordering) [Std.TransCmp order] :
    Std.TransCmp fun a b => order (f a) (f b) where
  eq_swap := Std.OrientedCmp.eq_swap
  isLE_trans := Std.TransCmp.isLE_trans

theorem isLE_then {o p : Ordering} (ho : o.isLE) (hp : p.isLE) : (o.then p).isLE :=
  Ordering.isLE_then_iff_and.mpr ⟨ho, .inr hp⟩

theorem compareOfLessAndEq_eq_compare {α : Type} [LT α] [DecidableLT α] [DecidableEq α] {a b : α}
    {m n : Nat} (hlt : a < b ↔ m < n) (heq : a = b ↔ m = n) :
    compareOfLessAndEq a b = compare m n := by
  simp only [compareOfLessAndEq, hlt, heq]
  rfl

theorem compare_char (c d : Char) : compare c d = compare c.toNat d.toNat :=
  compareOfLessAndEq_eq_compare Iff.rfl Char.toNat_inj.symm

theorem compare_byte (a b : UInt8) : compare a b = compare a.toNat b.toNat :=
  compareOfLessAndEq_eq_compare UInt8.lt_iff_toNat_lt UInt8.toNat_inj.symm

theorem compare_uint64 (a b : UInt64) : compare a b = compare a.toNat b.toNat :=
  compareOfLessAndEq_eq_compare UInt64.lt_iff_toNat_lt UInt64.toNat_inj.symm

theorem compare_map {α β : Type} [Ord α] [Ord β] (f : α → β) {a b : List α}
    (h : ∀ x ∈ a, ∀ y ∈ b, compare (f x) (f y) = compare x y) :
    compare (a.map f) (b.map f) = compare a b := by
  induction a generalizing b with
  | nil => cases b <;> rfl
  | cons x a ih => cases b with
    | nil => rfl
    | cons y b =>
      have ht : compare (a.map f) (b.map f) = compare a b :=
        ih fun x hx y hy => h x (by simp [hx]) y (by simp [hy])
      rw [List.map_cons, List.map_cons, List.compare_cons_cons, List.compare_cons_cons, ht,
        h x (by simp) y (by simp)]

end Versioning
