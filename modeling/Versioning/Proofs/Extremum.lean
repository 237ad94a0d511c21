import Mathlib.Data.List.Induction
import Versioning.Version.Sorting
import Versioning.Proofs.StableSort

/-!
Extreme elements, told by what stands around them. A pass that keeps the best element so far ends
with the one that no earlier element is kept before and that is kept before every later one, and
these are the last and the first element of a stable sort.
-/

namespace Versioning.Extremum

variable {α : Type}

def Survives (keeps : α → α → Bool) (xs : List α) (x : α) : Prop :=
  ∃ before after, xs = before ++ x :: after ∧ (∀ y ∈ before, ¬ keeps y x) ∧ ∀ y ∈ after, keeps x y

variable {keeps : α → α → Bool} {x y : α} {xs ys : List α}

theorem Survives.mem (h : Survives keeps xs x) : x ∈ xs := by
  obtain ⟨before, after, rfl, -, -⟩ := h
  simp

theorem not_survives_nil : ¬ Survives keeps [] x := by
  intro h
  exact List.not_mem_nil h.mem

theorem eq_of_append {a b c e : List α} (h : x :: a = e ++ y :: c) (ha : ∀ z ∈ a, keeps x z)
    (hb : ∀ z ∈ b ++ e, ¬ keeps z y) : x = y := by
  cases e with
  | nil => exact (List.cons.inj h).1
  | cons z e =>
    -- Here `x` would be kept before `y`, and would not.
    obtain ⟨rfl, rfl⟩ := List.cons.inj h
    exact absurd (ha y (by simp)) (hb x (by simp))

theorem Survives.unique (hx : Survives keeps xs x) (hy : Survives keeps xs y) : x = y := by
  obtain ⟨b, a, rfl, hb, ha⟩ := hx
  obtain ⟨d, c, h, hd, hc⟩ := hy
  rcases List.append_eq_append_iff.mp h with ⟨e, rfl, he⟩ | ⟨e, rfl, he⟩
  · exact eq_of_append he ha hd
  · exact (eq_of_append he hc hb).symm

def Coherent (keeps : α → α → Bool) : Prop :=
  ∀ a b c, keeps b a ∨ ¬ keeps a b → ¬ keeps b c → ¬ keeps a c

theorem survives_foldl (hk : Coherent keeps) (x : α) (xs : List α) :
    Survives keeps (x :: xs) (xs.foldl (fun best y => if keeps best y then best else y) x) := by
  induction xs using List.reverseRecOn with
  | nil => exact ⟨[], [], rfl, by simp, by simp⟩
  | append_singleton xs y ih =>
    rw [List.foldl_append, List.foldl_cons, List.foldl_nil]
    generalize xs.foldl (fun best y => if keeps best y then best else y) x = best at ih ⊢
    obtain ⟨before, after, hxs, hb, ha⟩ := ih
    have hlist : x :: (xs ++ [y]) = before ++ best :: after ++ [y] := by
      rw [← hxs, List.cons_append]
    rw [hlist]
    split
    next hy =>
      refine ⟨before, after ++ [y], by simp, hb, ?_⟩
      intro z hz
      rcases List.mem_append.mp hz with hz | hz
      · exact ha z hz
      · exact List.mem_singleton.mp hz ▸ hy
    next hy =>
      refine ⟨before ++ best :: after, [], by simp, ?_, by simp⟩
      intro z hz
      rcases List.mem_append.mp hz with hz | hz
      · exact hk z best y (.inr (hb z hz)) hy
      · rcases List.mem_cons.mp hz with rfl | hz
        · exact hy
        · exact hk z best y (.inl (ha z hz)) hy

theorem foldl_eq_iff (hk : Coherent keeps) {z : α} :
    xs.foldl (fun best y => if keeps best y then best else y) x = z ↔
      Survives keeps (x :: xs) z := by
  constructor
  · rintro rfl
    exact survives_foldl hk x xs
  · exact (survives_foldl hk x xs).unique

theorem survives_iff_of_pairwise {place : α → Nat} (hp : xs.Pairwise fun x y => place x < place y) :
    Survives keeps xs x ↔ x ∈ xs ∧
      ∀ y ∈ xs, (place y < place x → ¬ keeps y x) ∧ (place x < place y → keeps x y) := by
  have split {before after : List α} (h : xs = before ++ x :: after) :
      (∀ y ∈ before, place y < place x) ∧ ∀ y ∈ after, place x < place y := by
    subst h
    obtain ⟨-, hafter, hbefore⟩ := List.pairwise_append.mp hp
    exact ⟨fun y hy => hbefore y hy x (by simp), fun y hy => List.rel_of_pairwise_cons hafter hy⟩
  constructor
  · intro h
    refine ⟨h.mem, ?_⟩
    obtain ⟨before, after, hxs, hb, ha⟩ := h
    obtain ⟨hbefore, hafter⟩ := split hxs
    intro y hy
    rw [hxs, List.mem_append, List.mem_cons] at hy
    rcases hy with hy | rfl | hy
    · exact ⟨fun _ => hb y hy, fun h => absurd h (Nat.lt_asymm (hbefore y hy))⟩
    · exact ⟨fun h => absurd h (Nat.lt_irrefl _), fun h => absurd h (Nat.lt_irrefl _)⟩
    · exact ⟨fun h => absurd h (Nat.lt_asymm (hafter y hy)), fun _ => ha y hy⟩
  · rintro ⟨hx, h⟩
    obtain ⟨before, after, hxs⟩ := List.append_of_mem hx
    obtain ⟨hbefore, hafter⟩ := split hxs
    refine ⟨before, after, hxs, fun y hy => ?_, fun y hy => ?_⟩
    · exact (h y (by simp [hxs, hy])).1 (hbefore y hy)
    · exact (h y (by simp [hxs, hy])).2 (hafter y hy)

theorem filter_eq_append_singleton {p : α → Bool} {init : List α} (h : xs.filter p = init ++ [x]) :
    ∃ before after, xs = before ++ x :: after ∧ ∀ y ∈ after, ¬ p y := by
  obtain ⟨b, c, rfl, -, hc⟩ := List.filter_eq_append_iff.mp h
  obtain ⟨d, after, rfl, -, -, ha⟩ := List.filter_eq_cons_iff.mp hc
  exact ⟨b ++ d, after, by simp, List.filter_eq_nil_iff.mp ha⟩

theorem isGT_iff {o : Ordering} : o.isGT ↔ ¬ o.isLE := by
  cases o <;> decide

section Order

variable {order : α → α → Ordering} [Std.TransCmp order]

theorem isLE_of_not_isLE (h : ¬ (order x y).isLE) : (order y x).isLE := by
  have ho : (order x y).isLE || (order y x).isLE := isLE_or_isLE x y
  simpa [h] using ho

theorem not_isLE_of_ne_eq (h : (order x y).isLE) (hn : order x y ≠ .eq) : ¬ (order y x).isLE := by
  intro hyx
  apply hn
  exact Ordering.eq_eq_of_isLE_of_isGE h (Std.OrientedCmp.isGE_iff_isLE.mpr hyx)

theorem coherent_isLE : Coherent fun x y => (order x y).isLE := by
  intro a b c h hbc hac
  have hba : (order b a).isLE := by
    rcases h with h | h
    · exact h
    · exact isLE_of_not_isLE h
  exact hbc (Std.TransCmp.isLE_trans hba hac)

theorem coherent_isGT : Coherent fun x y => (order x y).isGT := by
  intro a b c h hbc hac
  simp only [isGT_iff, not_not] at h hbc hac
  have hab : (order a b).isLE := by
    rcases h with h | h
    · exact isLE_of_not_isLE h
    · exact h
  exact hac (Std.TransCmp.isLE_trans hab hbc)

theorem greatest?_eq_some_iff :
    greatest? order xs = some x ↔ Survives (fun x y => (order x y).isGT) xs x := by
  cases xs with
  | nil => simp [greatest?, not_survives_nil]
  | cons y xs => rw [greatest?, Option.some.injEq, foldl_eq_iff coherent_isGT]

theorem least?_eq_some_iff :
    least? order xs = some x ↔ Survives (fun x y => (order x y).isLE) xs x := by
  cases xs with
  | nil => simp [least?, not_survives_nil]
  | cons y xs =>
    rw [least?, Option.some.injEq, ← foldl_eq_iff coherent_isLE]
    simp only [isGT_iff, ite_not]

theorem greatest?_eq_getLast? (h : StableSort order xs ys) : greatest? order xs = ys.getLast? := by
  cases hl : ys.getLast? with
  | none =>
    have hys : ys = [] := List.getLast?_eq_none_iff.mp hl
    subst hys
    rw [← h.perm.nil_eq]
    rfl
  | some x =>
    obtain ⟨init, rfl⟩ := List.getLast?_eq_some_iff.mp hl
    have hall : ∀ y ∈ xs, (order y x).isLE := by
      intro y hy
      rcases List.mem_append.mp (h.perm.mem_iff.mpr hy) with hy | hy
      · exact (List.pairwise_append.mp h.sorted).2.2 y hy x (by simp)
      · rw [List.mem_singleton.mp hy]
        exact Ordering.isLE_of_eq_eq Std.ReflCmp.compare_self
    have hrank := h.stable x
    rw [List.filter_append, List.filter_cons, if_pos (isEq_self x)] at hrank
    obtain ⟨before, after, rfl, hafter⟩ := filter_eq_append_singleton hrank.symm
    apply greatest?_eq_some_iff.mpr
    refine ⟨before, after, rfl, fun y hy => ?_, fun y hy => ?_⟩
    · rw [isGT_iff, not_not]
      exact hall y (by simp [hy])
    · apply isGT_iff.mpr
      apply not_isLE_of_ne_eq (hall y (by simp [hy]))
      intro he
      exact hafter y hy (Ordering.isEq_iff_eq_eq.mpr (Std.OrientedCmp.eq_comm.mp he))

theorem least?_eq_head? (h : StableSort order xs ys) : least? order xs = ys.head? := by
  cases ys with
  | nil =>
    rw [← h.perm.nil_eq]
    rfl
  | cons x rest =>
    have hall : ∀ y ∈ xs, (order x y).isLE := by
      intro y hy
      exact isLE_head h.sorted (h.perm.mem_iff.mpr hy)
    have hrank := h.stable x
    rw [List.filter_cons, if_pos (isEq_self x)] at hrank
    obtain ⟨before, after, rfl, hbefore, -, -⟩ := List.filter_eq_cons_iff.mp hrank.symm
    apply least?_eq_some_iff.mpr
    refine ⟨before, after, rfl, fun y hy => ?_, fun y hy => hall y (by simp [hy])⟩
    apply not_isLE_of_ne_eq (hall y (by simp [hy]))
    intro he
    exact hbefore y hy (Ordering.isEq_iff_eq_eq.mpr he)

end Order

end Versioning.Extremum
