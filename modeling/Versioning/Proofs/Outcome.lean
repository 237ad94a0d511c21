
namespace Versioning

theorem bind_eq_ok {ε α β : Type} {x : Except ε α} {f : α → Except ε β} {b : β}
    (h : x >>= f = .ok b) : ∃ a, x = .ok a ∧ f a = .ok b := by
  cases x with
  | error e => contradiction
  | ok a => exact ⟨a, rfl, h⟩

theorem map_of_mapM_eq_ok {ε α β : Type} {f : α → Except ε β} {g : β → α}
    (hf : ∀ x y, f x = .ok y → g y = x) {xs : List α} {ys : List β} (h : xs.mapM f = .ok ys) :
    ys.map g = xs := by
  induction xs generalizing ys with
  | nil =>
    cases h
    rfl
  | cons x xs ih =>
    rw [List.mapM_cons] at h
    obtain ⟨y, hy, h⟩ := bind_eq_ok h
    obtain ⟨zs, hz, h⟩ := bind_eq_ok h
    cases h
    rw [List.map_cons, hf x y hy, ih hz]

theorem bind_eq_error_iff {ε α β : Type} {x : Except ε α} {f : α → Except ε β} {e : ε} :
    x >>= f = .error e ↔ x = .error e ∨ ∃ a, x = .ok a ∧ f a = .error e := by
  cases x with
  | error e' =>
    change Except.error e' = Except.error e ↔ _
    simp
  | ok a =>
    change f a = Except.error e ↔ _
    simp

def FirstFailing {α : Type} (good : α → Prop) (xs : List α) (x : α) : Prop :=
  ∃ before after, xs = before ++ x :: after ∧ (∀ y ∈ before, good y) ∧ ¬ good x

theorem not_firstFailing_nil {α : Type} {good : α → Prop} {x : α} : ¬ FirstFailing good [] x := by
  rintro ⟨before, after, h, -⟩
  simp at h

theorem firstFailing_cons {α : Type} {good : α → Prop} {x y : α} {xs : List α} :
    FirstFailing good (y :: xs) x ↔ ¬ good y ∧ x = y ∨ good y ∧ FirstFailing good xs x := by
  constructor
  · rintro ⟨before, after, h, hb, hx⟩
    cases before with
    | nil =>
      cases h
      exact .inl ⟨hx, rfl⟩
    | cons z before =>
      cases h
      obtain ⟨hz, hb⟩ := List.forall_mem_cons.mp hb
      exact .inr ⟨hz, before, after, rfl, hb, hx⟩
  · rintro (⟨hy, rfl⟩ | ⟨hy, before, after, rfl, hb, hx⟩)
    · exact ⟨[], xs, rfl, by simp, hy⟩
    · exact ⟨y :: before, after, rfl, List.forall_mem_cons.mpr ⟨hy, hb⟩, hx⟩

theorem FirstFailing.not_self {α : Type} {good : α → Prop} {x : α} {xs : List α}
    (h : FirstFailing good xs x) : ¬ good x := by
  obtain ⟨before, after, -, -, hx⟩ := h
  exact hx

theorem FirstFailing.mem {α : Type} {good : α → Prop} {x : α} {xs : List α}
    (h : FirstFailing good xs x) : x ∈ xs := by
  obtain ⟨before, after, rfl, -, -⟩ := h
  simp

theorem firstFailing_iff_find? {α : Type} {good : α → Bool} {x : α} {xs : List α} :
    FirstFailing (fun y => good y) xs x ↔ xs.find? (!good ·) = some x := by
  rw [List.find?_eq_some_iff_append]
  constructor
  · rintro ⟨before, after, h, hb, hx⟩
    exact ⟨by simpa using hx, before, after, h, by simpa using hb⟩
  · rintro ⟨hx, before, after, h, hb⟩
    exact ⟨before, after, h, by simpa using hb, by simpa using hx⟩

theorem firstFailing_map {α β : Type} {good : β → Prop} {f : α → β} {xs : List α} {y : β} :
    FirstFailing good (xs.map f) y ↔ ∃ x, FirstFailing (fun x => good (f x)) xs x ∧ f x = y := by
  induction xs with
  | nil => simp [not_firstFailing_nil]
  | cons x xs ih =>
    rw [List.map_cons, firstFailing_cons, ih]
    simp only [firstFailing_cons]
    grind

theorem exists_firstFailing_cons {ε α β : Type} {f : α → Except ε β} {good : α → Prop}
    (hgood : ∀ x, (∃ y, f x = .ok y) ↔ good x) {x : α} {xs : List α} {e : ε} :
    (∃ z, FirstFailing good (x :: xs) z ∧ f z = .error e) ↔
      f x = .error e ∨ good x ∧ ∃ z, FirstFailing good xs z ∧ f z = .error e := by
  have hx : f x = .error e → ¬ good x := by
    intro he hg
    obtain ⟨y, hy⟩ := (hgood x).mpr hg
    cases he.symm.trans hy
  simp only [firstFailing_cons]
  constructor
  · rintro ⟨z, ⟨-, rfl⟩ | ⟨hg, hz⟩, he⟩
    · exact .inl he
    · exact .inr ⟨hg, z, hz, he⟩
  · rintro (he | ⟨hg, z, hz, he⟩)
    · exact ⟨x, .inl ⟨hx he, rfl⟩, he⟩
    · exact ⟨z, .inr ⟨hg, hz⟩, he⟩

theorem mapM_eq_error_iff {ε α β : Type} {f : α → Except ε β} {good : α → Prop}
    (hgood : ∀ x, (∃ y, f x = .ok y) ↔ good x) {xs : List α} {e : ε} :
    xs.mapM f = .error e ↔ ∃ x, FirstFailing good xs x ∧ f x = .error e := by
  induction xs with
  | nil =>
    simp only [not_firstFailing_nil, false_and, exists_false, iff_false]
    exact fun h => nomatch h
  | cons x xs ih =>
    have hrest (y : β) : (xs.mapM f >>= fun ys => (pure (y :: ys) : Except ε (List β))) =
        .error e ↔ xs.mapM f = .error e := by
      rw [bind_eq_error_iff]
      simp [pure, Except.pure]
    rw [List.mapM_cons, bind_eq_error_iff, exists_firstFailing_cons hgood, ← ih, ← hgood]
    simp only [hrest, exists_and_right]

theorem exists_mapM_eq_ok_iff {ε α β : Type} {f : α → Except ε β} {xs : List α} :
    (∃ ys, xs.mapM f = .ok ys) ↔ ∀ x ∈ xs, ∃ y, f x = .ok y := by
  induction xs with
  | nil => exact ⟨fun _ => by simp, fun _ => ⟨[], rfl⟩⟩
  | cons x xs ih =>
    rw [List.mapM_cons, List.forall_mem_cons, ← ih]
    constructor
    · rintro ⟨ys, h⟩
      obtain ⟨y, hy, h⟩ := bind_eq_ok h
      obtain ⟨zs, hz, -⟩ := bind_eq_ok h
      exact ⟨⟨y, hy⟩, zs, hz⟩
    · rintro ⟨⟨y, hy⟩, ys, hys⟩
      refine ⟨y :: ys, ?_⟩
      rw [hy]
      change (xs.mapM f >>= fun ys => pure (y :: ys)) = _
      rw [hys]
      rfl

end Versioning
