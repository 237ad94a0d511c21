import Versioning.Proofs.Text
import Versioning.Range.Basic

namespace Versioning.Range

def AllBlank (t : List Char) : Prop :=
  ∀ c ∈ t, Text.isBlank c

def Gap (t : List Char) : Prop :=
  t ≠ [] ∧ AllBlank t

def Bars (t : List Char) : Prop :=
  ∃ u w, t = u ++ '|' :: '|' :: w ∧ Gap u ∧ AllBlank w

structure VersionText (v : Version) (t : List Char) : Prop where
  ne_nil : t ≠ []
  isVersionChar : ∀ c ∈ t, Version.isVersionChar c
  parse : Version.parse .lenient (String.ofList t) = .ok v

inductive ComparatorText : Comparator → List Char → Prop
  | bare {v : Version} {t : List Char} (hv : VersionText v t) : ComparatorText ⟨.equal, v⟩ t
  | marked (op : Operator) {v : Version} {t : List Char} (hv : VersionText v t) :
      ComparatorText ⟨op, v⟩ (op.symbol.toList ++ t)

inductive Separated {α : Type} (item : α → List Char → Prop) (gap : List Char → Prop) :
    List α → List Char → Prop
  | one {a : α} {t : List Char} (ht : item a t) : Separated item gap [a] t
  | cons {a : α} {as : List α} {t w u : List Char} (ht : item a t) (hw : gap w)
      (hu : Separated item gap as u) : Separated item gap (a :: as) (t ++ w ++ u)

def SetText : List Comparator → List Char → Prop :=
  Separated ComparatorText Gap

def RangeText (sets : List (List Comparator)) (t : List Char) : Prop :=
  ∃ lead body trail, t = lead ++ body ++ trail ∧
    AllBlank lead ∧ Separated SetText Bars sets body ∧ AllBlank trail

theorem AllBlank.nil : AllBlank [] := by
  simp [AllBlank]

theorem AllBlank.append {t u : List Char} (ht : AllBlank t) (hu : AllBlank u) :
    AllBlank (t ++ u) := by
  intro c hc
  rcases List.mem_append.mp hc with hc | hc
  · exact ht c hc
  · exact hu c hc

theorem AllBlank.singleton {c : Char} (hc : Text.isBlank c) : AllBlank [c] := by
  simpa [AllBlank] using hc

theorem Gap.append_singleton {t : List Char} {c : Char} (ht : Gap t) (hc : Text.isBlank c) :
    Gap (t ++ [c]) :=
  ⟨by simp, ht.2.append (.singleton hc)⟩

namespace Separated

variable {α : Type} {item : α → List Char → Prop} {gap : List Char → Prop}

theorem ne_nil {as : List α} {t : List Char} (h : Separated item gap as t) : as ≠ [] := by
  cases h <;> simp

theorem snoc {as : List α} {a : α} {t w u : List Char} (ht : Separated item gap as t)
    (hw : gap w) (hu : item a u) : Separated item gap (as ++ [a]) (t ++ w ++ u) := by
  induction ht with
  | one hb => exact .cons hb hw (.one hu)
  | cons hb hv _ ih =>
    rw [List.cons_append]
    simpa only [List.append_assoc] using Separated.cons hb hv ih

theorem exists_item {as : List α} {t : List Char} (h : Separated item gap as t) :
    ∀ a ∈ as, ∃ u, item a u := by
  induction h with
  | one ha => simpa using ⟨_, ha⟩
  | cons ha _ _ ih => simpa using ⟨⟨_, ha⟩, ih⟩

theorem intercalate {w : List Char} (hw : gap w) (render : α → List Char)
    {as : List α} (hn : as ≠ []) (h : ∀ a ∈ as, item a (render a)) :
    Separated item gap as (w.intercalate (as.map render)) := by
  induction as with
  | nil => contradiction
  | cons a as ih =>
    by_cases hs : as = []
    · subst hs
      rw [List.map_singleton, List.intercalate_singleton]
      exact .one (h a (by simp))
    · rw [List.map_cons, List.intercalate_cons_of_ne_nil (by simpa using hs)]
      exact .cons (h a (by simp)) hw (ih hs fun b hb => h b (by simp [hb]))

end Separated

theorem SetText.ne_nil {s : List Comparator} {t : List Char} (h : SetText s t) : s ≠ [] :=
  Separated.ne_nil h

theorem RangeText.sets_ne_nil {sets : List (List Comparator)} {t : List Char}
    (h : RangeText sets t) : sets ≠ [] ∧ [] ∉ sets := by
  obtain ⟨lead, body, trail, -, -, hb, -⟩ := h
  refine ⟨hb.ne_nil, fun hm => ?_⟩
  obtain ⟨u, hu⟩ := hb.exists_item [] hm
  exact hu.ne_nil rfl

end Versioning.Range
