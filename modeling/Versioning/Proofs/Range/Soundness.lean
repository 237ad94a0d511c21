import Versioning.Proofs.Outcome
import Versioning.Proofs.Range.Grammar
import Versioning.Range.Reader

namespace Versioning.Range

open Version (isVersionChar)

inductive ClosedText : List (List Comparator) → List Char → Prop
  | nil : ClosedText [] []
  | snoc {sets : List (List Comparator)} {set : List Comparator} {p u t w : List Char}
      (hp : ClosedText sets p) (hu : AllBlank u) (ht : SetText set t) (hw : Gap w) :
      ClosedText (sets ++ [set]) (p ++ u ++ t ++ w ++ ['|', '|'])

def FilledText (closed : List (List Comparator)) (current : List Comparator) (t : List Char) :
    Prop :=
  ∃ p u s, t = p ++ u ++ s ∧ ClosedText closed p ∧ AllBlank u ∧ SetText current s

inductive OpenText (closed : List (List Comparator)) : List Comparator → List Char → Prop
  | empty {p u : List Char} (hp : ClosedText closed p) (hu : AllBlank u) :
      OpenText closed [] (p ++ u)
  | filled {current : List Comparator} {t w : List Char} (ht : FilledText closed current t)
      (hw : Gap w) : OpenText closed current (t ++ w)

inductive PlaceText : Place → List Char → Prop
  | between : PlaceText .between []
  | bar : PlaceText .bar ['|']
  | angle (side : Angle) : PlaceText (.angle side) side.strict.symbol.toList
  | operand (op : Operator) : PlaceText (.operand op) op.symbol.toList
  | bareWord {text : String} (hn : text.toList ≠ []) (hc : ∀ c ∈ text.toList, isVersionChar c) :
      PlaceText (.word .equal text) text.toList
  | markedWord (op : Operator) {text : String} (hn : text.toList ≠ [])
      (hc : ∀ c ∈ text.toList, isVersionChar c) :
      PlaceText (.word op text) (op.symbol.toList ++ text.toList)

def Reader.Consumed (r : Reader) (t : List Char) : Prop :=
  ∃ p u, t = p ++ u ∧ OpenText r.closed.toList r.current.toList p ∧ PlaceText r.place u

theorem OpenText.blank {closed : List (List Comparator)} {current : List Comparator}
    {p : List Char} {c : Char} (h : OpenText closed current p) (hc : Text.isBlank c) :
    OpenText closed current (p ++ [c]) := by
  cases h with
  | empty hp hu =>
    rw [List.append_assoc]
    exact .empty hp (hu.append (.singleton hc))
  | filled ht hw =>
    rw [List.append_assoc]
    exact .filled ht (hw.append_singleton hc)

theorem OpenText.comparator {closed : List (List Comparator)} {current : List Comparator}
    {p t : List Char} {x : Comparator} (h : OpenText closed current p) (hx : ComparatorText x t) :
    FilledText closed (current ++ [x]) (p ++ t) := by
  cases h with
  | empty hp hu => exact ⟨_, _, t, rfl, hp, hu, .one hx⟩
  | filled ht hw =>
    obtain ⟨q, u, s, rfl, hq, hu, hs⟩ := ht
    exact ⟨q, u, _, by simp only [List.append_assoc], hq, hu, hs.snoc hw hx⟩

theorem OpenText.exists_filled {closed : List (List Comparator)} {current : List Comparator}
    {p : List Char} (h : OpenText closed current p) (hn : current ≠ []) :
    ∃ t w, p = t ++ w ∧ FilledText closed current t ∧ Gap w := by
  cases h with
  | empty hp hu => contradiction
  | filled ht hw => exact ⟨_, _, rfl, ht, hw⟩

theorem OpenText.bars {closed : List (List Comparator)} {current : List Comparator}
    {p : List Char} (h : OpenText closed current p) (hn : current ≠ []) :
    OpenText (closed ++ [current]) [] (p ++ ['|'] ++ ['|']) := by
  obtain ⟨t, w, rfl, ⟨q, u, s, rfl, hq, hu, hs⟩, hw⟩ := h.exists_filled hn
  simpa using OpenText.empty (ClosedText.snoc hq hu hs hw) AllBlank.nil

theorem PlaceText.comparator {op : Operator} {text : String} {t : List Char} {v : Version}
    (h : PlaceText (.word op text) t) (hv : Version.parse .lenient text = .ok v) :
    ComparatorText ⟨op, v⟩ t := by
  have hs : Version.parse .lenient (String.ofList text.toList) = .ok v := by
    rwa [String.ofList_toList]
  cases h with
  | bareWord hn hc => exact .bare ⟨hn, hc, hs⟩
  | markedWord op hn hc => exact .marked op ⟨hn, hc, hs⟩

theorem PlaceText.push {op : Operator} {text : String} {t : List Char} {c : Char}
    (h : PlaceText (.word op text) t) (hc : isVersionChar c) :
    PlaceText (.word op (text.push c)) (t ++ [c]) := by
  have hne : (text.push c).toList ≠ [] := by simp
  have hall {u : String} (hu : ∀ d ∈ u.toList, isVersionChar d) :
      ∀ d ∈ (u.push c).toList, isVersionChar d := by
    intro d hd
    rcases List.mem_append.mp (String.toList_push c ▸ hd) with hd | hd
    · exact hu d hd
    · rwa [List.mem_singleton.mp hd]
  cases h with
  | bareWord hn hu => exact String.toList_push c ▸ .bareWord hne (hall hu)
  | markedWord op hn hu =>
    rw [List.append_assoc, ← String.toList_push]
    exact .markedWord op hne (hall hu)

namespace Reader

theorem extend_eq_ok {r next : Reader} {op : Operator} {text : String} {c : Char}
    (h : r.extend op text c = .ok next) :
    isVersionChar c ∧ next = { r with place := .word op (text.push c) } := by
  unfold extend at h
  split at h
  · next hc => exact ⟨hc, (Except.ok.inj h).symm⟩
  · contradiction

theorem begin_eq_ok {r next : Reader} {op : Operator} {c : Char} (h : r.begin op c = .ok next) :
    isVersionChar c ∧ next = { r with place := .word op (String.singleton c) } := by
  unfold begin at h
  split at h
  · contradiction
  · exact extend_eq_ok h

theorem closeSet_eq_ok {r next : Reader} (h : r.closeSet = .ok next) :
    r.current.toList ≠ [] ∧ next =
      { r with closed := r.closed.push r.current.toList, current := #[], place := .between } := by
  unfold closeSet at h
  split at h
  · contradiction
  · next hn => exact ⟨by simpa using hn, (Except.ok.inj h).symm⟩

theorem closeWord_eq_ok {r next : Reader} {op : Operator} {text : String}
    (h : r.closeWord op text = .ok next) : ∃ v, Version.parse .lenient text = .ok v ∧
      next = { r with current := r.current.push ⟨op, v⟩, place := .between } := by
  unfold closeWord at h
  split at h
  · contradiction
  · next v hv => exact ⟨v, hv, (Except.ok.inj h).symm⟩

theorem consumed_start : start.Consumed [] :=
  ⟨[], [], rfl, .empty .nil .nil, .between⟩

theorem placeText_singleton {op : Operator} {c : Char} {t : List Char} (hc : isVersionChar c)
    (ht : t = op.symbol.toList ∨ op = .equal ∧ t = []) :
    PlaceText (.word op (String.singleton c)) (t ++ [c]) := by
  have hne : (String.singleton c).toList ≠ [] := by simp
  have hall : ∀ d ∈ (String.singleton c).toList, isVersionChar d := by simpa using hc
  rw [← String.toList_singleton]
  rcases ht with rfl | ⟨rfl, rfl⟩
  · exact .markedWord op hne hall
  · exact .bareWord hne hall

theorem consumed_between {r next : Reader} {c : Char} {p : List Char}
    (hplace : r.place = .between) (h : r.read c = .ok next)
    (hp : OpenText r.closed.toList r.current.toList p) : next.Consumed (p ++ [c]) := by
  unfold read at h
  simp only [hplace] at h
  split at h
  · next hc =>
    cases h
    exact ⟨p ++ [c], [], by simp, hp.blank hc, hplace ▸ .between⟩
  split at h
  · next hc =>
    cases h
    exact ⟨p, [c], rfl, hp, hc ▸ .operand .equal⟩
  split at h
  · next hc =>
    cases h
    exact ⟨p, [c], rfl, hp, hc ▸ .angle .left⟩
  split at h
  · next hc =>
    cases h
    exact ⟨p, [c], rfl, hp, hc ▸ .angle .right⟩
  split at h
  · next hc =>
    cases h
    exact ⟨p, [c], rfl, hp, hc ▸ .bar⟩
  · obtain ⟨hc, rfl⟩ := extend_eq_ok h
    exact ⟨p, [c], rfl, hp, placeText_singleton hc (.inr ⟨rfl, rfl⟩)⟩

theorem consumed_bar {r next : Reader} {c : Char} {p : List Char}
    (hplace : r.place = .bar) (h : r.read c = .ok next)
    (hp : OpenText r.closed.toList r.current.toList p) : next.Consumed (p ++ ['|'] ++ [c]) := by
  unfold read at h
  simp only [hplace] at h
  split at h
  · next hc =>
    subst hc
    obtain ⟨hn, rfl⟩ := closeSet_eq_ok h
    refine ⟨p ++ ['|'] ++ ['|'], [], by simp, ?_, .between⟩
    simpa using hp.bars hn
  · contradiction

theorem consumed_begin {r next : Reader} {op : Operator} {c : Char} {p : List Char}
    (h : r.begin op c = .ok next) (hp : OpenText r.closed.toList r.current.toList p) :
    next.Consumed (p ++ op.symbol.toList ++ [c]) := by
  obtain ⟨hc, rfl⟩ := begin_eq_ok h
  rw [List.append_assoc]
  exact ⟨p, _, rfl, hp, placeText_singleton hc (.inl rfl)⟩

theorem consumed_angle {r next : Reader} {side : Angle} {c : Char} {p : List Char}
    (hplace : r.place = .angle side) (h : r.read c = .ok next)
    (hp : OpenText r.closed.toList r.current.toList p) :
    next.Consumed (p ++ side.strict.symbol.toList ++ [c]) := by
  unfold read at h
  simp only [hplace] at h
  split at h
  · next hc =>
    cases h
    have hs : side.strict.symbol.toList ++ [c] = side.orEqual.symbol.toList := by
      subst hc
      cases side <;> rfl
    rw [List.append_assoc, hs]
    exact ⟨p, _, rfl, hp, .operand side.orEqual⟩
  · exact consumed_begin h hp

theorem consumed_word {r next : Reader} {op : Operator} {text : String} {c : Char}
    {p u : List Char} (hplace : r.place = .word op text) (h : r.read c = .ok next)
    (hp : OpenText r.closed.toList r.current.toList p) (hu : PlaceText (.word op text) u) :
    next.Consumed (p ++ u ++ [c]) := by
  unfold read at h
  simp only [hplace] at h
  split at h
  · next hc =>
    obtain ⟨v, hv, rfl⟩ := closeWord_eq_ok h
    refine ⟨p ++ u ++ [c], [], by simp, ?_, .between⟩
    simpa using OpenText.filled (hp.comparator (hu.comparator hv)) ⟨by simp, .singleton hc⟩
  · obtain ⟨hc, rfl⟩ := extend_eq_ok h
    rw [List.append_assoc]
    exact ⟨p, _, rfl, hp, hu.push hc⟩

theorem consumed_read {r next : Reader} {c : Char} {t : List Char} (h : r.read c = .ok next)
    (ht : r.Consumed t) : next.Consumed (t ++ [c]) := by
  obtain ⟨p, u, rfl, hp, hu⟩ := ht
  -- What stands behind `p` belongs to the place, and fixes the text of all but a word.
  cases hplace : r.place with
  | between =>
    rw [hplace] at hu
    cases hu
    rw [List.append_nil]
    exact consumed_between hplace h hp
  | bar =>
    rw [hplace] at hu
    cases hu
    exact consumed_bar hplace h hp
  | angle side =>
    rw [hplace] at hu
    cases hu
    exact consumed_angle hplace h hp
  | operand op =>
    rw [hplace] at hu
    cases hu
    unfold read at h
    simp only [hplace] at h
    exact consumed_begin h hp
  | word op text =>
    rw [hplace] at hu
    exact consumed_word hplace h hp hu

theorem consumed_step {r next : Reader} {c : Char} {t : List Char} (h : r.step c = .ok next)
    (ht : r.Consumed t) : next.Consumed (t ++ [c]) := by
  unfold step at h
  cases hr : r.read c with
  | error e =>
    rw [hr] at h
    contradiction
  | ok mid =>
    rw [hr] at h
    cases h
    exact (consumed_read hr ht : mid.Consumed (t ++ [c]))

theorem consumed_foldlM {r last : Reader} {u t : List Char} (h : u.foldlM step r = .ok last)
    (ht : r.Consumed t) : last.Consumed (t ++ u) := by
  induction u generalizing r t with
  | nil =>
    cases h
    simpa using ht
  | cons c u ih =>
    rw [List.foldlM_cons] at h
    obtain ⟨next, hs, hn⟩ := bind_eq_ok h
    simpa using ih hn (consumed_step hs ht)

theorem closedText_body {sets : List (List Comparator)} {p : List Char} (hp : ClosedText sets p)
    {set : List Comparator} {u s : List Char} (hu : AllBlank u) (hs : SetText set s) :
    ∃ lead body, p ++ u ++ s = lead ++ body ∧ AllBlank lead ∧
      Separated SetText Bars (sets ++ [set]) body := by
  induction hp generalizing set u s with
  | nil => exact ⟨u, s, rfl, hu, .one hs⟩
  | snoc hq hv ht hw ih =>
    obtain ⟨lead, body, he, hl, hb⟩ := ih hv ht
    refine ⟨lead, _, ?_, hl, hb.snoc ⟨_, u, rfl, hw, hu⟩ hs⟩
    rw [he]
    simp only [List.append_assoc, List.cons_append, List.nil_append]

theorem rangeText_of_filled {closed : List (List Comparator)} {current : List Comparator}
    {t w : List Char} (h : FilledText closed current t) (hw : AllBlank w) :
    RangeText (closed ++ [current]) (t ++ w) := by
  obtain ⟨p, u, s, rfl, hp, hu, hs⟩ := h
  obtain ⟨lead, body, he, hl, hb⟩ := closedText_body hp hu hs
  exact ⟨lead, body, w, by rw [he], hl, hb, hw⟩

theorem range_eq_ok {r : Reader} {R : Range} (h : r.range = .ok R) :
    R.sets = r.closed.toList ++ [r.current.toList] := by
  unfold range ofSets at h
  split at h
  · cases h
    exact Array.toList_push
  · contradiction

theorem consumed_finish {r : Reader} {R : Range} {t : List Char} (h : r.finish = .ok R)
    (ht : r.Consumed t) : RangeText R.sets t := by
  obtain ⟨p, u, rfl, hp, hu⟩ := ht
  unfold finish at h
  cases hplace : r.place with
  | between =>
    simp only [hplace] at h hu
    cases hu
    have hs := range_eq_ok h
    have hn : r.current.toList ≠ [] := fun he => R.nil_not_mem (by simp [hs, he])
    obtain ⟨s, w, rfl, hf, hw⟩ := hp.exists_filled hn
    rw [hs, List.append_nil]
    exact rangeText_of_filled hf hw.2
  | bar =>
    simp only [hplace] at h
    contradiction
  | angle side =>
    simp only [hplace] at h
    contradiction
  | operand op =>
    simp only [hplace] at h
    contradiction
  | word op text =>
    simp only [hplace] at h hu
    obtain ⟨next, hc, hr⟩ := bind_eq_ok h
    obtain ⟨v, hv, rfl⟩ := closeWord_eq_ok hc
    rw [range_eq_ok hr, ← List.append_nil (p ++ u), Array.toList_push]
    exact rangeText_of_filled (hp.comparator (hu.comparator hv)) .nil

end Reader

end Versioning.Range
