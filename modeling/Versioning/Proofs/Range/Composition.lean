import Versioning.Proofs.Range.LeftmostFault
import Versioning.Range.Selection

/-!
Range texts put together. Bars between two texts put their sets one after the other, and a blank
between them makes one set of the last on the left and the first on the right. A fault on the left
is met before anything on the right, where the end of the text has become a blank, and a fault on
the right is met as in a text of its own, further on by what stands before it.
-/

namespace Versioning.Range

def Error.behind (n : Nat) : Error → Error
  | .blank => .emptySet
  | .invalidCharacter offset => .invalidCharacter (offset + n)
  | e => e

namespace Separated

variable {α : Type} {item : α → List Char → Prop} {gap : List Char → Prop}

theorem append {as bs : List α} {t w u : List Char} (ht : Separated item gap as t) (hw : gap w)
    (hu : Separated item gap bs u) : Separated item gap (as ++ bs) (t ++ w ++ u) := by
  induction ht with
  | one ha => exact .cons ha hw hu
  | cons ha hv _ ih =>
    rw [List.cons_append]
    simpa only [List.append_assoc] using Separated.cons ha hv ih

end Separated

theorem SetText.extend_first {s : List Comparator} {sets : List (List Comparator)}
    {t w u : List Char} (ht : SetText s t) (hw : Gap w) (hu : Separated SetText Bars sets u) :
    Separated SetText Bars ((s ++ sets.head hu.ne_nil) :: sets.tail) (t ++ w ++ u) := by
  cases hu with
  | one hs => exact .one (Separated.append ht hw hs)
  | @cons s' sets _ _ _ hs hb hu =>
    have hset : SetText (s ++ s') _ := Separated.append ht hw hs
    simpa only [List.append_assoc, List.head_cons, List.tail_cons] using
      Separated.cons hset hb hu

theorem setTexts_join {a b : List (List Comparator)} {t w u : List Char}
    (ht : Separated SetText Bars a t) (hw : Gap w) (hu : Separated SetText Bars b u) :
    Separated SetText Bars
      (a.dropLast ++ (a.getLast ht.ne_nil ++ b.head hu.ne_nil) :: b.tail) (t ++ w ++ u) := by
  -- Only the last set on the left is touched, so the induction passes over those before it.
  induction ht with
  | one hs => exact SetText.extend_first hs hw hu
  | cons hs hb ht ih =>
    rw [List.dropLast_cons_of_ne_nil ht.ne_nil, List.cons_append, List.getLast_cons ht.ne_nil]
    simpa only [List.append_assoc] using Separated.cons hs hb ih

theorem allBlank_space : AllBlank [' '] :=
  .singleton (by decide)

theorem bars_between {u v : List Char} (hu : AllBlank u) (hv : AllBlank v) :
    Bars (u ++ [' ', '|', '|', ' '] ++ v) :=
  ⟨u ++ [' '], [' '] ++ v, by simp, ⟨by simp, hu.append allBlank_space⟩,
    allBlank_space.append hv⟩

theorem RangeText.append_bars {a b : List (List Comparator)} {s t : List Char}
    (hs : RangeText a s) (ht : RangeText b t) :
    RangeText (a ++ b) (s ++ [' ', '|', '|', ' '] ++ t) := by
  obtain ⟨lead, body, trail, rfl, hl, hb, hr⟩ := hs
  obtain ⟨lead', body', trail', rfl, hl', hb', hr'⟩ := ht
  have hbody := hb.append (bars_between hr hl') hb'
  exact ⟨lead, _, trail', by simp only [List.append_assoc], hl, hbody, hr'⟩

theorem RangeText.append_blank {a b : List (List Comparator)} {s t : List Char}
    (hs : RangeText a s) (ht : RangeText b t) :
    RangeText (a.dropLast ++ (a.getLast hs.sets_ne_nil.1 ++ b.head ht.sets_ne_nil.1) :: b.tail)
      (s ++ [' '] ++ t) := by
  obtain ⟨lead, body, trail, rfl, hl, hb, hr⟩ := hs
  obtain ⟨lead', body', trail', rfl, hl', hb', hr'⟩ := ht
  have hgap : Gap (trail ++ [' '] ++ lead') := ⟨by simp, (hr.append allBlank_space).append hl'⟩
  exact ⟨lead, _, trail', by simp only [List.append_assoc], hl, setTexts_join hb hgap hb', hr'⟩

theorem not_isBlank_of_mem_symbol {op : Operator} : ∀ c ∈ op.symbol.toList, ¬ Text.isBlank c := by
  have hall : op.symbol.toList.all (!Text.isBlank ·) := by cases op <;> rfl
  simpa using hall

theorem Ends.append {t u : List Char} (ht : Ends t) (hu : Ends u) : Ends (t ++ u) := by
  cases t with
  | nil => exact hu
  | cons c t => exact ht

theorem Longest.append {op : Option Operator} {t u : List Char} (h : Longest op t) (hu : Ends u) :
    Longest op (t ++ u) := by
  intro o ho
  rw [← List.append_assoc] at ho
  -- An operator that reached beyond `t` would hold the blank that `u` begins with.
  rcases List.prefix_or_prefix_of_prefix ho (List.prefix_append _ u) with hp | ⟨v, hv⟩
  · exact h o hp
  · cases v with
    | nil => exact h o (by simp [← hv])
    | cons c v =>
      rw [← hv, List.prefix_append_right_inj] at ho
      obtain ⟨w, rfl⟩ := ho
      have hc : c ∈ o.symbol.toList := by simp [← hv]
      exact absurd (hu c rfl) (not_isBlank_of_mem_symbol c hc)

theorem Token.append {op : Option Operator} {u t v : List Char} (h : Token op u t) (hv : Ends v) :
    Token op u (t ++ v) where
  longest := by
    rw [← List.append_assoc]
    exact h.longest.append hv
  ne_nil := h.ne_nil
  not_blank := h.not_blank
  not_bar := h.not_bar
  ends := h.ends.append hv

/-- The end of a text acts as the blank that `u` begins with, provided that `u` too has no
comparator for a set that is still empty. -/
theorem Fault.append {before t u : List Char} {empty : Bool} {e : Error}
    (h : Fault before empty t e) (hu : Ends u) (hempty : ∀ b, Fault b true u .emptySet) :
    Fault before empty (t ++ u) e := by
  induction h with
  | blank hc _ ih => exact .blank hc ih
  | @loneBar before t empty ht =>
    apply Fault.loneBar
    cases t with
    | nil =>
      intro hc
      exact absurd (hu '|' hc) (by decide)
    | cons c t => exact ht
  | emptySet => exact .emptySet
  | bars _ ih => exact .bars ih
  | orphan hop ht =>
    rw [List.append_assoc]
    exact .orphan (hop.append hu) (ht.append hu)
  | character htoken ha hc =>
    rw [List.append_assoc]
    exact .character (htoken.append hu) ha hc
  | version htoken hc hv =>
    rw [List.append_assoc]
    exact .version (htoken.append hu) hc hv
  | comparator htoken hv _ ih =>
    rw [List.append_assoc]
    exact .comparator (htoken.append hu) hv ih
  | unfilled => exact hempty _

theorem Fault.blanks {before w t : List Char} {empty : Bool} {e : Error} (hw : AllBlank w)
    (h : Fault (before ++ w) empty t e) : Fault before empty (w ++ t) e := by
  induction w generalizing before with
  | nil => simpa using h
  | cons c w ih =>
    refine .blank (hw c (by simp)) (ih (fun d hd => hw d (by simp [hd])) ?_)
    simpa using h

theorem fault_of_allBlank {before t : List Char} (ht : AllBlank t) :
    Fault before true t .emptySet := by
  rw [← List.append_nil t]
  exact .blanks ht .unfilled

theorem utf8ByteSize_behind (p t : List Char) : (String.ofList (p ++ t)).utf8ByteSize =
    (String.ofList t).utf8ByteSize + byteSize p := by
  rw [utf8ByteSize_ofList, utf8ByteSize_ofList, byteSize_append, Nat.add_comm]

theorem Fault.behind {before t : List Char} {empty : Bool} {e : Error}
    (h : Fault before empty t e) (p : List Char) :
    Fault (p ++ before) empty t (e.behind (byteSize p)) := by
  induction h with
  | blank hc _ ih =>
    rw [← List.append_assoc] at ih
    exact .blank hc ih
  | loneBar ht =>
    rw [Error.behind, ← utf8ByteSize_behind, ← List.append_assoc]
    exact .loneBar ht
  | emptySet => exact .emptySet
  | bars _ ih =>
    rw [← List.append_assoc] at ih
    exact .bars ih
  | orphan hop ht => exact .orphan hop ht
  | @character before a b t empty op c hu ha hc =>
    have hp : p ++ (before ++ symbolText op ++ a) = p ++ before ++ symbolText op ++ a := by
      simp only [List.append_assoc]
    rw [Error.behind, ← utf8ByteSize_behind, hp]
    exact .character hu ha hc
  | version hu hc hv => exact .version hu hc hv
  | comparator hu hv _ ih =>
    rw [← List.append_assoc, ← List.append_assoc] at ih
    exact .comparator hu hv ih
  | unfilled => exact .unfilled

namespace Reader

variable {n : Nat} {closed : Array (List Comparator)} {current : Array Comparator}

theorem run_set_bars {s : List Comparator} {u w : List Char} (hs : SetText s u) (hw : Bars w)
    (t : List Char) : run ⟨n, closed, #[], .between⟩ (u ++ w ++ t) =
      run ⟨n + byteSize (u ++ w), closed.push s, #[], .between⟩ t := by
  obtain ⟨x, y, rfl, hx, hy⟩ := hw
  have he : Ends (x ++ ('|' :: '|' :: (y ++ t))) := ends_append hx _
  have hne : ((#[] : Array Comparator) ++ s).isEmpty = false := by simpa using hs.ne_nil
  have hn : n + byteSize u + byteSize x + 2 + byteSize y =
      n + byteSize (u ++ (x ++ '|' :: '|' :: y)) := by
    have hbar : '|'.utf8Size = 1 := rfl
    rw [byteSize_append, byteSize_append, byteSize_cons, byteSize_cons, hbar]
    omega
  simp only [List.append_assoc, List.cons_append]
  rw [run_set hs he, run_blanks hx.2, run_bars hne, run_blanks hy, hn]
  simp

theorem run_sets_bars {sets : List (List Comparator)} {u w : List Char}
    (hs : Separated SetText Bars sets u) (hw : Bars w) (t : List Char) :
    run ⟨n, closed, #[], .between⟩ (u ++ w ++ t) =
      run ⟨n + byteSize (u ++ w), closed ++ sets, #[], .between⟩ t := by
  induction hs generalizing n closed with
  | one hs =>
    rw [run_set_bars hs hw]
    simp
  | @cons s sets u v u' hs hv hu ih =>
    rw [List.append_assoc, List.append_assoc, run_set_bars hs hv, ← List.append_assoc, ih]
    simp [byteSize_append, Nat.add_assoc]

end Reader

theorem toList_append_bars (s t : String) :
    (s ++ " || " ++ t).toList = s.toList ++ [' ', '|', '|', ' '] ++ t.toList := by
  rw [String.toList_append, String.toList_append]
  rfl

theorem parse_eq_run {s : String} (h : ¬ AllBlank s.toList) : parse s = Reader.start.run s.toList :=
  if_neg fun hb => h (List.all_eq_true.mp hb)

theorem parse_of_allBlank {s : String} (h : AllBlank s.toList) : parse s = .error .blank :=
  if_pos (List.all_eq_true.mpr h)

theorem parse_append_bars_eq_run (s t : String) : parse (s ++ " || " ++ t) =
    Reader.start.run (s.toList ++ [' ', '|', '|', ' '] ++ t.toList) := by
  rw [parse_eq_run, toList_append_bars]
  intro hb
  rw [toList_append_bars] at hb
  exact absurd (hb '|' (by simp)) (by decide)

theorem fault_of_parse {s : String} {e : Error} (h : parse s = .error e) :
    AllBlank s.toList ∧ e = .blank ∨ Fault [] true s.toList e := by
  by_cases hb : AllBlank s.toList
  · cases (parse_of_allBlank hb).symm.trans h
    exact .inl ⟨hb, rfl⟩
  · rw [parse_eq_run hb] at h
    exact .inr ((run_eq_error_iff_fault _ e).mp h)

theorem fault_bars {b : List Char} (t : List Char) :
    Fault b true ([' ', '|', '|', ' '] ++ t) .emptySet :=
  .blank (by decide) .emptySet

theorem parse_left_fault {s : String} {e : Error} (h : parse s = .error e) (t : String) :
    parse (s ++ " || " ++ t) = .error (if e = .blank then .emptySet else e) := by
  rw [parse_append_bars_eq_run, run_eq_error_iff_fault, List.append_assoc]
  rcases fault_of_parse h with ⟨hb, rfl⟩ | hf
  · exact .blanks hb (fault_bars _)
  · have hu : Ends ([' ', '|', '|', ' '] ++ t.toList) := by
      intro c hc
      cases hc
      decide
    rw [if_neg hf.ne_blank]
    exact hf.append hu fun b => fault_bars _

theorem run_behind_bars {r : Range} {s : String} (h : parse s = .ok r) (t : List Char) :
    Reader.start.run (s.toList ++ [' ', '|', '|', ' '] ++ t) =
      Reader.run ⟨byteSize (s.toList ++ [' ', '|', '|', ' ']), r.sets.toArray, #[], .between⟩ t := by
  obtain ⟨lead, body, trail, hs, hl, hb, hr⟩ := rangeText_of_parse h
  have hbars : Bars (trail ++ [' ', '|', '|', ' ']) := by simpa using bars_between hr .nil
  have hclosed : (#[] : Array (List Comparator)) ++ r.sets = r.sets.toArray := by simp
  have hrun : Reader.run Reader.start (lead ++ (body ++ (trail ++ [' ', '|', '|', ' ']) ++ t)) =
      Reader.run ⟨0 + byteSize lead, #[], #[], .between⟩
        (body ++ (trail ++ [' ', '|', '|', ' ']) ++ t) := Reader.run_blanks hl _
  rw [Reader.run_sets_bars hb hbars, hclosed, Nat.zero_add, ← byteSize_append] at hrun
  rw [hs]
  simpa only [List.append_assoc] using hrun

theorem parse_right_fault {r : Range} {s t : String} {e : Error} (hs : parse s = .ok r)
    (ht : parse t = .error e) :
    parse (s ++ " || " ++ t) = .error (e.behind (s.utf8ByteSize + 4)) := by
  let p := s.toList ++ [' ', '|', '|', ' ']
  have hp : byteSize p = s.utf8ByteSize + 4 := by
    rw [byteSize_append, ← utf8ByteSize_ofList, String.ofList_toList]
    rfl
  have hf : Fault p true t.toList (e.behind (byteSize p)) := by
    rcases fault_of_parse ht with ⟨hb, rfl⟩ | hf
    · exact fault_of_allBlank hb
    · simpa using hf.behind p
  rw [parse_append_bars_eq_run, run_behind_bars hs, ← hp]
  exact Reader.run_of_fault hf rfl

theorem RangeText.exists_parse {s : String} {sets : List (List Comparator)}
    (h : RangeText sets s.toList) : ∃ u, parse s = .ok u ∧ u.sets = sets := by
  obtain ⟨u, hok, hsets⟩ := ofSets_eq_ok h
  exact ⟨u, by rw [parse_of_rangeText h, hok], hsets⟩

theorem parse_sides {r q : Range} {s t : String} (hs : parse s = .ok r) (ht : parse t = .ok q) :
    ∃ u, parse (s ++ " || " ++ t) = .ok u ∧ u.sets = r.sets ++ q.sets := by
  apply RangeText.exists_parse
  rw [toList_append_bars]
  exact (rangeText_of_parse hs).append_bars (rangeText_of_parse ht)

theorem parse_joined {r q : Range} {s t : String} (hs : parse s = .ok r) (ht : parse t = .ok q) :
    ∃ u, parse (s ++ " " ++ t) = .ok u ∧
      u.sets = r.sets.dropLast ++
        (r.sets.getLast r.sets_ne_nil ++ q.sets.head q.sets_ne_nil) :: q.sets.tail := by
  have htext : (s ++ " " ++ t).toList = s.toList ++ [' '] ++ t.toList := by
    rw [String.toList_append, String.toList_append]
    rfl
  apply RangeText.exists_parse
  rw [htext]
  exact (rangeText_of_parse hs).append_blank (rangeText_of_parse ht)

theorem admits_of_sets_append {r q u : Range} (h : u.sets = r.sets ++ q.sets) (v : Version) :
    u.admits v = (r.admits v || q.admits v) := by
  rw [admits, h, List.any_append]
  rfl

/-- Two texts with bars between them read as the sets of both, unless one has a fault: the left one
its own, the right one its own further on, with an empty set in place of a blank text. Two ranges
with a blank between them have one set in common. -/
theorem parse_compose (s t : String) :
    (∀ r q, parse s = .ok r → parse t = .ok q → ∃ u, parse (s ++ " || " ++ t) = .ok u ∧
        u.sets = r.sets ++ q.sets ∧ ∀ v, u.admits v = (r.admits v || q.admits v)) ∧
      (∀ e, parse s = .error e →
        parse (s ++ " || " ++ t) = .error (if e = .blank then .emptySet else e)) ∧
      (∀ r e, parse s = .ok r → parse t = .error e →
        parse (s ++ " || " ++ t) = .error (e.behind (s.utf8ByteSize + 4))) ∧
      ∀ r q, parse s = .ok r → parse t = .ok q → ∃ u, parse (s ++ " " ++ t) = .ok u ∧
        u.sets = r.sets.dropLast ++
          (r.sets.getLast r.sets_ne_nil ++ q.sets.head q.sets_ne_nil) :: q.sets.tail := by
  refine ⟨fun r q hs ht => ?_, fun e he => parse_left_fault he t,
    fun r e hs ht => parse_right_fault hs ht, fun r q hs ht => parse_joined hs ht⟩
  obtain ⟨u, hu, hsets⟩ := parse_sides hs ht
  exact ⟨u, hu, hsets, admits_of_sets_append hsets⟩

theorem parse_compose_sides :
    parse "1.0.0" = .ok ⟨[[⟨.equal, .release 1 0 0⟩]], by decide, by decide⟩ ∧
      parse ">=2.0.0\u3000<3.0.0" = .ok ⟨[[⟨.greaterEqual, .release 2 0 0⟩,
        ⟨.less, .release 3 0 0⟩]], by decide, by decide⟩ ∧
      parse "\u3000*" = .error (.invalidCharacter 3) ∧ parse " " = .error .blank ∧
      (∃ u, parse "1.0.0 || >=2.0.0\u3000<3.0.0" = .ok u ∧ u.sets = [[⟨.equal, .release 1 0 0⟩],
        [⟨.greaterEqual, .release 2 0 0⟩, ⟨.less, .release 3 0 0⟩]]) ∧
      parse "  || *" = .error .emptySet ∧
      parse "1.0.0 || \u3000*" = .error (.invalidCharacter 12) ∧
      ∃ u, parse "1.0.0 >=2.0.0\u3000<3.0.0" = .ok u ∧ u.sets = [[⟨.equal, .release 1 0 0⟩,
        ⟨.greaterEqual, .release 2 0 0⟩, ⟨.less, .release 3 0 0⟩]] := by
  have hone : parse "1.0.0" = .ok ⟨[[⟨.equal, .release 1 0 0⟩]], by decide, by decide⟩ := rfl
  have htwo : parse ">=2.0.0\u3000<3.0.0" = .ok ⟨[[⟨.greaterEqual, .release 2 0 0⟩,
    ⟨.less, .release 3 0 0⟩]], by decide, by decide⟩ := rfl
  have hstar : parse "\u3000*" = .error (.invalidCharacter 3) := rfl
  have hblank : parse " " = .error .blank := rfl
  have hcompose := parse_compose "1.0.0" ">=2.0.0\u3000<3.0.0"
  obtain ⟨u, hu, hsets, -⟩ := hcompose.1 _ _ hone htwo
  exact ⟨hone, htwo, hstar, hblank, ⟨u, hu, hsets⟩, (parse_compose " " "*").2.1 _ hblank,
    (parse_compose "1.0.0" "\u3000*").2.2.1 _ _ hone hstar, hcompose.2.2.2 _ _ hone htwo⟩

end Versioning.Range
