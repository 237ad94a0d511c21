import Versioning.Proofs.Range.Completeness

/-!
The leftmost fault of a text that is no range, found by going through it item by item: blanks, bars,
and runs of other characters behind an operator or without one. Reading fails with this fault and
with no other, and where there is none it succeeds.
-/

namespace Versioning.Range

open Version (isVersionChar)

def symbolText (op : Option Operator) : List Char :=
  op.elim [] fun o => o.symbol.toList

/-- No operator of more characters stands in the same place. -/
def Longest (op : Option Operator) (t : List Char) : Prop :=
  ∀ o : Operator, o.symbol.toList <+: symbolText op ++ t →
    o.symbol.toList.length ≤ (symbolText op).length

structure Token (op : Option Operator) (u t : List Char) : Prop where
  longest : Longest op (u ++ t)
  ne_nil : u ≠ []
  not_blank : ∀ c ∈ u, ¬ Text.isBlank c
  not_bar : op = none → u.head? ≠ some '|'
  ends : Ends t

/-- The first fault in what follows `before`, where the current set is `empty` so far or not. -/
inductive Fault : List Char → Bool → List Char → Error → Prop
  | blank {before t : List Char} {empty : Bool} {c : Char} {e : Error} (hc : Text.isBlank c)
      (ht : Fault (before ++ [c]) empty t e) : Fault before empty (c :: t) e
  | loneBar {before t : List Char} {empty : Bool} (ht : t.head? ≠ some '|') :
      Fault before empty ('|' :: t)
        (.invalidCharacter (String.ofList (before ++ ['|'])).utf8ByteSize)
  | emptySet {before t : List Char} : Fault before true ('|' :: '|' :: t) .emptySet
  | bars {before t : List Char} {e : Error} (ht : Fault (before ++ ['|', '|']) true t e) :
      Fault before false ('|' :: '|' :: t) e
  | orphan {before t : List Char} {empty : Bool} {op : Operator} (hop : Longest (some op) t)
      (ht : Ends t) : Fault before empty (op.symbol.toList ++ t) (.orphanedOperator op)
  | character {before a b t : List Char} {empty : Bool} {op : Option Operator} {c : Char}
      (hu : Token op (a ++ c :: b) t) (ha : ∀ d ∈ a, isVersionChar d) (hc : ¬ isVersionChar c) :
      Fault before empty (symbolText op ++ (a ++ c :: b) ++ t)
        (.invalidCharacter (String.ofList (before ++ symbolText op ++ a)).utf8ByteSize)
  | version {before u t : List Char} {empty : Bool} {op : Option Operator} {cause : Version.Error}
      (hu : Token op u t) (hc : ∀ c ∈ u, isVersionChar c)
      (hv : Version.parse .lenient (String.ofList u) = .error cause) :
      Fault before empty (symbolText op ++ u ++ t) (.invalidVersion (String.ofList u) cause)
  | comparator {before u t : List Char} {empty : Bool} {op : Option Operator} {v : Version}
      {e : Error} (hu : Token op u t) (hv : VersionText v u)
      (ht : Fault (before ++ symbolText op ++ u) false t e) :
      Fault before empty (symbolText op ++ u ++ t) e
  | unfilled {before : List Char} : Fault before true [] .emptySet

theorem Fault.ne_blank {before t : List Char} {empty : Bool} {e : Error}
    (h : Fault before empty t e) : e ≠ .blank := by
  induction h with
  | blank _ _ ih => exact ih
  | bars _ ih => exact ih
  | comparator _ _ _ ih => exact ih
  | loneBar _ | emptySet | orphan _ _ | character _ _ _ | version _ _ _ | unfilled => nofun

theorem utf8ByteSize_ofList (t : List Char) : (String.ofList t).utf8ByteSize = byteSize t := by
  induction t with
  | nil => rfl
  | cons c t ih =>
    rw [String.ofList_cons, String.utf8ByteSize_append, String.utf8ByteSize_singleton, ih,
      byteSize_cons]

theorem Longest.ne_symbol {c d : Char} {t : List Char} (h : Longest none (c :: t)) (op : Operator)
    (hd : op.symbol.toList = [d]) : c ≠ d := by
  rintro rfl
  have hl := h op ⟨t, by rw [hd]; rfl⟩
  rw [hd] at hl
  contradiction

theorem Longest.not_equals (side : Angle) {t : List Char} (h : Longest (some side.strict) t) :
    t.head? ≠ some '=' := by
  intro ht
  obtain ⟨u, rfl⟩ := List.head?_eq_some_iff.mp ht
  have hp : side.orEqual.symbol.toList <+: side.strict.symbol.toList ++ '=' :: u :=
    ⟨u, by cases side <;> rfl⟩
  have hl := h side.orEqual hp
  cases side <;> contradiction

theorem symbol_length (op : Operator) :
    op.symbol.toList.length = 1 ∨ op.symbol.toList.length = 2 := by
  cases op <;> decide

theorem exists_longest (t : List Char) : ∃ op u, t = symbolText op ++ u ∧ Longest op u := by
  by_cases htwo : ∃ op : Operator, op.symbol.toList <+: t ∧ op.symbol.toList.length = 2
  · obtain ⟨op, ⟨u, rfl⟩, hop⟩ := htwo
    refine ⟨some op, u, rfl, fun o _ => ?_⟩
    change _ ≤ op.symbol.toList.length
    have ho := symbol_length o
    omega
  by_cases hone : ∃ op : Operator, op.symbol.toList <+: t
  · obtain ⟨op, u, rfl⟩ := hone
    refine ⟨some op, u, rfl, fun o hp => ?_⟩
    change _ ≤ op.symbol.toList.length
    have ho : o.symbol.toList.length ≠ 2 := fun hl => htwo ⟨o, hp, hl⟩
    have hl := symbol_length o
    have hop := symbol_length op
    omega
  · exact ⟨none, t, rfl, fun o hp => absurd ⟨o, hp⟩ hone⟩

theorem forall_or_exists_first (p : Char → Bool) (t : List Char) :
    (∀ c ∈ t, ¬ p c) ∨ ∃ a c b, t = a ++ c :: b ∧ (∀ d ∈ a, ¬ p d) ∧ p c := by
  cases hf : t.find? p with
  | none => exact .inl (List.find?_eq_none.mp hf)
  | some c =>
    obtain ⟨hc, a, b, ht, ha⟩ := List.find?_eq_some_iff_append.mp hf
    exact .inr ⟨a, c, b, ht, by simpa using ha, hc⟩

theorem exists_run (t : List Char) :
    ∃ u v, t = u ++ v ∧ (∀ c ∈ u, ¬ Text.isBlank c) ∧ Ends v := by
  rcases forall_or_exists_first Text.isBlank t with h | ⟨a, c, b, ht, ha, hc⟩
  · exact ⟨t, [], by simp, h, AllBlank.nil.ends⟩
  · refine ⟨a, c :: b, ht, ha, fun d hd => ?_⟩
    cases hd
    exact hc

theorem exists_orphan_or_token {c : Char} {t : List Char} (hb : ¬ Text.isBlank c) (hv : c ≠ '|') :
    (∃ op u, c :: t = op.symbol.toList ++ u ∧ Longest (some op) u ∧ Ends u) ∨
      ∃ op u v, c :: t = symbolText op ++ u ++ v ∧ Token op u v := by
  obtain ⟨op, rest, ht, hop⟩ := exists_longest (c :: t)
  have hnone (h : op = none) : rest.head? = some c := by
    subst h
    exact congrArg List.head? ht.symm
  by_cases he : Ends rest
  · left
    cases op with
    | some op => exact ⟨op, rest, ht, hop, he⟩
    | none => exact absurd (he c (hnone rfl)) hb
  · right
    obtain ⟨u, v, rfl, hu, hends⟩ := exists_run rest
    have hn : u ≠ [] := by
      rintro rfl
      exact he hends
    refine ⟨op, u, v, by rw [ht, List.append_assoc], hop, hn, hu, ?_, hends⟩
    intro h
    obtain ⟨d, u, rfl⟩ := List.exists_cons_of_ne_nil hn
    have hd : d = c := Option.some.inj (hnone h)
    simpa [hd] using hv

namespace Reader

variable {n : Nat} {closed : Array (List Comparator)} {current : Array Comparator}

theorem run_cons_congr {p q : Place} {c : Char}
    (h : read ⟨n, closed, current, p⟩ c = read ⟨n, closed, current, q⟩ c) (t : List Char) :
    run ⟨n, closed, current, p⟩ (c :: t) = run ⟨n, closed, current, q⟩ (c :: t) := by
  rw [run, run, List.foldlM_cons, List.foldlM_cons, step, step, h]

theorem run_angle (side : Angle) {t : List Char} (ht : t.head? ≠ some '=') :
    run ⟨n, closed, current, .angle side⟩ t =
      run ⟨n, closed, current, .operand side.strict⟩ t := by
  cases t with
  | nil => rfl
  | cons c t =>
    have hc : c ≠ '=' := by simpa using ht
    have hr : read ⟨n, closed, current, .angle side⟩ c =
        read ⟨n, closed, current, .operand side.strict⟩ c := if_neg hc
    exact run_cons_congr hr t

theorem run_symbol {op : Operator} {t : List Char} (hop : Longest (some op) t) :
    run ⟨n, closed, current, .between⟩ (op.symbol.toList ++ t) =
      run ⟨n + byteSize op.symbol.toList, closed, current, .operand op⟩ t := by
  cases op with
  | equal => exact run_move (c := '=') rfl t
  | less =>
    have ht : t.head? ≠ some '=' := Longest.not_equals .left hop
    exact (run_move (c := '<') (q := .angle .left) rfl t).trans (run_angle .left ht)
  | greater =>
    have ht : t.head? ≠ some '=' := Longest.not_equals .right hop
    exact (run_move (c := '>') (q := .angle .right) rfl t).trans (run_angle .right ht)
  | lessEqual =>
    exact (run_move (c := '<') (q := .angle .left) rfl ('=' :: t)).trans (run_move (c := '=') rfl t)
  | greaterEqual =>
    exact (run_move (c := '>') (q := .angle .right) rfl ('=' :: t)).trans (run_move (c := '=') rfl t)

theorem run_token {op : Option Operator} {u t : List Char} (hu : Token op u t) :
    run ⟨n, closed, current, .between⟩ (symbolText op ++ u ++ t) =
      run ⟨n + byteSize (symbolText op), closed, current, .word (op.getD .equal) ""⟩ (u ++ t) := by
  obtain ⟨hop, hn, hb, hbar, -⟩ := hu
  cases u with
  | nil => contradiction
  | cons c u =>
    have hc := hb c (by simp)
    rw [List.append_assoc]
    cases op with
    | some op =>
      have hr : read ⟨n + byteSize op.symbol.toList, closed, current, .operand op⟩ c =
          read ⟨n + byteSize op.symbol.toList, closed, current, .word op ""⟩ c :=
        (if_neg hc).trans (if_neg hc).symm
      exact (run_symbol hop).trans (run_cons_congr hr (u ++ t))
    | none =>
      have he : c ≠ '=' := hop.ne_symbol .equal rfl
      have hl : c ≠ '<' := hop.ne_symbol .less rfl
      have hg : c ≠ '>' := hop.ne_symbol .greater rfl
      have hv : c ≠ '|' := by simpa using hbar rfl
      have hr : read ⟨n, closed, current, .between⟩ c =
          read ⟨n, closed, current, .word .equal ""⟩ c :=
        (read_between hc he hl hg hv).trans (if_neg hc).symm
      exact run_cons_congr hr (u ++ t)

theorem run_bar {t : List Char} (ht : t.head? ≠ some '|') :
    run ⟨n, closed, current, .bar⟩ t = .error (.invalidCharacter n) := by
  cases t with
  | nil => rfl
  | cons c t =>
    have hc : c ≠ '|' := by simpa using ht
    have hr : read ⟨n, closed, current, .bar⟩ c = .error (.invalidCharacter n) := if_neg hc
    exact run_error hr t

theorem run_operand_end {op : Operator} {t : List Char} (ht : Ends t) :
    run ⟨n, closed, current, .operand op⟩ t = .error (.orphanedOperator op) := by
  cases t with
  | nil => rfl
  | cons c t =>
    have hr : read ⟨n, closed, current, .operand op⟩ c = .error (.orphanedOperator op) :=
      if_pos (ht c rfl)
    exact run_error hr t

theorem run_word {op : Option Operator} {u t : List Char} (hu : Token op u t)
    (hc : ∀ c ∈ u, isVersionChar c) :
    run ⟨n, closed, current, .between⟩ (symbolText op ++ u ++ t) =
      closeWord ⟨n + byteSize (symbolText op ++ u), closed, current,
        .word (op.getD .equal) (String.ofList u)⟩ (op.getD .equal) (String.ofList u) >>=
        (run · t) := by
  rw [run_token hu, run_chars hc, run_word_end hu.ends, byteSize_append, ← Nat.add_assoc,
    String.empty_append]

theorem run_of_fault {before t : List Char} {empty : Bool} {e : Error}
    (h : Fault before empty t e) (he : current.isEmpty = empty) :
    run ⟨byteSize before, closed, current, .between⟩ t = .error e := by
  induction h generalizing closed current with
  | blank hc ht ih =>
    rw [byteSize_append] at ih
    exact (run_blanks (.singleton hc) _).trans (ih he)
  | loneBar ht =>
    rw [utf8ByteSize_ofList, byteSize_append]
    exact (run_move (c := '|') (q := .bar) rfl _).trans (run_bar ht)
  | emptySet =>
    have hr (m : Nat) : read ⟨m, closed, current, .bar⟩ '|' = .error .emptySet := if_pos he
    exact (run_move (c := '|') (q := .bar) rfl _).trans (run_error (hr _) _)
  | bars ht ih =>
    rw [run_bars he]
    rw [byteSize_append] at ih
    exact ih rfl
  | orphan hop ht => rw [run_symbol hop, run_operand_end ht]
  | @character before a b t empty op c hu ha hc =>
    have hb : ¬ Text.isBlank c := hu.not_blank c (by simp)
    have hr (m : Nat) (text : String) : read ⟨m, closed, current, .word (op.getD .equal) text⟩ c =
        .error (.invalidCharacter m) := (if_neg hb).trans (if_neg hc)
    rw [run_token hu, List.append_assoc, List.cons_append, run_chars ha, run_error (hr _ _),
      utf8ByteSize_ofList, byteSize_append, byteSize_append]
  | version hu hc hv =>
    rw [run_word hu hc, closeWord, hv]
    rfl
  | comparator hu hv ht ih =>
    rw [run_word hu hv.isVersionChar, closeWord, hv.parse]
    rw [List.append_assoc, byteSize_append] at ih
    exact ih (by simp)
  | unfilled =>
    have hn : ¬ (((closed.push current.toList).toList ≠ []) ∧
        [] ∉ (closed.push current.toList).toList) := by
      simp [Array.isEmpty_iff.mp he]
    exact dif_neg hn

def Decided (before : List Char) (closed : Array (List Comparator)) (current : Array Comparator)
    (t : List Char) : Prop :=
  (∃ r, run ⟨byteSize before, closed, current, .between⟩ t = .ok r) ∨
    ∃ e, Fault before current.isEmpty t e

theorem nil_not_mem_push (hc : [] ∉ closed) (hn : current.isEmpty = false) :
    [] ∉ closed.push current.toList := by
  have hl : current ≠ #[] := by simpa using hn
  simpa using ⟨hc, hl⟩

theorem Decided.nil {before : List Char} (hc : [] ∉ closed) : Decided before closed current [] := by
  cases hn : current.isEmpty with
  | true =>
    right
    rw [hn]
    exact ⟨.emptySet, .unfilled⟩
  | false =>
    have hs : (closed.push current.toList).toList ≠ [] ∧
        [] ∉ (closed.push current.toList).toList :=
      ⟨by simp, fun h => nil_not_mem_push hc hn (Array.mem_toList_iff.mp h)⟩
    exact .inl ⟨_, dif_pos hs⟩

theorem Decided.blank {before t : List Char} {c : Char} (hb : Text.isBlank c)
    (h : Decided (before ++ [c]) closed current t) : Decided before closed current (c :: t) := by
  rcases h with ⟨r, hr⟩ | ⟨e, he⟩
  · rw [byteSize_append] at hr
    exact .inl ⟨r, (run_blanks (.singleton hb) t).trans hr⟩
  · exact .inr ⟨e, .blank hb he⟩

theorem Decided.bars {before t : List Char} (hn : current.isEmpty = false)
    (h : Decided (before ++ ['|', '|']) (closed.push current.toList) #[] t) :
    Decided before closed current ('|' :: '|' :: t) := by
  rcases h with ⟨r, hr⟩ | ⟨e, he⟩
  · rw [byteSize_append] at hr
    exact .inl ⟨r, (run_bars hn t).trans hr⟩
  · right
    rw [hn]
    exact ⟨e, .bars he⟩

theorem Decided.token {before u t : List Char} {op : Option Operator} (hu : Token op u t)
    (h : ∀ x, Decided (before ++ symbolText op ++ u) closed (current.push x) t) :
    Decided before closed current (symbolText op ++ u ++ t) := by
  rcases forall_or_exists_first (!isVersionChar ·) u with hc | ⟨a, c, b, rfl, ha, hc⟩
  · have hc : ∀ c ∈ u, isVersionChar c := by simpa using hc
    cases hp : Version.parse .lenient (String.ofList u) with
    | error cause => exact .inr ⟨_, .version hu hc hp⟩
    | ok v =>
      rcases h ⟨op.getD .equal, v⟩ with ⟨r, hr⟩ | ⟨e, he⟩
      · left
        rw [List.append_assoc, byteSize_append] at hr
        rw [run_word hu hc, closeWord, hp]
        exact ⟨r, hr⟩
      · have hn : (current.push ⟨op.getD .equal, v⟩).isEmpty = false := by simp
        rw [hn] at he
        exact .inr ⟨e, .comparator hu ⟨hu.ne_nil, hc, hp⟩ he⟩
  · have ha : ∀ d ∈ a, isVersionChar d := by simpa using ha
    have hc : ¬ isVersionChar c := by simpa using hc
    exact .inr ⟨_, .character hu ha hc⟩

theorem decided (before : List Char) (hc : [] ∉ closed) (t : List Char) :
    Decided before closed current t := by
  -- On the length, since a comparator takes up many characters at once.
  induction h : t.length using Nat.strongRecOn generalizing t before closed current with
  | ind k ih =>
    subst h
    match t with
    | [] => exact .nil hc
    | c :: t =>
      by_cases hb : Text.isBlank c
      · exact .blank hb (ih t.length (by simp) _ hc t rfl)
      by_cases hv : c = '|'
      · subst hv
        by_cases ht : t.head? = some '|'
        · obtain ⟨u, rfl⟩ := List.head?_eq_some_iff.mp ht
          cases hn : current.isEmpty with
          | true =>
            right
            rw [hn]
            exact ⟨_, .emptySet⟩
          | false =>
            have hl : u.length < ('|' :: '|' :: u).length := by
              rw [List.length_cons, List.length_cons]
              omega
            exact .bars hn (ih u.length hl _ (nil_not_mem_push hc hn) u rfl)
        · exact .inr ⟨_, .loneBar ht⟩
      · rcases exists_orphan_or_token hb hv with ⟨op, u, ht, hop, hu⟩ | ⟨op, u, v, ht, hu⟩
        · rw [ht]
          exact .inr ⟨_, .orphan hop hu⟩
        · have hl := List.length_pos_iff.mpr hu.ne_nil
          rw [ht]
          refine .token hu fun x => ih v.length ?_ _ hc v rfl
          rw [ht, List.length_append, List.length_append]
          omega

end Reader

theorem run_eq_error_iff_fault (t : List Char) (e : Error) :
    Reader.start.run t = .error e ↔ Fault [] true t e := by
  have hfault {e : Error} (h : Fault [] true t e) : Reader.start.run t = .error e :=
    Reader.run_of_fault h rfl
  have hdecided : Reader.Decided [] #[] #[] t := Reader.decided [] (by simp) t
  constructor
  · intro h
    rcases hdecided with ⟨r, hr⟩ | ⟨f, hf⟩
    · cases h.symm.trans hr
    · cases h.symm.trans (hfault hf)
      exact hf
  · exact hfault

theorem parse_leftmost_fault (s : String) :
    (parse s = .error .blank ↔ AllBlank s.toList) ∧
      (∀ e, parse s = .error e ↔
        AllBlank s.toList ∧ e = .blank ∨ ¬ AllBlank s.toList ∧ Fault [] true s.toList e) ∧
      ((∃ r, parse s = .ok r) ↔ ¬ AllBlank s.toList ∧ ∀ e, ¬ Fault [] true s.toList e) := by
  have herror (e : Error) : parse s = .error e ↔
      AllBlank s.toList ∧ e = .blank ∨ ¬ AllBlank s.toList ∧ Fault [] true s.toList e := by
    by_cases hb : AllBlank s.toList
    · have hp : parse s = .error .blank := if_pos (List.all_eq_true.mpr hb)
      simp [hb, hp, eq_comm]
    · have hp : parse s = Reader.start.run s.toList :=
        if_neg fun h => hb (List.all_eq_true.mp h)
      simp [hb, hp, run_eq_error_iff_fault]
  refine ⟨?_, herror, ?_⟩
  · rw [herror]
    constructor
    · rintro (⟨hb, -⟩ | ⟨-, hf⟩)
      · exact hb
      · exact absurd rfl hf.ne_blank
    · intro hb
      exact .inl ⟨hb, rfl⟩
  · have hok : (∃ r, parse s = .ok r) ↔ ∀ e, ¬ parse s = .error e := by
      cases parse s <;> simp
    rw [hok]
    by_cases hb : AllBlank s.toList <;> simp [herror, hb]

example : parse "1.0.0\u3000|" = .error (.invalidCharacter 9) := by rfl

end Versioning.Range
