import Versioning.Proofs.Range.Soundness

namespace Versioning.Range

open Version (isVersionChar)

def Ends (t : List Char) : Prop :=
  ∀ c ∈ t.head?, Text.isBlank c

def byteSize : List Char → Nat
  | [] => 0
  | c :: t => c.utf8Size + byteSize t

theorem byteSize_append (t u : List Char) : byteSize (t ++ u) = byteSize t + byteSize u := by
  induction t with
  | nil => simp [byteSize]
  | cons c t ih => simp [byteSize, ih, Nat.add_assoc]

theorem byteSize_cons (c : Char) (t : List Char) : byteSize (c :: t) = c.utf8Size + byteSize t :=
  rfl

theorem ends_append {w : List Char} (hw : Gap w) (t : List Char) : Ends (w ++ t) := by
  obtain ⟨hn, hb⟩ := hw
  cases w with
  | nil => contradiction
  | cons c w =>
    intro d hd
    cases hd
    exact hb c (by simp)

theorem AllBlank.ends {t : List Char} (h : AllBlank t) : Ends t := by
  intro c hc
  exact h c (List.mem_of_mem_head? hc)

namespace Reader

variable {n : Nat} {closed : Array (List Comparator)} {current : Array Comparator}

def run (r : Reader) (t : List Char) : Except Error Range :=
  t.foldlM step r >>= finish

theorem run_read {r next : Reader} {c : Char} (h : r.read c = .ok next) (t : List Char) :
    run r (c :: t) = run { next with offset := r.offset + c.utf8Size } t := by
  have hs : r.step c = .ok { next with offset := r.offset + c.utf8Size } := by
    rw [step, h]
    rfl
  rw [run, List.foldlM_cons, hs]
  rfl

theorem run_error {r : Reader} {c : Char} {e : Error} (h : r.read c = .error e) (t : List Char) :
    run r (c :: t) = .error e := by
  rw [run, List.foldlM_cons, step, h]
  rfl

theorem run_move {p q : Place} {c : Char}
    (h : read ⟨n, closed, current, p⟩ c = .ok ⟨n, closed, current, q⟩) (t : List Char) :
    run ⟨n, closed, current, p⟩ (c :: t) = run ⟨n + c.utf8Size, closed, current, q⟩ t :=
  run_read h t

theorem run_blanks {w : List Char} (hw : AllBlank w) (t : List Char) :
    run ⟨n, closed, current, .between⟩ (w ++ t) =
      run ⟨n + byteSize w, closed, current, .between⟩ t := by
  induction w generalizing n with
  | nil => rfl
  | cons c w ih =>
    have hc : read ⟨n, closed, current, .between⟩ c = .ok ⟨n, closed, current, .between⟩ :=
      if_pos (hw c (by simp))
    rw [List.cons_append, run_read hc, ih fun d hd => hw d (by simp [hd]), byteSize_cons,
      Nat.add_assoc]

theorem run_chars {op : Operator} {text : String} {u : List Char}
    (hu : ∀ c ∈ u, isVersionChar c) (t : List Char) :
    run ⟨n, closed, current, .word op text⟩ (u ++ t) =
      run ⟨n + byteSize u, closed, current, .word op (text ++ String.ofList u)⟩ t := by
  induction u generalizing n text with
  | nil =>
    have ht : text ++ String.ofList [] = text := by simp
    rw [ht]
    rfl
  | cons c u ih =>
    have hc := hu c (by simp)
    have hr : read ⟨n, closed, current, .word op text⟩ c =
        .ok ⟨n, closed, current, .word op (text.push c)⟩ := by
      unfold read extend
      dsimp only
      rw [if_neg (by simp [Version.not_isBlank_of_isVersionChar hc]), if_pos hc]
      rfl
    have ht : text.push c ++ String.ofList u = text ++ String.ofList (c :: u) := by
      apply String.toList_injective
      simp
    rw [List.cons_append, run_read hr, ih fun d hd => hu d (by simp [hd]), ht, byteSize_cons,
      Nat.add_assoc]

theorem run_word_end {op : Operator} {text : String} {t : List Char} (ht : Ends t) :
    run ⟨n, closed, current, .word op text⟩ t =
      closeWord ⟨n, closed, current, .word op text⟩ op text >>= (run · t) := by
  cases hc : closeWord ⟨n, closed, current, .word op text⟩ op text with
  | error e =>
    cases t with
    | nil =>
      change closeWord _ op text >>= range = _
      rw [hc]
      rfl
    | cons c t =>
      have hr : read ⟨n, closed, current, .word op text⟩ c = .error e :=
        (if_pos (ht c (by simp))).trans hc
      exact run_error hr t
  | ok next =>
    obtain ⟨v, -, rfl⟩ := closeWord_eq_ok hc
    cases t with
    | nil =>
      change closeWord _ op text >>= range = _
      rw [hc]
      rfl
    | cons c t =>
      have hb : Text.isBlank c := ht c (by simp)
      have hr : read ⟨n, closed, current, .word op text⟩ c =
          .ok ⟨n, closed, current.push ⟨op, v⟩, .between⟩ := (if_pos hb).trans hc
      have hs : AllBlank [c] := .singleton hb
      rw [run_read hr]
      exact (run_blanks hs t).symm

def Expects (place : Place) (op : Operator) : Prop :=
  ∀ n closed current c, isVersionChar c →
    read ⟨n, closed, current, place⟩ c = .ok ⟨n, closed, current, .word op (String.singleton c)⟩

theorem begin_of_isVersionChar {r : Reader} {op : Operator} {c : Char} (hc : isVersionChar c) :
    r.begin op c = .ok { r with place := .word op (String.singleton c) } := by
  unfold begin extend
  rw [if_neg (by simp [Version.not_isBlank_of_isVersionChar hc]), if_pos hc]
  rfl

theorem read_between {c : Char} (hb : ¬ Text.isBlank c) (he : c ≠ '=') (hl : c ≠ '<')
    (hg : c ≠ '>') (hv : c ≠ '|') : read ⟨n, closed, current, .between⟩ c =
      extend ⟨n, closed, current, .between⟩ .equal "" c := by
  unfold read
  dsimp only
  rw [if_neg hb, if_neg he, if_neg hl, if_neg hg, if_neg hv]

theorem expects_between : Expects .between .equal := by
  intro n closed current c hc
  have hb : ¬ Text.isBlank c := by simp [Version.not_isBlank_of_isVersionChar hc]
  rw [read_between hb (ne_of_class hc (by decide)) (ne_of_class hc (by decide))
    (ne_of_class hc (by decide)) (ne_of_class hc (by decide)), extend, if_pos hc]
  rfl

theorem expects_angle (side : Angle) : Expects (.angle side) side.strict := by
  intro n closed current c hc
  unfold read
  dsimp only
  rw [if_neg (ne_of_class hc (by decide)), begin_of_isVersionChar hc]

theorem expects_operand (op : Operator) : Expects (.operand op) op :=
  fun _ _ _ _ hc => begin_of_isVersionChar hc

theorem run_version {place : Place} {op : Operator} (hp : Expects place op) {v : Version}
    {u t : List Char} (hu : VersionText v u) (ht : Ends t) :
    run ⟨n, closed, current, place⟩ (u ++ t) =
      run ⟨n + byteSize u, closed, current.push ⟨op, v⟩, .between⟩ t := by
  obtain ⟨hn, hc, hv⟩ := hu
  cases u with
  | nil => contradiction
  | cons c u =>
    have hr := hp n closed current c (hc c (by simp))
    have hw : String.singleton c ++ String.ofList u = String.ofList (c :: u) := by
      apply String.toList_injective
      simp
    have hs : ∀ d ∈ u, isVersionChar d := fun d hd => hc d (by simp [hd])
    rw [List.cons_append, run_read hr, run_chars hs, run_word_end ht, hw, closeWord, hv,
      byteSize_cons, ← Nat.add_assoc]
    rfl

theorem run_operator (op : Operator) : ∃ place, Expects place op ∧
    ∀ n closed current t, run ⟨n, closed, current, .between⟩ (op.symbol.toList ++ t) =
      run ⟨n + byteSize op.symbol.toList, closed, current, place⟩ t := by
  cases op with
  | equal =>
    refine ⟨.operand .equal, expects_operand _, fun n closed current t => ?_⟩
    exact run_move (c := '=') rfl t
  | less =>
    refine ⟨.angle .left, expects_angle .left, fun n closed current t => ?_⟩
    exact run_move (c := '<') rfl t
  | greater =>
    refine ⟨.angle .right, expects_angle .right, fun n closed current t => ?_⟩
    exact run_move (c := '>') rfl t
  | lessEqual =>
    refine ⟨.operand .lessEqual, expects_operand _, fun n closed current t => ?_⟩
    exact (run_move (c := '<') (q := .angle .left) rfl ('=' :: t)).trans (run_move (c := '=') rfl t)
  | greaterEqual =>
    refine ⟨.operand .greaterEqual, expects_operand _, fun n closed current t => ?_⟩
    exact (run_move (c := '>') (q := .angle .right) rfl ('=' :: t)).trans (run_move (c := '=') rfl t)

theorem run_comparator {x : Comparator} {u t : List Char} (hx : ComparatorText x u)
    (ht : Ends t) : run ⟨n, closed, current, .between⟩ (u ++ t) =
      run ⟨n + byteSize u, closed, current.push x, .between⟩ t := by
  cases hx with
  | bare hv => exact run_version expects_between hv ht
  | marked op hv =>
    obtain ⟨place, hp, hop⟩ := run_operator op
    rw [List.append_assoc, hop, run_version hp hv ht, byteSize_append, Nat.add_assoc]

theorem run_set {s : List Comparator} {u t : List Char} (hs : SetText s u) (ht : Ends t) :
    run ⟨n, closed, current, .between⟩ (u ++ t) =
      run ⟨n + byteSize u, closed, current ++ s, .between⟩ t := by
  induction hs generalizing n current with
  | one hx =>
    rw [run_comparator hx ht]
    simp
  | @cons x s u w v hx hw hv ih =>
    have he : Ends (w ++ (v ++ t)) := ends_append hw _
    rw [List.append_assoc, List.append_assoc, run_comparator hx he, run_blanks hw.2, ih]
    simp [byteSize_append, Nat.add_assoc]

theorem run_bars (hn : current.isEmpty = false) (t : List Char) :
    run ⟨n, closed, current, .between⟩ ('|' :: '|' :: t) =
      run ⟨n + 2, closed.push current.toList, #[], .between⟩ t := by
  have hr : read ⟨n + 1, closed, current, .bar⟩ '|' =
      .ok ⟨n + 1, closed.push current.toList, #[], .between⟩ := by
    change closeSet _ = _
    unfold closeSet
    rw [if_neg (by simp [hn])]
  exact (run_move (c := '|') (q := .bar) rfl ('|' :: t)).trans (run_read hr t)

theorem run_sets {sets : List (List Comparator)} {u t : List Char}
    (hs : Separated SetText Bars sets u) (ht : AllBlank t) :
    run ⟨n, closed, #[], .between⟩ (u ++ t) = ofSets (closed.toList ++ sets) := by
  induction hs generalizing n closed with
  | @one s u hs =>
    rw [run_set hs ht.ends, ← List.append_nil t, run_blanks ht]
    change range _ = _
    simp [range]
  | @cons s sets u w v hs hw hv ih =>
    obtain ⟨x, y, rfl, hx, hy⟩ := hw
    have he : Ends (x ++ ('|' :: '|' :: (y ++ (v ++ t)))) := ends_append hx _
    have hne : ((#[] : Array Comparator) ++ s).isEmpty = false := by simpa using hs.ne_nil
    simp only [List.append_assoc, List.cons_append]
    rw [run_set hs he, run_blanks hx.2, run_bars hne, run_blanks hy, ih]
    simp

theorem consumed_run {r : Reader} {t u : List Char} {R : Range} (h : run r u = .ok R)
    (ht : r.Consumed t) : RangeText R.sets (t ++ u) := by
  obtain ⟨last, hl, hf⟩ := bind_eq_ok h
  exact consumed_finish hf (consumed_foldlM hl ht)

end Reader

theorem rangeText_of_parse {s : String} {r : Range} (h : parse s = .ok r) :
    RangeText r.sets s.toList := by
  unfold parse at h
  split at h
  · contradiction
  · exact Reader.consumed_run h Reader.consumed_start

theorem ofSets_eq_ok {sets : List (List Comparator)} {t : List Char} (h : RangeText sets t) :
    ∃ r : Range, ofSets sets = .ok r ∧ r.sets = sets :=
  ⟨⟨sets, h.sets_ne_nil.1, h.sets_ne_nil.2⟩, dif_pos h.sets_ne_nil, rfl⟩

theorem run_rangeText {sets : List (List Comparator)} {t : List Char} (h : RangeText sets t) :
    Reader.start.run t = ofSets sets := by
  obtain ⟨lead, body, trail, rfl, hl, hb, ht⟩ := h
  rw [List.append_assoc]
  exact (Reader.run_blanks hl (body ++ trail)).trans (Reader.run_sets hb ht)

theorem parse_of_rangeText {s : String} {sets : List (List Comparator)}
    (h : RangeText sets s.toList) : parse s = ofSets sets := by
  have hn : ¬ s.toList.all Text.isBlank := by
    intro hb
    obtain ⟨r, hr, -⟩ := ofSets_eq_ok h
    have hblank : AllBlank s.toList := List.all_eq_true.mp hb
    have he : Reader.start.run (s.toList ++ []) = .error .emptySet :=
      Reader.run_blanks hblank []
    rw [List.append_nil, run_rangeText h, hr] at he
    contradiction
  unfold parse
  rw [if_neg hn]
  exact run_rangeText h

theorem parse_eq_ok_iff_rangeText (s : String) :
    (∀ r, parse s = .ok r ↔ RangeText r.sets s.toList) ∧
      ∀ a b, RangeText a s.toList → RangeText b s.toList → a = b := by
  constructor
  · intro r
    constructor
    · exact rangeText_of_parse
    · intro h
      rw [parse_of_rangeText h, ofSets_sets]
  · intro a b ha hb
    obtain ⟨r, hr, rfl⟩ := ofSets_eq_ok ha
    obtain ⟨q, hq, rfl⟩ := ofSets_eq_ok hb
    have he : Except.ok r = (Except.ok q : Except Error Range) := by
      rw [← hr, ← hq, ← parse_of_rangeText ha, parse_of_rangeText hb]
    rw [Except.ok.inj he]

end Versioning.Range
