import Versioning.Proofs.Range.Composition
import Versioning.Proofs.WellFormed
import Versioning.Range.Machine

/-!
What a state of the machine can do. Whatever is queued stands, with the operator and the text held,
for one place of the reader, and little else is ever queued. A state that does not consume leaves
the reader where it is, or takes up what the reader reads at the current character, or stops with
the answer of the reader.
-/

namespace Versioning.Range

open Version (isVersionChar)

namespace Cursor

def Sized (cur : Cursor) : Prop :=
  cur.offset + byteSize cur.rest = cur.source.utf8ByteSize

structure Settled (cur : Cursor) : Prop where
  sized : cur.Sized
  position : ∀ c ∈ cur.input, cur.offset = cur.position + c.utf8Size
  rest : cur.input = none → cur.rest = []

def ahead (cur : Cursor) : List Char :=
  cur.input.toList ++ cur.rest

theorem sized_start (s : String) : (start s).Sized := by
  rw [Sized, start, Nat.zero_add, ← utf8ByteSize_ofList, String.ofList_toList]

theorem settled_advance {cur : Cursor} (h : cur.Sized) : cur.advance.Settled := by
  unfold Sized at h
  unfold advance
  split
  next hr => exact ⟨h, by simp, fun _ => hr⟩
  next c rest hr =>
    rw [hr, byteSize_cons] at h
    refine ⟨?_, by simp, by simp⟩
    change cur.offset + c.utf8Size + byteSize rest = cur.source.utf8ByteSize
    omega

theorem ahead_advance (cur : Cursor) : cur.advance.ahead = cur.rest := by
  unfold advance ahead
  split
  next hr => simp [hr]
  next hr => simp [hr]

theorem head_append_rest (cur : Cursor) :
    cur.rest.head?.toList ++ cur.advance.rest = cur.rest := by
  unfold advance
  split
  next hr => simp [hr]
  next hr => simp [hr]

theorem position_advance {cur : Cursor} (h : cur.Sized) : cur.advance.position = cur.offset := by
  unfold Sized at h
  unfold advance
  split
  next hr =>
    rw [hr] at h
    exact h.symm
  · rfl

theorem exists_input {cur : Cursor} (h : ¬ cur.ended) :
    ∃ c, cur.input = some c ∧ ¬ Text.isBlank c := by
  unfold ended at h
  cases hi : cur.input with
  | none => simp [hi] at h
  | some c => exact ⟨c, rfl, by simpa [hi] using h⟩

theorem Settled.ends {cur : Cursor} (h : cur.Settled) (he : cur.ended) : Ends cur.ahead := by
  unfold ended at he
  cases hi : cur.input with
  | none => simp [Ends, ahead, hi, h.rest hi]
  | some c => simpa [Ends, ahead, hi] using he

theorem Settled.head?_ne {cur : Cursor} (h : cur.Settled) {d : Char} (hd : cur.input ≠ some d) :
    cur.ahead.head? ≠ some d := by
  cases hi : cur.input with
  | none => simp [ahead, hi, h.rest hi]
  | some c => simpa [ahead, hi] using hd

end Cursor

namespace Machine

/-- What may be queued, with the operator and the text held and the current character, and the place
of the reader that it stands for. -/
inductive Phase : State → List State → Option Operator → String → Option Char → Place → Prop
  | identify {next : Option Char} : Phase .identify [] none "" next .between
  | collapseBlanks {next : Option Char} : Phase .collapseBlanks [.identify] none "" next .between
  | equals : Phase .unarySimple [] none "" (some '=') .between
  | operand {next : Option Char} : Phase .unarySimple [] (some .equal) "" next (.operand .equal)
  | chevron (side : Angle) {c : Char} (hc : String.singleton c = side.strict.symbol) :
      Phase .unaryComplex [] none "" (some c) .between
  | angle (side : Angle) {next : Option Char} :
      Phase .unaryComplex [] none side.strict.symbol next (.angle side)
  | pair (side : Angle) {c : Char} (hb : ¬ Text.isBlank c) :
      Phase .unaryComplex [] none (side.strict.symbol.push c) (some c) (.angle side)
  | marked (op : Operator) {next : Option Char} :
      Phase .versionString [] (some op) "" next (.operand op)
  | bare {c : Char} (hb : ¬ Text.isBlank c) :
      Phase .versionString [] none "" (some c) (.word .equal "")
  | word {op : Option Operator} {text : String} {next : Option Char} (hn : text ≠ "") :
      Phase .versionString [] op text next (.word (op.getD .equal) text)
  | bar {next : Option Char} : Phase .logicalOr [] none "" next .bar
  | lastSet : Phase .collectSet [.terminate] none "" none .between
  | nextSet : Phase .collectSet [.consume, .identify] none "" (some '|') .bar

def rank (state : State) (op : Option Operator) (text : String) (next : Option Char) : Nat :=
  match state with
  | .start => 2
  | .consume => 1
  | .identify => 3
  | .collapseBlanks => if next.any Text.isBlank then 2 else 4
  | .unarySimple => if op.isNone then 2 else 3
  | .unaryComplex => if text.length = 0 then 2 else if text.length = 1 then 4 else 3
  | .logicalOr => 3
  | .versionString => if next.all Text.isBlank then 4 else 2
  | .collectSet => 2
  | .terminate => 0

def reads (cur : Cursor) (sets : Array (List Comparator)) (current : Array Comparator)
    (place : Place) : Except Error Range :=
  Reader.run ⟨cur.position, sets, current, place⟩ cur.ahead

inductive Turn (cur : Cursor) (sets : Array (List Comparator)) (current : Array Comparator)
    (place : Place) (bound : Nat) : Machine → Prop
  | look {last state : State} {stack : List State} {current' : Array Comparator}
      {op : Option Operator} {text : String} {next : Option Char} {place' : Place}
      (hp : Phase state stack op text next place') (hi : cur.input = next)
      (hrank : rank state op text next < bound)
      (hr : reads cur sets current place = reads cur sets current' place') :
      Turn cur sets current place bound
        ⟨cur, last, state :: stack, sets, current', op, text, none⟩
  | take {c : Char} {last state : State} {stack : List State} {sets' : Array (List Comparator)}
      {current' : Array Comparator} {op : Option Operator} {text : String} {place' : Place}
      (hi : cur.input = some c) (hp : ∀ next, Phase state stack op text next place')
      (hsets : [] ∉ sets') (hr : Reader.read ⟨cur.position, sets, current, place⟩ c =
        .ok ⟨cur.position, sets', current', place'⟩) :
      Turn cur sets current place bound
        ⟨cur, last, .consume :: state :: stack, sets', current', op, text, none⟩
  | stop {m : Machine} {stack : List State} (hstack : m.stack = .terminate :: stack)
      (hlen : stack.length ≤ 2) (hsets : [] ∉ m.sets)
      (ha : m.Answers (reads cur sets current place)) : Turn cur sets current place bound m

variable {cur : Cursor} {sets : Array (List Comparator)} {current : Array Comparator}

theorem reads_congr {p q : Place} {c : Char} (hi : cur.input = some c)
    (hr : Reader.read ⟨cur.position, sets, current, p⟩ c =
      Reader.read ⟨cur.position, sets, current, q⟩ c) :
    reads cur sets current p = reads cur sets current q := by
  rw [reads, reads, Cursor.ahead, hi]
  exact Reader.run_cons_congr hr cur.rest

theorem reads_of_read_error {p : Place} {c : Char} {e : Error} (hi : cur.input = some c)
    (hr : Reader.read ⟨cur.position, sets, current, p⟩ c = .error e) :
    reads cur sets current p = .error e := by
  rw [reads, Cursor.ahead, hi]
  exact Reader.run_error hr cur.rest

variable {place : Place} {bound : Nat}

theorem turn_fail {m : Machine} {e : Error} (hsets : [] ∉ m.sets) (hlen : m.stack.length ≤ 2)
    (hr : reads cur sets current place = .error e) :
    Turn cur sets current place bound (m.fail e) := by
  refine .stop rfl hlen hsets ?_
  rw [hr]
  rfl

theorem hold_of_input {m : Machine} {c : Char} (hi : m.cursor.input = some c) :
    m.hold = { m with builder := m.builder.push c } := by
  rw [hold, hi]
  rfl

theorem length_symbol (side : Angle) : side.strict.symbol.length = 1 := by
  cases side <;> rfl

theorem length_symbol_push (side : Angle) (c : Char) : (side.strict.symbol.push c).length = 2 := by
  rw [String.length_push, length_symbol]

theorem rank_symbol (side : Angle) {next : Option Char} :
    rank .unaryComplex none side.strict.symbol next = 4 := by
  simp [rank, length_symbol]

theorem rank_pair (side : Angle) (c : Char) {next : Option Char} :
    rank .unaryComplex none (side.strict.symbol.push c) next = 3 := by
  rw [rank, length_symbol_push]
  rfl

theorem ofSymbol?_push (side : Angle) (c : Char) :
    Operator.ofSymbol? (side.strict.symbol.push c) =
      if c = '=' then some side.orEqual else none := by
  split
  next hc =>
    subst hc
    cases side <;> rfl
  next hc =>
    apply Option.eq_none_iff_forall_ne_some.mpr
    intro op ho
    have hl := congrArg String.toList (Operator.ofSymbol?_eq_some_iff.mp ho)
    rw [String.toList_push] at hl
    cases side <;> cases op <;> simp [Angle.strict, Operator.symbol, hc] at hl

theorem withoutLast_push (s : String) (c : Char) : withoutLast (s.push c) = s := by
  rw [withoutLast, String.toList_push, List.dropLast_concat, String.ofList_toList]

theorem unaryComplex_symbol {m : Machine} {side : Angle} (hb : m.builder = side.strict.symbol) :
    m.unaryComplex = if m.cursor.ended then m.fail (.orphanedOperator side.strict)
      else m.hold.queue [.unaryComplex] := by
  unfold unaryComplex
  rw [hb, length_symbol, Operator.ofSymbol?_symbol]
  rfl

theorem unaryComplex_pair {m : Machine} {side : Angle} {c : Char}
    (hb : m.builder = side.strict.symbol.push c) :
    m.unaryComplex =
      if c = '=' then
        { m with operator := some side.orEqual, builder := "" }.queue [.consume, .versionString]
      else { m with operator := some side.strict, builder := "" }.queue [.versionString] := by
  unfold unaryComplex
  rw [hb, length_symbol_push, ofSymbol?_push, withoutLast_push, Operator.ofSymbol?_symbol]
  by_cases hc : c = '='
  · rw [if_pos hc, if_pos hc]
    rfl
  · rw [if_neg hc, if_neg hc]
    rfl

variable (hcur : cur.Settled) (hsets : [] ∉ sets)

section

include hsets

theorem turn_identify : Turn cur sets current .between 3
    (identify ⟨cur, .identify, [], sets, current, none, "", none⟩) := by
  unfold identify
  dsimp only
  split
  next hi => exact .look .lastSet hi (by simp [rank]) rfl
  next c hi =>
    split
    next hb => exact .look .collapseBlanks hi (by simp [rank, hb]) rfl
    next hb =>
      split
      next he =>
        subst he
        exact .look .equals hi (by simp [rank]) rfl
      next he =>
        split
        next hc =>
          rcases hc with rfl | rfl
          · exact .look (.chevron .left rfl) hi (by simp [rank]) rfl
          · exact .look (.chevron .right rfl) hi (by simp [rank]) rfl
        next hc =>
          obtain ⟨hl, hg⟩ := not_or.mp hc
          split
          next hv =>
            subst hv
            exact .take hi (fun _ => .bar) hsets rfl
          next hv =>
            refine .look (.bare hb) hi (by simp [rank, hb]) (reads_congr hi ?_)
            rw [Reader.read_between hb he hl hg hv]
            exact (if_neg hb).symm

theorem turn_collapseBlanks {next : Option Char} (hi : cur.input = next) :
    Turn cur sets current .between (rank .collapseBlanks none "" next)
      (collapseBlanks ⟨cur, .collapseBlanks, [.identify], sets, current, none, "", none⟩) := by
  unfold collapseBlanks
  split
  next hb =>
    obtain ⟨c, hi, hc⟩ := (Option.any_eq_true _ _).mp hb
    exact .take hi (fun _ => .collapseBlanks) hsets (if_pos hc)
  next hb => exact .look .identify rfl (by simp [rank, ← hi, hb]) rfl

theorem turn_equals (hi : cur.input = some '=') : Turn cur sets current .between 2
    (unarySimple ⟨cur, .unarySimple, [], sets, current, none, "", none⟩) := by
  unfold unarySimple
  dsimp only
  rw [hi]
  exact .take hi (fun _ => .operand) hsets rfl

theorem turn_chevron {side : Angle} {c : Char} (hc : String.singleton c = side.strict.symbol)
    (hi : cur.input = some c) : Turn cur sets current .between 2
    (unaryComplex ⟨cur, .unaryComplex, [], sets, current, none, "", none⟩) := by
  have hr : Reader.read ⟨cur.position, sets, current, .between⟩ c =
      .ok ⟨cur.position, sets, current, .angle side⟩ := by
    have hc : c = '<' ∧ side = .left ∨ c = '>' ∧ side = .right := by
      have hl := congrArg String.toList hc
      cases side <;> simpa [Angle.strict, Operator.symbol] using hl
    rcases hc with ⟨rfl, rfl⟩ | ⟨rfl, rfl⟩ <;> rfl
  have hp (next : Option Char) :
      Phase .unaryComplex [] none (String.singleton c) next (.angle side) := hc ▸ .angle side
  unfold unaryComplex hold
  dsimp only
  rw [hi]
  exact .take hi hp hsets hr

theorem turn_pair {side : Angle} {c : Char} (hi : cur.input = some c) (hb : ¬ Text.isBlank c) :
    Turn cur sets current (.angle side) 3 (unaryComplex
      ⟨cur, .unaryComplex, [], sets, current, none, side.strict.symbol.push c, none⟩) := by
  rw [unaryComplex_pair rfl]
  split
  next hc => exact .take hi (fun _ => .marked side.orEqual) hsets (if_pos hc)
  next hc =>
    -- What follows the angle is read as if the operator had been read on its own.
    exact .look (.marked side.strict) hi (by simp [rank, hb]) (reads_congr hi (if_neg hc))

theorem turn_nextSet (hi : cur.input = some '|') : Turn cur sets current .bar 2
    (collectSet ⟨cur, .collectSet, [.consume, .identify], sets, current, none, "", none⟩) := by
  unfold collectSet
  split
  next hn => exact turn_fail hsets (by simp) (reads_of_read_error hi (if_pos hn))
  next hn =>
    have hpush : [] ∉ sets.push current.toList := Reader.nil_not_mem_push hsets (by simpa using hn)
    exact .take hi (fun _ => .identify) hpush (if_neg hn)

theorem turn_character {op : Option Operator} {text : String} {c : Char} (hi : cur.input = some c)
    (hb : ¬ Text.isBlank c)
    (hr : Reader.read ⟨cur.position, sets, current, place⟩ c =
      Reader.extend ⟨cur.position, sets, current, place⟩ (op.getD .equal) text c) :
    Turn cur sets current place bound
      (versionString ⟨cur, .versionString, [], sets, current, op, text, none⟩) := by
  have he : ¬ cur.ended := by simpa [Cursor.ended, hi] using hb
  unfold versionString Reader.extend at *
  dsimp only at *
  rw [if_neg he, hi, Option.any_some]
  split
  next hc =>
    rw [if_pos hc] at hr
    have hn : text.push c ≠ "" := by
      intro h
      simpa using congrArg String.toList h
    rw [hold_of_input hi]
    exact .take hi (fun _ => .word hn) hsets hr
  next hc =>
    rw [if_neg hc] at hr
    exact turn_fail hsets (by simp) (reads_of_read_error hi hr)

end

section

include hcur hsets

theorem turn_operand : Turn cur sets current (.operand .equal) 3
    (unarySimple ⟨cur, .unarySimple, [], sets, current, some .equal, "", none⟩) := by
  unfold unarySimple
  dsimp only
  split
  next he => exact turn_fail hsets (by simp) (Reader.run_operand_end (hcur.ends he))
  next he =>
    obtain ⟨c, hi, hb⟩ := Cursor.exists_input he
    exact .look (.marked .equal) hi (by simp [rank, hb]) rfl

theorem turn_angle (side : Angle) : Turn cur sets current (.angle side) 4
    (unaryComplex ⟨cur, .unaryComplex, [], sets, current, none, side.strict.symbol, none⟩) := by
  rw [unaryComplex_symbol rfl]
  split
  next he =>
    have hends := hcur.ends he
    have hequals : cur.ahead.head? ≠ some '=' := by
      intro hh
      exact absurd (hends '=' hh) (by decide)
    apply turn_fail hsets (by simp)
    rw [reads, Reader.run_angle side hequals, Reader.run_operand_end hends]
  next he =>
    obtain ⟨c, hi, hb⟩ := Cursor.exists_input he
    rw [hold_of_input hi]
    exact .look (.pair side hb) hi (by simp [rank, length_symbol]) rfl

theorem turn_bar : Turn cur sets current .bar 3
    (logicalOr ⟨cur, .logicalOr, [], sets, current, none, "", none⟩) := by
  unfold logicalOr
  split
  next hi => exact .look .nextSet hi (by simp [rank]) rfl
  next hi => exact turn_fail hsets (by simp) (Reader.run_bar (hcur.head?_ne hi))

theorem turn_lastSet (hi : cur.input = none) : Turn cur sets current .between 2
    (collectSet ⟨cur, .collectSet, [.terminate], sets, current, none, "", none⟩) := by
  have hrange : reads cur sets current .between = ofSets (sets.push current.toList).toList := by
    rw [reads, Cursor.ahead, hi, hcur.rest hi]
    rfl
  unfold collectSet
  split
  next hn =>
    have hc : current = #[] := Array.isEmpty_iff.mp hn
    apply turn_fail hsets (by simp)
    rw [hrange, ofSets_eq_error_iff]
    simp [hc]
  next hn =>
    have hpush : [] ∉ sets.push current.toList := Reader.nil_not_mem_push hsets (by simpa using hn)
    have hr : reads cur sets current .between =
        .ok ⟨(sets.push current.toList).toList, by simp, by simpa using hpush⟩ := by
      rw [hrange, ofSets_eq_ok_iff]
    refine .stop rfl (by simp) hpush ?_
    rw [hr]
    exact ⟨rfl, rfl⟩

theorem turn_marked {op : Operator} : Turn cur sets current (.operand op) bound
    (versionString ⟨cur, .versionString, [], sets, current, some op, "", none⟩) := by
  by_cases he : cur.ended
  · unfold versionString
    rw [if_pos he]
    exact turn_fail hsets (by simp) (Reader.run_operand_end (hcur.ends he))
  · obtain ⟨c, hi, hb⟩ := Cursor.exists_input he
    exact turn_character hsets hi hb (if_neg hb)

theorem turn_word {op : Option Operator} {text : String} {next : Option Char} (hn : text ≠ "")
    (hi : cur.input = next) :
    Turn cur sets current (.word (op.getD .equal) text) (rank .versionString op text next)
      (versionString ⟨cur, .versionString, [], sets, current, op, text, none⟩) := by
  by_cases he : cur.ended
  · have hr : reads cur sets current (.word (op.getD .equal) text) =
        Reader.closeWord ⟨cur.position, sets, current, _⟩ (op.getD .equal) text >>=
          (Reader.run · cur.ahead) := Reader.run_word_end (hcur.ends he)
    -- The character that ends a version is left over, so the next item is identified from it.
    have hrank : rank .versionString op text next = 4 := if_pos (hi ▸ he)
    rw [hrank]
    unfold versionString
    dsimp only
    rw [if_pos he, if_neg (by simpa using hn)]
    unfold Reader.closeWord at hr
    split
    next version hv =>
      rw [hv] at hr
      exact .look .identify rfl (by simp [rank]) hr
    next cause hv =>
      rw [hv] at hr
      exact turn_fail hsets (by simp) hr
  · obtain ⟨c, hi, hb⟩ := Cursor.exists_input he
    exact turn_character hsets hi hb (if_neg hb)

theorem turn_of_phase {state : State} {stack : List State} {op : Option Operator} {text : String}
    {next : Option Char} (hp : Phase state stack op text next place) (hi : cur.input = next) :
    Turn cur sets current place (rank state op text next)
      (perform ⟨cur, state, stack, sets, current, op, text, none⟩) := by
  cases hp with
  | identify => exact turn_identify hsets
  | collapseBlanks => exact turn_collapseBlanks hsets hi
  | equals => exact turn_equals hsets hi
  | operand => exact turn_operand hcur hsets
  | chevron side hc => exact turn_chevron hsets hc hi
  | angle side =>
    rw [rank_symbol]
    exact turn_angle hcur hsets side
  | pair side hb =>
    rw [rank_pair]
    exact turn_pair hsets hi hb
  | marked op => exact turn_marked hcur hsets
  | bare hb => exact turn_character hsets hi hb (if_neg hb)
  | word hn => exact turn_word hcur hsets hn hi
  | bar => exact turn_bar hcur hsets
  | lastSet => exact turn_lastSet hcur hsets hi
  | nextSet => exact turn_nextSet hsets hi

end

end Machine

end Versioning.Range
