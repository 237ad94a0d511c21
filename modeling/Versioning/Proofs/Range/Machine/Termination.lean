import Versioning.Proofs.Range.Machine.Agreement

/-!
The loop of the machine ends. Every round either consumes, which can happen once for each character
and once more to find the end, or has a smaller rank than the round before. On the way the stack is
never found empty, and is never deep.
-/

namespace Versioning.Range.Machine

variable {cur : Cursor} {sets : Array (List Comparator)} {current : Array Comparator}
  {place : Place} {answer : Except Error Range} {m : Machine} {state : State}
  {stack : List State} {op : Option Operator} {text : String} {next : Option Char}

theorem rank_le : rank state op text next ≤ 4 := by
  unfold rank
  repeat' split
  all_goals decide

theorem two_le_rank (hc : state ≠ .consume) (ht : state ≠ .terminate) :
    2 ≤ rank state op text next := by
  unfold rank
  repeat' split
  all_goals first | decide | contradiction

def calls (m : Machine) : Nat :=
  match m.state with
  | .start | .consume => m.cursor.rest.length + 1
  | .terminate => 0
  | _ => m.cursor.ahead.length

def budget (m : Machine) : Nat :=
  4 * m.calls + rank m.state m.operator m.builder m.cursor.input

theorem budget_terminate (hs : m.state = .terminate) : m.budget = 0 := by
  rw [budget, calls, hs]
  rfl

theorem budget_consume (hs : m.state = .consume) :
    m.budget = 4 * m.cursor.rest.length + 5 := by
  rw [budget, calls, hs]
  rfl

theorem budget_phase (hp : Phase state stack op text next place) (hi : cur.input = next) :
    budget ⟨cur, state, stack, sets, current, op, text, none⟩ =
      4 * cur.ahead.length + rank state op text next := by
  obtain ⟨hstart, hconsume, hterminate⟩ := hp.state_ne
  subst hi
  cases state <;> first | contradiction | rfl

theorem budget_pop {bound : Nat} (hb : 2 ≤ bound) (ht : Turn cur sets current place bound m) :
    m.pop.budget < 4 * cur.ahead.length + bound := by
  cases ht with
  | look hp hi hrank hr =>
    calc
      _ = 4 * cur.ahead.length + rank _ _ _ _ := budget_phase hp hi
      _ < 4 * cur.ahead.length + bound := Nat.add_lt_add_left hrank _
  | take hi hp hsets hr =>
    have hl : cur.ahead.length = cur.rest.length + 1 := by simp [Cursor.ahead, hi]
    calc
      _ = 4 * cur.rest.length + 5 := budget_consume rfl
      _ < 4 * cur.ahead.length + bound := by omega
  | stop hstack hlen hsets ha =>
    have hs : m.pop.state = .terminate := by
      rw [pop, hstack]
      rfl
    rw [budget_terminate hs]
    omega

theorem budget_step (h : Sound answer m) (hs : m.state ≠ .terminate) :
    m.step.budget < m.budget := by
  cases h with
  | starting => exact Nat.lt_succ_self _
  | @consuming cur state _ _ _ op text _ hp =>
    have hr : rank state op text cur.advance.input ≤ 4 := rank_le
    calc
      _ = 4 * cur.advance.ahead.length + rank state op text cur.advance.input :=
        budget_phase (hp _) rfl
      _ = 4 * cur.rest.length + rank state op text cur.advance.input := by rw [cur.ahead_advance]
      _ < 4 * cur.rest.length + 5 := by omega
  | looking hp hi hcur hsets ha =>
    rw [step_of_ne hs, budget_phase hp hi]
    exact budget_pop (two_le_rank hp.state_ne.2.1 hs) (turn_of_phase hcur hsets hp hi)
  | stopped ht => exact absurd ht hs

theorem budget_step_le (h : Sound answer m) : m.step.budget ≤ m.budget := by
  by_cases hs : m.state = .terminate
  · rw [step, if_pos hs]
  · exact Nat.le_of_lt (budget_step h hs)

theorem budget_after (s : String) (n : Nat) :
    (after s n).state = .terminate ∨ (after s n).budget + n ≤ 4 * s.length + 6 := by
  induction n with
  | zero =>
    right
    change 4 * (s.toList.length + 1) + 2 ≤ 4 * s.length + 6
    rw [String.length_toList]
    omega
  | succ n ih =>
    by_cases hs : (after s n).state = .terminate
    · left
      rw [after, step, if_pos hs]
      exact hs
    · have hb : (after s (n + 1)).budget < (after s n).budget := budget_step (sound_after s n) hs
      have hn := ih.resolve_left hs
      right
      omega

theorem terminate_after (s : String) : (after s (4 * s.length + 6)).state = .terminate := by
  by_cases hs : (after s (4 * s.length + 6)).state = .terminate
  · exact hs
  · have hb := (budget_after s _).resolve_left hs
    have hstep := budget_step (sound_after s _) hs
    omega

theorem budget_after_le {s : String} {i j : Nat} (hij : i ≤ j) :
    (after s j).budget ≤ (after s i).budget := by
  induction hij with
  | refl => exact Nat.le_refl _
  | step _ ih => exact Nat.le_trans (budget_step_le (sound_after s _)) ih

theorem not_consume_of_exhausted {s : String} {i j : Nat} (hij : i < j)
    (hs : (after s i).state = .consume) (hr : (after s i).cursor.rest = []) :
    (after s j).state ≠ .consume := by
  intro hj
  have hi : (after s (i + 1)).budget < (after s i).budget :=
    budget_step (sound_after s i) (by rw [hs]; decide)
  have hle : (after s j).budget ≤ (after s (i + 1)).budget := budget_after_le hij
  -- At the end a call of consuming is worth more than all that the budget has left.
  rw [budget_consume hs, hr] at hi
  rw [budget_consume hj] at hle
  rw [List.length_nil] at hi
  omega

theorem Phase.length_stack (hp : Phase state stack op text next place) : stack.length ≤ 2 := by
  cases hp <;> decide

theorem Phase.length_stack_of_none (hp : Phase state stack op text none place) :
    stack.length ≤ 1 := by
  cases hp <;> decide

theorem stack_turn {bound : Nat} (ht : Turn cur sets current place bound m) :
    m.stack ≠ [] ∧ m.stack.length ≤ 3 := by
  cases ht with
  | look hp =>
    exact ⟨List.cons_ne_nil _ _, Nat.succ_le_succ hp.length_stack⟩
  | take hi hp =>
    exact ⟨List.cons_ne_nil _ _, Nat.succ_le_succ (Nat.succ_le_succ (hp none).length_stack_of_none)⟩
  | stop hstack hlen =>
    rw [hstack]
    exact ⟨List.cons_ne_nil _ _, Nat.succ_le_succ hlen⟩

theorem stack_perform (h : Sound answer m) (hs : m.state ≠ .terminate) :
    m.perform.stack ≠ [] ∧ m.perform.stack.length ≤ 3 := by
  cases h with
  | starting => exact ⟨List.cons_ne_nil _ _, Nat.le_succ 2⟩
  | consuming hp =>
    exact ⟨List.cons_ne_nil _ _, Nat.succ_le_succ (hp none).length_stack⟩
  | looking hp hi hcur hsets ha => exact stack_turn (turn_of_phase hcur hsets hp hi)
  | stopped ht => exact absurd ht hs

theorem stack_after (s : String) (n : Nat) : (after s n).stack.length ≤ 3 := by
  induction n with
  | zero => exact Nat.zero_le 3
  | succ n ih =>
    by_cases hs : (after s n).state = .terminate
    · rw [after, step, if_pos hs]
      exact ih
    · have hl := (stack_perform (sound_after s n) hs).2
      rw [after, step_of_ne hs]
      change (after s n).perform.stack.tail.length ≤ 3
      rw [List.length_tail]
      omega

theorem cursor_perform (hs : m.state ≠ .consume) : m.perform.cursor = m.cursor := by
  unfold perform identify collapseBlanks unarySimple unaryComplex logicalOr versionString collectSet
  repeat' split
  all_goals first | rfl | contradiction

theorem cursor_step (m : Machine) :
    m.step.cursor = if m.state = .consume then m.cursor.advance else m.cursor := by
  unfold step
  split
  next ht => rw [ht, if_neg (by decide)]
  next ht =>
    split
    next hs =>
      rw [perform, hs]
      rfl
    next hs => exact cursor_perform hs

def taking (m : Machine) : List Char :=
  if m.state = .consume then m.cursor.rest.head?.toList else []

theorem taking_append_rest (m : Machine) : m.taking ++ m.step.cursor.rest = m.cursor.rest := by
  rw [taking, cursor_step]
  split
  · exact m.cursor.head_append_rest
  · rfl

def taken (s : String) : Nat → List Char
  | 0 => []
  | n + 1 => taken s n ++ (after s n).taking

theorem taken_append_rest (s : String) (n : Nat) :
    taken s n ++ (after s n).cursor.rest = s.toList := by
  induction n with
  | zero => rfl
  | succ n ih => rw [taken, after, List.append_assoc, taking_append_rest, ih]

theorem returns_parse (s : String) : Returns s (parse s) := by
  by_cases hb : s.toList.all Text.isBlank
  · rw [parse, if_pos hb]
    exact .blank hb
  · have hs := terminate_after s
    rw [parse, if_neg hb]
    exact .stopped hb hs ((sound_after s _).answers hs)

theorem returns_iff {s : String} : Returns s answer ↔ answer = parse s :=
  ⟨eq_parse_of_returns, fun h => h ▸ returns_parse s⟩

/-- The loop ends, within a number of rounds that the length of the text bounds, and returns what is
parsed. The stack holds three states at most, and one at least when a state is taken off it. Once
consuming has found the end it does not run again, and what it took before that is the text up to
what is still to come. -/
theorem loop_bounded (s : String) :
    (after s (4 * s.length + 6)).state = .terminate ∧
    (∀ answer, Returns s answer ↔ answer = parse s) ∧
    (∀ n, (after s n).stack.length ≤ 3 ∧ ((after s n).state ≠ .terminate →
      (after s n).perform.stack ≠ [] ∧ (after s n).perform.stack.length ≤ 3)) ∧
    (∀ i j, i < j → (after s i).state = .consume → (after s i).cursor.rest = [] →
      (after s j).state ≠ .consume) ∧
    ∀ n, taken s n ++ (after s n).cursor.rest = s.toList :=
  ⟨terminate_after s, fun _ => returns_iff,
    fun n => ⟨stack_after s n, stack_perform (sound_after s n)⟩,
    fun _ _ => not_consume_of_exhausted, taken_append_rest s⟩

example : (after "|" 3).state = .consume ∧ (after "|" 3).cursor.rest = [] ∧
    (after "|" 5).state = .terminate := by
  decide +kernel

end Versioning.Range.Machine
