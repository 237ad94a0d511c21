import Versioning.Proofs.Range.Machine.Turns

namespace Versioning.Range.Machine

variable {cur : Cursor} {sets : Array (List Comparator)} {current : Array Comparator}
  {place : Place} {answer : Except Error Range}

def awaits (cur : Cursor) (sets : Array (List Comparator)) (current : Array Comparator)
    (place : Place) : Except Error Range :=
  Reader.run ⟨cur.offset, sets, current, place⟩ cur.rest

theorem awaits_of_read {sets' : Array (List Comparator)} {current' : Array Comparator}
    {place' : Place} {c : Char} (hcur : cur.Settled) (hi : cur.input = some c)
    (hr : Reader.read ⟨cur.position, sets, current, place⟩ c =
      .ok ⟨cur.position, sets', current', place'⟩) :
    awaits cur sets' current' place' = reads cur sets current place := by
  rw [reads, awaits, Cursor.ahead, hi, hcur.position c hi]
  exact (Reader.run_read hr cur.rest).symm

theorem reads_advance (hcur : cur.Sized) :
    reads cur.advance sets current place = awaits cur sets current place := by
  rw [reads, awaits, cur.ahead_advance, Cursor.position_advance hcur]

/-- Where the machine can be while the reader gives this answer for what is left of the text. -/
inductive Sound (answer : Except Error Range) : Machine → Prop
  | starting {cur : Cursor} (hcur : cur.Sized) (ha : awaits cur #[] #[] .between = answer) :
      Sound answer ⟨cur, .start, [], #[], #[], none, "", none⟩
  | consuming {cur : Cursor} {state : State} {stack : List State} {sets : Array (List Comparator)}
      {current : Array Comparator} {op : Option Operator} {text : String} {place : Place}
      (hp : ∀ next, Phase state stack op text next place) (hcur : cur.Sized) (hsets : [] ∉ sets)
      (ha : awaits cur sets current place = answer) :
      Sound answer ⟨cur, .consume, state :: stack, sets, current, op, text, none⟩
  | looking {cur : Cursor} {state : State} {stack : List State} {sets : Array (List Comparator)}
      {current : Array Comparator} {op : Option Operator} {text : String} {next : Option Char}
      {place : Place} (hp : Phase state stack op text next place) (hi : cur.input = next)
      (hcur : cur.Settled) (hsets : [] ∉ sets) (ha : reads cur sets current place = answer) :
      Sound answer ⟨cur, state, stack, sets, current, op, text, none⟩
  | stopped {m : Machine} (hs : m.state = .terminate) (hsets : [] ∉ m.sets)
      (ha : m.Answers answer) : Sound answer m

theorem sound_pop {m : Machine} {bound : Nat} (hcur : cur.Settled) (hsets : [] ∉ sets)
    (ht : Turn cur sets current place bound m) : Sound (reads cur sets current place) m.pop := by
  cases ht with
  | look hp hi hrank hr => exact .looking hp hi hcur hsets hr.symm
  | take hi hp hsets hr => exact .consuming hp hcur.sized hsets (awaits_of_read hcur hi hr)
  | stop hstack hlen hsets ha =>
    refine .stopped ?_ hsets ha
    rw [pop, hstack]
    rfl

theorem step_of_ne {m : Machine} (hs : m.state ≠ .terminate) : m.step = m.perform.pop :=
  if_neg hs

theorem Phase.state_ne {state : State} {stack : List State} {op : Option Operator} {text : String}
    {next : Option Char} (hp : Phase state stack op text next place) :
    state ≠ .start ∧ state ≠ .consume ∧ state ≠ .terminate := by
  cases hp <;> decide

theorem sound_step {m : Machine} (h : Sound answer m) : Sound answer m.step := by
  cases h with
  | starting hcur ha => exact .consuming (fun _ => .identify) hcur (Array.not_mem_empty []) ha
  | consuming hp hcur hsets ha =>
    exact .looking (hp _) rfl (Cursor.settled_advance hcur) hsets ((reads_advance hcur).trans ha)
  | looking hp hi hcur hsets ha =>
    rw [step_of_ne hp.state_ne.2.2, ← ha]
    exact sound_pop hcur hsets (turn_of_phase hcur hsets hp hi)
  | stopped hs hsets ha =>
    rw [step, if_pos hs]
    exact .stopped hs hsets ha

theorem sound_after (s : String) (n : Nat) :
    Sound (Reader.start.run s.toList) (after s n) := by
  induction n with
  | zero => exact .starting (Cursor.sized_start s) rfl
  | succ n ih => exact sound_step ih

theorem Sound.answers {m : Machine} (h : Sound answer m) (hs : m.state = .terminate) :
    m.Answers answer := by
  cases h with
  | starting => cases hs
  | consuming => cases hs
  | looking hp => exact absurd hs hp.state_ne.2.2
  | stopped hs hsets ha => exact ha

theorem Answers.unique {m : Machine} {a b : Except Error Range} (ha : m.Answers a)
    (hb : m.Answers b) : a = b := by
  cases a with
  | error e =>
    cases b with
    | error f => exact congrArg Except.error (Option.some.inj (ha.symm.trans hb))
    | ok r => exact nomatch ha.symm.trans hb.1
  | ok r =>
    cases b with
    | error f => exact nomatch ha.1.symm.trans hb
    | ok q =>
      have hsets : r.sets = q.sets := ha.2.symm.trans hb.2
      cases r
      cases q
      cases hsets
      rfl

theorem eq_parse_of_returns {s : String} {answer : Except Error Range} (h : Returns s answer) :
    answer = parse s := by
  cases h with
  | blank hb => exact (if_pos hb).symm
  | stopped hb hs ha =>
    rw [parse, if_neg hb]
    exact ha.unique ((sound_after s _).answers hs)

end Versioning.Range.Machine
