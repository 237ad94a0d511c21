import Versioning.Proofs.Range.Machine.Agreement

namespace Versioning.Range.Machine

variable {m : Machine} {answer : Except Error Range} {stack : List State} {op : Option Operator}
  {text : String} {next : Option Char} {place : Place}

/-- An operator is looked up in vain, or a version ends that has neither a text nor an operator. -/
inductive DeadEnd (m : Machine) : Prop
  | simple (hs : m.state = .unarySimple) (hop : m.operator = none)
      (hlookup : (m.cursor.input.bind fun c => Operator.ofSymbol? (String.singleton c)) = none)
  | single (hs : m.state = .unaryComplex) (hlen : m.builder.length = 1) (he : m.cursor.ended)
      (hlookup : Operator.ofSymbol? m.builder = none)
  | pair (hs : m.state = .unaryComplex) (hlen : 2 ≤ m.builder.length)
      (hpair : Operator.ofSymbol? m.builder = none)
      (hlookup : Operator.ofSymbol? (withoutLast m.builder) = none)
  | nothing (hs : m.state = .versionString) (he : m.cursor.ended) (hb : m.builder = "")
      (hop : m.operator = none)

structure Tidy (m : Machine) : Prop where
  identify : m.state = .identify → m.builder = "" ∧ m.operator = none
  unaryComplex : m.state = .unaryComplex → m.operator = none ∧ (m.builder = "" ∨
    (m.builder.toList.head? = some '<' ∨ m.builder.toList.head? = some '>') ∧
      m.builder.length ≤ 2)
  sets : [] ∉ m.sets
  error : m.state ≠ .terminate → m.error = none
  deadEnd : ¬ m.DeadEnd

theorem Phase.identify_eq (hp : Phase .identify stack op text next place) :
    text = "" ∧ op = none := by
  cases hp
  exact ⟨rfl, rfl⟩

theorem Phase.unaryComplex_eq (hp : Phase .unaryComplex stack op text next place) :
    op = none ∧ (text = "" ∨ ∃ side : Angle,
      text = side.strict.symbol ∨ ∃ c, text = side.strict.symbol.push c) := by
  cases hp with
  | chevron side hc => exact ⟨rfl, .inl rfl⟩
  | angle side => exact ⟨rfl, .inr ⟨side, .inl rfl⟩⟩
  | pair side hb => exact ⟨rfl, .inr ⟨side, .inr ⟨_, rfl⟩⟩⟩

theorem Phase.unarySimple_eq (hp : Phase .unarySimple stack none text next place) :
    next = some '=' := by
  cases hp
  rfl

theorem Phase.versionString_eq (hp : Phase .versionString stack none "" next place) :
    ∃ c, next = some c ∧ ¬ Text.isBlank c := by
  cases hp with
  | bare hb => exact ⟨_, rfl, hb⟩
  | word hn => exact absurd rfl hn

theorem Sound.phase (h : Sound answer m) (hstart : m.state ≠ .start) (hconsume : m.state ≠ .consume)
    (hterminate : m.state ≠ .terminate) :
    ∃ place, Phase m.state m.stack m.operator m.builder m.cursor.input place := by
  cases h with
  | starting => exact absurd rfl hstart
  | consuming => exact absurd rfl hconsume
  | @looking _ _ _ _ _ _ _ _ place hp hi =>
    subst hi
    exact ⟨place, hp⟩
  | stopped hs => exact absurd hs hterminate

theorem Sound.phase_of_eq {state : State} (h : Sound answer m) (hs : m.state = state)
    (hne : state ≠ .start ∧ state ≠ .consume ∧ state ≠ .terminate) :
    ∃ place, Phase state m.stack m.operator m.builder m.cursor.input place := by
  subst hs
  exact h.phase hne.1 hne.2.1 hne.2.2

theorem Sound.nil_not_mem (h : Sound answer m) : [] ∉ m.sets := by
  cases h with
  | starting => exact Array.not_mem_empty []
  | consuming hp hcur hsets => exact hsets
  | looking hp hi hcur hsets => exact hsets
  | stopped hs hsets => exact hsets

theorem Sound.error_eq (h : Sound answer m) (hs : m.state ≠ .terminate) : m.error = none := by
  cases h with
  | stopped ht => exact absurd ht hs
  | _ => rfl

theorem head?_symbol (side : Angle) (t : List Char) :
    (side.strict.symbol.toList ++ t).head? = some '<' ∨
      (side.strict.symbol.toList ++ t).head? = some '>' := by
  cases side with
  | left => exact .inl rfl
  | right => exact .inr rfl

theorem Sound.held (h : Sound answer m) (hs : m.state = .unaryComplex) :
    m.operator = none ∧ (m.builder = "" ∨
      (m.builder.toList.head? = some '<' ∨ m.builder.toList.head? = some '>') ∧
        m.builder.length ≤ 2) := by
  obtain ⟨_, hp⟩ := h.phase_of_eq hs (by decide)
  obtain ⟨hop, hb | ⟨side, hb | ⟨c, hb⟩⟩⟩ := hp.unaryComplex_eq
  · exact ⟨hop, .inl hb⟩
  · refine ⟨hop, .inr ⟨?_, ?_⟩⟩
    · simpa [hb] using head?_symbol side []
    · rw [hb, length_symbol]
      decide
  · refine ⟨hop, .inr ⟨?_, ?_⟩⟩
    · rw [hb, String.toList_push]
      exact head?_symbol side [c]
    · rw [hb, length_symbol_push]

theorem Sound.not_deadEnd (h : Sound answer m) : ¬ m.DeadEnd := by
  intro hd
  cases hd with
  | simple hs hop hlookup =>
    obtain ⟨_, hp⟩ := h.phase_of_eq hs (by decide)
    rw [hop] at hp
    rw [hp.unarySimple_eq] at hlookup
    exact nomatch hlookup
  | single hs hlen he hlookup =>
    obtain ⟨_, hp⟩ := h.phase_of_eq hs (by decide)
    obtain ⟨_, hb | ⟨side, hb | ⟨c, hb⟩⟩⟩ := hp.unaryComplex_eq
    · rw [hb] at hlen
      exact nomatch hlen
    · rw [hb, Operator.ofSymbol?_symbol] at hlookup
      exact nomatch hlookup
    · rw [hb, length_symbol_push] at hlen
      exact nomatch hlen
  | pair hs hlen hpair hlookup =>
    obtain ⟨_, hp⟩ := h.phase_of_eq hs (by decide)
    obtain ⟨_, hb | ⟨side, hb | ⟨c, hb⟩⟩⟩ := hp.unaryComplex_eq
    · rw [hb] at hlen
      exact absurd hlen (by decide)
    · rw [hb, length_symbol] at hlen
      exact absurd hlen (by decide)
    · rw [hb, withoutLast_push, Operator.ofSymbol?_symbol] at hlookup
      exact nomatch hlookup
  | nothing hs he hb hop =>
    obtain ⟨_, hp⟩ := h.phase_of_eq hs (by decide)
    rw [hop, hb] at hp
    obtain ⟨c, hi, hc⟩ := hp.versionString_eq
    rw [Cursor.ended, hi] at he
    exact hc he

section

variable {position : Nat} (hne : m.error ≠ some (.invalidCharacter position))

include hne

theorem deadEnd_of_unarySimple (hs : m.state = .unarySimple)
    (h : m.unarySimple.error = some (.invalidCharacter position)) : m.DeadEnd := by
  unfold unarySimple at h
  split at h
  next hop =>
    split at h
    · exact absurd h hne
    next hlookup => exact .simple hs hop hlookup
  next =>
    split at h
    · exact nomatch h
    · exact absurd h hne

theorem deadEnd_of_unaryComplex (hs : m.state = .unaryComplex)
    (h : m.unaryComplex.error = some (.invalidCharacter position)) : m.DeadEnd := by
  unfold unaryComplex at h
  split at h
  · exact absurd h hne
  next hlen =>
    split at h
    next he =>
      split at h
      · exact nomatch h
      next hlookup => exact .single hs hlen he hlookup
    · exact absurd h hne
  next hzero hone =>
    split at h
    · exact absurd h hne
    next hpair =>
      split at h
      · exact absurd h hne
      next hlookup =>
        have hlen : 2 ≤ m.builder.length := (Nat.two_le_iff _).mpr ⟨hzero, hone⟩
        exact .pair hs hlen hpair hlookup

theorem deadEnd_of_versionString (hs : m.state = .versionString)
    (h : m.versionString.error = some (.invalidCharacter position)) :
    m.DeadEnd ∨ ¬ m.cursor.ended ∧ ¬ m.cursor.input.any Version.isVersionChar := by
  unfold versionString at h
  split at h
  next he =>
    split at h
    next hb =>
      split at h
      · exact nomatch h
      next hop => exact .inl (.nothing hs he (by simpa using hb) hop)
    next =>
      dsimp only at h
      split at h
      · exact absurd h hne
      · exact nomatch h
  next he =>
    split at h
    · exact absurd h hne
    next hc => exact .inr ⟨he, hc⟩

theorem deadEnd_of_perform (h : m.perform.error = some (.invalidCharacter position)) :
    m.DeadEnd ∨ (m.state = .logicalOr ∧ m.cursor.input ≠ some '|') ∨
      (m.state = .versionString ∧ ¬ m.cursor.ended ∧
        ¬ m.cursor.input.any Version.isVersionChar) := by
  cases hs : m.state <;> rw [perform, hs] at h <;> dsimp only at h
  case start => exact absurd h hne
  case consume => exact absurd h hne
  case terminate => exact absurd h hne
  case identify =>
    unfold identify at h
    repeat' split at h
    all_goals exact absurd h hne
  case collapseBlanks =>
    unfold collapseBlanks at h
    split at h
    all_goals exact absurd h hne
  case collectSet =>
    unfold collectSet at h
    split at h
    · exact nomatch h
    · exact absurd h hne
  case logicalOr =>
    unfold logicalOr at h
    split at h
    · exact absurd h hne
    next hi => exact .inr (.inl ⟨rfl, hi⟩)
  case unarySimple => exact .inl (deadEnd_of_unarySimple hne hs h)
  case unaryComplex => exact .inl (deadEnd_of_unaryComplex hne hs h)
  case versionString =>
    exact (deadEnd_of_versionString hne hs h).imp_right fun hc => .inr ⟨rfl, hc⟩

end

theorem bar_or_foreign_of_after {s : String} {n position : Nat}
    (hs : (after s n).state ≠ .terminate)
    (h : (after s n).perform.error = some (.invalidCharacter position)) :
    ((after s n).state = .logicalOr ∧ (after s n).cursor.input ≠ some '|') ∨
      ((after s n).state = .versionString ∧ ¬ (after s n).cursor.ended ∧
        ¬ (after s n).cursor.input.any Version.isVersionChar) := by
  have hm := sound_after s n
  have hne : (after s n).error ≠ some (.invalidCharacter position) := by simp [hm.error_eq hs]
  exact (deadEnd_of_perform hne h).resolve_left hm.not_deadEnd

theorem tidy_after (s : String) (n : Nat) : (after s n).Tidy where
  identify hs := by
    obtain ⟨_, hp⟩ := (sound_after s n).phase_of_eq hs (by decide)
    exact hp.identify_eq
  unaryComplex := (sound_after s n).held
  sets := (sound_after s n).nil_not_mem
  error := (sound_after s n).error_eq
  deadEnd := (sound_after s n).not_deadEnd

example : (after "<=1.0" 6).state = .unaryComplex ∧ (after "<=1.0" 6).builder = "<=" := by
  decide +kernel

end Versioning.Range.Machine
