import Versioning.Proofs.Range.Composition
import Versioning.Proofs.Version.FirstFault

namespace Versioning.Range

open Version (isVersionChar)

namespace Reader

def endItem (r : Reader) : Except Error Reader :=
  match r.place with
  | .between => .ok r
  | .bar => r.invalid
  | .angle side => .error (.orphanedOperator side.strict)
  | .operand operator => .error (.orphanedOperator operator)
  | .word operator text => r.closeWord operator text

theorem read_blank {r : Reader} {c : Char} (hc : Text.isBlank c) : r.read c = r.endItem := by
  have hbar : c ≠ '|' := by rintro rfl; contradiction
  have hequals : c ≠ '=' := by rintro rfl; contradiction
  unfold read endItem begin
  cases r.place with
  | between => exact if_pos hc
  | bar => exact if_neg hbar
  | angle side => exact (if_neg hequals).trans (if_pos hc)
  | operand op => exact if_pos hc
  | word op text => exact if_pos hc

inductive Reads (place : Place) (c : Char) : Prop
  | move (next : Place) (h : ∀ r : Reader, r.place = place → r.read c = r.moveTo next)
  | extend (op : Operator) (text : String)
      (h : ∀ r : Reader, r.place = place → r.read c = r.extend op text c)
  | close (h : ∀ r : Reader, r.place = place → r.read c = r.closeSet)
  | refuse (hp : place = .bar) (hc : c ≠ '|')
      (h : ∀ r : Reader, r.place = place → r.read c = r.invalid)

theorem reads (place : Place) {c : Char} (hb : ¬ Text.isBlank c) : Reads place c := by
  cases place with
  | between =>
    have hread (r : Reader) (hr : r.place = .between) : r.read c =
        if c = '=' then r.moveTo (.operand .equal)
        else if c = '<' then r.moveTo (.angle .left)
        else if c = '>' then r.moveTo (.angle .right)
        else if c = '|' then r.moveTo .bar
        else r.extend .equal "" c := by
      rw [read, hr]
      exact if_neg hb
    split at hread
    · exact .move _ hread
    split at hread
    · exact .move _ hread
    split at hread
    · exact .move _ hread
    split at hread
    · exact .move _ hread
    · exact .extend _ _ hread
  | bar =>
    have hread (r : Reader) (hr : r.place = .bar) : r.read c =
        if c = '|' then r.closeSet else r.invalid := by
      rw [read, hr]
    split at hread
    next => exact .close hread
    next hc => exact .refuse rfl hc hread
  | angle side =>
    have hread (r : Reader) (hr : r.place = .angle side) : r.read c =
        if c = '=' then r.moveTo (.operand side.orEqual) else r.extend side.strict "" c := by
      simp only [read, hr, begin, if_neg hb]
    split at hread
    · exact .move _ hread
    · exact .extend _ _ hread
  | operand op =>
    refine .extend op "" fun r hr => ?_
    rw [read, hr]
    exact if_neg hb
  | word op text =>
    refine .extend op text fun r hr => ?_
    rw [read, hr]
    exact if_neg hb

theorem finish_eq (r : Reader) : r.finish = r.endItem >>= range := by
  unfold finish endItem
  cases r.place <;> rfl

/-- What a reader may find wrong with what comes next, a character or the end of the text. -/
inductive Refuses (r : Reader) : Option Char → Error → Prop
  | foreign {c : Char} (hb : ¬ Text.isBlank c) (hc : ¬ isVersionChar c) :
      Refuses r (some c) (.invalidCharacter r.offset)
  | loneBar {next : Option Char} (hp : r.place = .bar) (hn : next ≠ some '|') :
      Refuses r next (.invalidCharacter r.offset)
  | emptySet {next : Option Char} : Refuses r next .emptySet
  | orphan {next : Option Char} {op : Operator} (hn : ∀ c ∈ next, Text.isBlank c) :
      Refuses r next (.orphanedOperator op)
  | version {next : Option Char} {op : Operator} {text : String} {cause : Version.Error}
      (hp : r.place = .word op text) (hn : ∀ c ∈ next, Text.isBlank c)
      (hv : Version.parse .lenient text = .error cause) :
      Refuses r next (.invalidVersion text cause)

theorem Refuses.invalidCharacter {r : Reader} {next : Option Char} {n : Nat}
    (h : r.Refuses next (.invalidCharacter n)) : n = r.offset ∧
      ((∃ c, next = some c ∧ ¬ Text.isBlank c ∧ ¬ isVersionChar c) ∨
        r.place = .bar ∧ next ≠ some '|') := by
  cases h with
  | foreign hb hc => exact ⟨rfl, .inl ⟨_, rfl, hb, hc⟩⟩
  | loneBar hp hn => exact ⟨rfl, .inr ⟨hp, hn⟩⟩

theorem Refuses.invalidVersion {r : Reader} {next : Option Char} {text : String}
    {cause : Version.Error} (h : r.Refuses next (.invalidVersion text cause)) :
    (∃ op, r.place = .word op text) ∧ (∀ c ∈ next, Text.isBlank c) ∧
      Version.parse .lenient text = .error cause := by
  cases h with
  | version hp hn hv => exact ⟨⟨_, hp⟩, hn, hv⟩

theorem refuses_of_endItem {r : Reader} {next : Option Char} {e : Error}
    (hn : ∀ c ∈ next, Text.isBlank c) (h : r.endItem = .error e) : r.Refuses next e := by
  unfold endItem at h
  split at h
  · contradiction
  next hp =>
    cases h
    refine .loneBar hp ?_
    rintro rfl
    exact absurd (hn '|' rfl) (by decide)
  · cases h
    exact .orphan hn
  · cases h
    exact .orphan hn
  next op text hp =>
    unfold closeWord at h
    split at h
    next hv =>
      cases h
      exact .version hp hn hv
    · contradiction

theorem refuses_of_extend {r : Reader} {op : Operator} {text : String} {c : Char} {e : Error}
    (hb : ¬ Text.isBlank c) (h : r.extend op text c = .error e) : r.Refuses (some c) e := by
  unfold extend at h
  split at h
  · contradiction
  next hc =>
    cases h
    exact .foreign hb hc

theorem refuses_of_read {r : Reader} {c : Char} {e : Error} (h : r.read c = .error e) :
    r.Refuses (some c) e := by
  by_cases hb : Text.isBlank c
  · rw [read_blank hb] at h
    exact refuses_of_endItem (by simpa using hb) h
  cases reads r.place hb with
  | move next hread =>
    rw [hread r rfl] at h
    contradiction
  | extend op text hread =>
    rw [hread r rfl] at h
    exact refuses_of_extend hb h
  | close hread =>
    rw [hread r rfl, closeSet] at h
    split at h
    · cases h
      exact .emptySet
    · contradiction
  | refuse hp hc hread =>
    rw [hread r rfl] at h
    cases h
    exact .loneBar hp (by simpa using hc)

theorem refuses_of_finish {r : Reader} {e : Error} (h : r.finish = .error e) :
    r.Refuses none e := by
  rw [finish_eq] at h
  rcases bind_eq_error_iff.mp h with he | ⟨next, -, he⟩
  · exact refuses_of_endItem (by simp) he
  · unfold range ofSets at he
    split at he
    · contradiction
    · cases he
      exact .emptySet

theorem offset_foldlM {r last : Reader} {t : List Char} (h : t.foldlM step r = .ok last) :
    last.offset = r.offset + byteSize t := by
  induction t generalizing r with
  | nil =>
    cases h
    rfl
  | cons c t ih =>
    rw [List.foldlM_cons] at h
    obtain ⟨next, hs, hl⟩ := bind_eq_ok h
    have ho : next.offset = r.offset + c.utf8Size := by
      unfold step at hs
      cases hr : r.read c with
      | error e =>
        rw [hr] at hs
        contradiction
      | ok mid =>
        rw [hr] at hs
        cases hs
        rfl
    rw [ih hl, ho, byteSize_cons, Nat.add_assoc]

theorem exists_refuses {r : Reader} {t : List Char} {e : Error} (h : run r t = .error e) :
    ∃ front back last, t = front ++ back ∧ front.foldlM step r = .ok last ∧
      last.Refuses back.head? e ∧ ∀ c ∈ back.head?, last.read c = .error e := by
  induction t generalizing r with
  | nil => exact ⟨[], [], r, rfl, rfl, refuses_of_finish h, by simp⟩
  | cons c t ih =>
    cases hr : r.read c with
    | error f =>
      cases (run_error hr t).symm.trans h
      exact ⟨[], c :: t, r, rfl, rfl, refuses_of_read hr, by simpa using hr⟩
    | ok next =>
      rw [run_read hr] at h
      obtain ⟨front, back, last, rfl, hl, he, hread⟩ := ih h
      refine ⟨c :: front, back, last, rfl, ?_, he, hread⟩
      rw [List.foldlM_cons, step, hr]
      exact hl

theorem run_of_refused {r last : Reader} {front : List Char} {c : Char} {e : Error}
    (hl : front.foldlM step r = .ok last) (h : last.read c = .error e) (t : List Char) :
    run r (front ++ c :: t) = .error e := by
  rw [run, List.foldlM_append, hl]
  exact run_error h t

theorem Consumed.getLast?_of_bar {r : Reader} {t : List Char} (h : r.Consumed t)
    (hp : r.place = .bar) : t.getLast? = some '|' := by
  obtain ⟨p, u, rfl, -, hu⟩ := h
  rw [hp] at hu
  cases hu
  exact List.getLast?_concat

end Reader

theorem run_of_parse_error {s : String} {e : Error} (h : parse s = .error e) (he : e ≠ .blank) :
    Reader.start.run s.toList = .error e := by
  have hb : ¬ AllBlank s.toList := by
    intro hb
    exact he (Except.error.inj (h.symm.trans (parse_of_allBlank hb)))
  rw [← parse_eq_run hb, h]

theorem parse_of_run_error {s : String} {e : Error} (h : Reader.start.run s.toList = .error e)
    (he : e ≠ .emptySet) : parse s = .error e := by
  have hb : ¬ AllBlank s.toList := by
    intro hb
    have hf := (run_eq_error_iff_fault s.toList _).mpr (fault_of_allBlank hb)
    exact he (Except.error.inj (h.symm.trans hf))
  rw [parse_eq_run hb, h]

theorem byteSize_pos {t : List Char} (h : t ≠ []) : 0 < byteSize t := by
  cases t with
  | nil => contradiction
  | cons c t =>
    have hc := c.utf8Size_pos
    rw [byteSize_cons]
    omega

theorem isValid_of_toList_eq {s : String} {front back : List Char} (h : s.toList = front ++ back) :
    String.Pos.Raw.IsValid s ⟨byteSize front⟩ := by
  apply String.Pos.Raw.isValid_iff_exists_append.mpr
  refine ⟨String.ofList front, String.ofList back, ?_, ?_⟩
  · rw [← String.ofList_append, ← h, String.ofList_toList]
  · rw [← utf8ByteSize_ofList]
    rfl

theorem exists_invalidCharacter {s : String} {n : Nat}
    (h : parse s = .error (.invalidCharacter n)) :
    ∃ front back, s.toList = front ++ back ∧ n = byteSize front ∧
      ((∃ c, back.head? = some c ∧ ¬ Text.isBlank c ∧ ¬ isVersionChar c) ∨
        front.getLast? = some '|' ∧ back.head? ≠ some '|') ∧
      ∀ c ∈ back.head?, ∀ t : String, front ++ [c] <+: t.toList →
        parse t = .error (.invalidCharacter n) := by
  obtain ⟨front, back, last, hs, hl, he, hread⟩ :=
    Reader.exists_refuses (run_of_parse_error h (by simp))
  have hconsumed : last.Consumed front := Reader.consumed_foldlM hl Reader.consumed_start
  obtain ⟨hn, hcause⟩ := he.invalidCharacter
  refine ⟨front, back, hs, ?_, ?_, ?_⟩
  · rw [hn, Reader.offset_foldlM hl]
    exact Nat.zero_add _
  · rcases hcause with hforeign | ⟨hp, hbar⟩
    · exact .inl hforeign
    · exact .inr ⟨hconsumed.getLast?_of_bar hp, hbar⟩
  · rintro c hc t ⟨u, ht⟩
    apply parse_of_run_error _ (by simp)
    rw [← ht, List.append_assoc]
    exact Reader.run_of_refused hl (hread c hc) u

/-- The offset of an invalid character is the size of what stands in front of it, and every text that
is the same up to this character is refused there too. At the end of a text it is the character
behind a single bar that is missing. -/
theorem invalidCharacter_exact {s : String} {n : Nat} (h : parse s = .error (.invalidCharacter n)) :
    n ≤ s.utf8ByteSize ∧ String.Pos.Raw.IsValid s ⟨n⟩ ∧ ∃ front back, s.toList = front ++ back ∧
      (String.ofList front).utf8ByteSize = n ∧
      (n = s.utf8ByteSize → s.toList.getLast? = some '|') ∧
      (n < s.utf8ByteSize → ∃ c rest, back = c :: rest ∧
        (¬ Text.isBlank c ∧ ¬ isVersionChar c ∨ front.getLast? = some '|' ∧ c ≠ '|') ∧
        ∀ t : String, front ++ [c] <+: t.toList → parse t = .error (.invalidCharacter n)) := by
  obtain ⟨front, back, hs, rfl, hcause, hsame⟩ := exists_invalidCharacter h
  have hsize : s.utf8ByteSize = byteSize front + byteSize back := by
    rw [← byteSize_append, ← hs, ← utf8ByteSize_ofList, String.ofList_toList]
  refine ⟨by omega, isValid_of_toList_eq hs, front, back, hs, utf8ByteSize_ofList front, ?_, ?_⟩
  · intro hend
    have hback : back = [] := by
      by_contra hne
      have hpos := byteSize_pos hne
      omega
    subst hback
    rw [hs, List.append_nil]
    rcases hcause with ⟨c, hc, -⟩ | ⟨hbar, -⟩
    · cases hc
    · exact hbar
  · intro hlt
    have hback : back ≠ [] := by
      rintro rfl
      exact absurd hlt (hsize ▸ Nat.lt_irrefl _)
    obtain ⟨c, rest, rfl⟩ := List.exists_cons_of_ne_nil hback
    refine ⟨c, rest, rfl, ?_, hsame c rfl⟩
    simpa using hcause

theorem invalidCharacter_exact_offsets :
    parse "1.0.0\u3000|" = .error (.invalidCharacter 9) ∧
      "1.0.0\u3000|".utf8ByteSize = 9 ∧ "1.0.0\u3000|".toList.getLast? = some '|' ∧
      parse "1.0.0\u3000|\u3000|" = .error (.invalidCharacter 9) ∧
      String.Pos.Raw.IsValid "1.0.0\u3000|\u3000|" ⟨9⟩ ∧
      ∃ front back, "1.0.0\u3000|\u3000|".toList = front ++ back ∧
        (String.ofList front).utf8ByteSize = 9 ∧ ∃ c rest, back = c :: rest ∧
        (¬ Text.isBlank c ∧ ¬ isVersionChar c ∨ front.getLast? = some '|' ∧ c ≠ '|') ∧
        ∀ t : String, front ++ [c] <+: t.toList → parse t = .error (.invalidCharacter 9) := by
  have hend : parse "1.0.0\u3000|" = .error (.invalidCharacter 9) := rfl
  have hinside : parse "1.0.0\u3000|\u3000|" = .error (.invalidCharacter 9) := rfl
  obtain ⟨-, -, _, _, -, -, hlast, -⟩ := invalidCharacter_exact hend
  obtain ⟨-, hvalid, front, back, hs, hn, -, hsame⟩ := invalidCharacter_exact hinside
  exact ⟨hend, rfl, hlast rfl, hinside, hvalid, front, back, hs, hn, hsame (by decide)⟩

inductive ItemStart : List Char → Prop
  | start : ItemStart []
  | blank {t : List Char} {c : Char} (hc : Text.isBlank c) : ItemStart (t ++ [c])
  | bars {t : List Char} : ItemStart (t ++ ['|', '|'])

theorem ItemStart.of_gap {w : List Char} (hw : Gap w) (t : List Char) : ItemStart (t ++ w) := by
  obtain ⟨u, c, rfl⟩ := (List.eq_nil_or_concat' w).resolve_left hw.1
  rw [← List.append_assoc]
  exact .blank (hw.2 c (by simp))

theorem ClosedText.itemStart {sets : List (List Comparator)} {t : List Char}
    (h : ClosedText sets t) : ItemStart t := by
  cases h with
  | nil => exact .start
  | snoc _ _ _ _ => exact .bars

theorem OpenText.itemStart {closed : List (List Comparator)} {current : List Comparator}
    {t : List Char} (h : OpenText closed current t) : ItemStart t := by
  cases h with
  | @empty p u hp hu =>
    by_cases hn : u = []
    · subst hn
      rw [List.append_nil]
      exact hp.itemStart
    · exact .of_gap ⟨hn, hu⟩ p
  | filled _ hw => exact .of_gap hw _

theorem Reader.Consumed.exists_word {r : Reader} {t : List Char} {op : Operator} {text : String}
    (h : r.Consumed t) (hp : r.place = .word op text) :
    ∃ front mark, t = front ++ symbolText mark ++ text.toList ∧ ItemStart front ∧
      text.toList ≠ [] ∧ ∀ c ∈ text.toList, isVersionChar c := by
  obtain ⟨front, u, rfl, hfront, hu⟩ := h
  rw [hp] at hu
  cases hu with
  | bareWord hn hc =>
    refine ⟨front, none, ?_, hfront.itemStart, hn, hc⟩
    rw [symbolText, Option.elim_none, List.append_nil]
  | markedWord op hn hc =>
    exact ⟨front, some op, (List.append_assoc _ _ _).symm, hfront.itemStart, hn, hc⟩

theorem invalidVersion_exact {s text : String} {cause : Version.Error}
    (h : parse s = .error (.invalidVersion text cause)) :
    text ≠ "" ∧ (∀ c ∈ text.toList, isVersionChar c) ∧
      (∃ front op back, s.toList = front ++ symbolText op ++ text.toList ++ back ∧
        ItemStart front ∧ Ends back) ∧
      Version.parse .lenient text = .error cause ∧ cause ≠ .blank ∧
      ∀ c, cause ≠ .invalidCharacter c := by
  obtain ⟨read, back, last, hs, hl, he, -⟩ := Reader.exists_refuses (run_of_parse_error h (by simp))
  have hconsumed : last.Consumed read := Reader.consumed_foldlM hl Reader.consumed_start
  obtain ⟨⟨op, hp⟩, hends, hparse⟩ := he.invalidVersion
  obtain ⟨front, mark, rfl, hfront, hn, hc⟩ := hconsumed.exists_word hp
  obtain ⟨hblank, hcharacter⟩ := Version.fault_in_parts hn hc hparse
  refine ⟨?_, hc, ⟨front, mark, back, hs, hfront, hends⟩, hparse, hblank, hcharacter⟩
  rintro rfl
  exact hn rfl

theorem invalidVersion_exact_marked :
    parse "1.0.0 ||\u3000>=v1.02.3\n<*" =
        .error (.invalidVersion "v1.02.3" (.invalidNumber .minor "02" .leadingZero)) ∧
      (∃ front op back, "1.0.0 ||\u3000>=v1.02.3\n<*".toList =
        front ++ symbolText op ++ "v1.02.3".toList ++ back ∧ ItemStart front ∧ Ends back) ∧
      Version.parse .lenient "v1.02.3" = .error (.invalidNumber .minor "02" .leadingZero) := by
  have h : parse "1.0.0 ||\u3000>=v1.02.3\n<*" =
      .error (.invalidVersion "v1.02.3" (.invalidNumber .minor "02" .leadingZero)) := rfl
  obtain ⟨-, -, hplace, hcause, -, -⟩ := invalidVersion_exact h
  exact ⟨h, hplace, hcause⟩

end Versioning.Range
