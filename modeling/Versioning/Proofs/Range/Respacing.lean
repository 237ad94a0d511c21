import Versioning.Proofs.Range.Refusal

namespace Versioning.Range

theorem allBlank_append_iff {t u : List Char} : AllBlank (t ++ u) ↔ AllBlank t ∧ AllBlank u :=
  List.forall_mem_append

inductive Piece
  | kept (c : Char)
  | respaced (old new : List Char) (hold : Gap old) (hnew : Gap new)

namespace Piece

def old : Piece → List Char
  | kept c => [c]
  | respaced old _ _ _ => old

def new : Piece → List Char
  | kept c => [c]
  | respaced _ new _ _ => new

def oldBlanks : Piece → List Char
  | kept _ => []
  | respaced old _ _ _ => old

def newBlanks : Piece → List Char
  | kept _ => []
  | respaced _ new _ _ => new

def oldText (ps : List Piece) : List Char :=
  ps.flatMap old

def newText (ps : List Piece) : List Char :=
  ps.flatMap new

theorem oldText_cons (p : Piece) (ps : List Piece) : oldText (p :: ps) = p.old ++ oldText ps :=
  List.flatMap_cons

theorem newText_cons (p : Piece) (ps : List Piece) : newText (p :: ps) = p.new ++ newText ps :=
  List.flatMap_cons

theorem allBlank_oldText_iff (ps : List Piece) : AllBlank (oldText ps) ↔ AllBlank (newText ps) := by
  induction ps with
  | nil => exact Iff.rfl
  | cons p ps ih =>
    have hp : AllBlank p.old ↔ AllBlank p.new := by
      cases p with
      | kept c => exact Iff.rfl
      | respaced old new hold hnew => exact ⟨fun _ => hnew.2, fun _ => hold.2⟩
    rw [oldText_cons, newText_cons, allBlank_append_iff, allBlank_append_iff, hp, ih]

theorem byteSize_newText (ps : List Piece) :
    byteSize (newText ps) + byteSize (ps.flatMap oldBlanks) =
      byteSize (oldText ps) + byteSize (ps.flatMap newBlanks) := by
  induction ps with
  | nil => rfl
  | cons p ps ih =>
    have hp : byteSize p.new + byteSize p.oldBlanks = byteSize p.old + byteSize p.newBlanks := by
      cases p with
      | kept c => rfl
      | respaced old new hold hnew => exact Nat.add_comm _ _
    simp only [oldText_cons, newText_cons, List.flatMap_cons, byteSize_append]
    omega

end Piece

/-- The answers for a text before and after, where `n` and `m` bytes stand in front of the pieces. An
invalid character comes behind the same pieces both times. -/
inductive Moved (ps : List Piece) (n m : Nat) : Except Error Range → Except Error Range → Prop
  | ok (r : Range) : Moved ps n m (.ok r) (.ok r)
  | error {e : Error} (he : ∀ k, e ≠ .invalidCharacter k) : Moved ps n m (.error e) (.error e)
  | invalidCharacter {front back : List Piece} (h : ps = front ++ back) :
      Moved ps n m (.error (.invalidCharacter (n + byteSize (Piece.oldText front))))
        (.error (.invalidCharacter (m + byteSize (Piece.newText front))))

theorem Moved.cons {p : Piece} {ps : List Piece} {n m : Nat} {x y : Except Error Range}
    (h : Moved ps (n + byteSize p.old) (m + byteSize p.new) x y) : Moved (p :: ps) n m x y := by
  cases h with
  | ok r => exact .ok r
  | error he => exact .error he
  | @invalidCharacter front back h =>
    have hp : p :: ps = (p :: front) ++ back := congrArg (p :: ·) h
    have hmoved := Moved.invalidCharacter (n := n) (m := m) hp
    rwa [Piece.oldText_cons, Piece.newText_cons, byteSize_append, byteSize_append, ← Nat.add_assoc,
      ← Nat.add_assoc] at hmoved

namespace Reader

inductive Alike (n m : Nat) : Except Error Reader → Except Error Reader → Prop
  | ok (closed : Array (List Comparator)) (current : Array Comparator) (place : Place) :
      Alike n m (.ok ⟨n, closed, current, place⟩) (.ok ⟨m, closed, current, place⟩)
  | error {e : Error} (he : ∀ k, e ≠ .invalidCharacter k) : Alike n m (.error e) (.error e)
  | invalidCharacter : Alike n m (.error (.invalidCharacter n)) (.error (.invalidCharacter m))

variable {n m : Nat} {closed : Array (List Comparator)} {current : Array Comparator} {place : Place}

theorem alike_extend (op : Operator) (text : String) (c : Char) :
    Alike n m (extend ⟨n, closed, current, place⟩ op text c)
      (extend ⟨m, closed, current, place⟩ op text c) := by
  unfold extend
  split
  · exact .ok closed current _
  · exact .invalidCharacter

theorem alike_closeSet : Alike n m (closeSet ⟨n, closed, current, place⟩)
    (closeSet ⟨m, closed, current, place⟩) := by
  unfold closeSet
  split
  · exact .error (by simp)
  · exact .ok _ _ _

theorem alike_closeWord (op : Operator) (text : String) :
    Alike n m (closeWord ⟨n, closed, current, place⟩ op text)
      (closeWord ⟨m, closed, current, place⟩ op text) := by
  unfold closeWord
  split
  · exact .error (by simp)
  · exact .ok _ _ _

theorem alike_endItem : Alike n m (endItem ⟨n, closed, current, place⟩)
    (endItem ⟨m, closed, current, place⟩) := by
  cases place with
  | between => exact .ok closed current .between
  | bar => exact .invalidCharacter
  | angle side => exact .error (by simp)
  | operand op => exact .error (by simp)
  | word op text => exact alike_closeWord op text

theorem alike_read (c : Char) : Alike n m (read ⟨n, closed, current, place⟩ c)
    (read ⟨m, closed, current, place⟩ c) := by
  by_cases hb : Text.isBlank c
  · rw [read_blank hb, read_blank hb]
    exact alike_endItem
  cases reads place hb with
  | move next hread =>
    rw [hread _ rfl, hread _ rfl]
    exact .ok closed current next
  | extend op text hread =>
    rw [hread _ rfl, hread _ rfl]
    exact alike_extend op text c
  | close hread =>
    rw [hread _ rfl, hread _ rfl]
    exact alike_closeSet
  | refuse hp hc hread =>
    rw [hread _ rfl, hread _ rfl]
    exact .invalidCharacter

theorem Alike.bind {ps : List Piece} {x y : Except Error Reader}
    {f g : Reader → Except Error Range} (h : Alike n m x y)
    (hfg : ∀ closed current place,
      Moved ps n m (f ⟨n, closed, current, place⟩) (g ⟨m, closed, current, place⟩)) :
    Moved ps n m (x >>= f) (y >>= g) := by
  cases h with
  | ok closed current place => exact hfg closed current place
  | error he => exact .error he
  | invalidCharacter => exact .invalidCharacter (List.nil_append ps).symm

theorem alike_range {ps : List Piece} :
    Moved ps n m (range ⟨n, closed, current, place⟩) (range ⟨m, closed, current, place⟩) := by
  unfold range ofSets
  split
  · exact .ok _
  · exact .error (by simp)

theorem run_cons (r : Reader) (c : Char) (t : List Char) : run r (c :: t) =
    r.read c >>= fun next => run { next with offset := r.offset + c.utf8Size } t := by
  cases hr : r.read c with
  | error e => exact run_error hr t
  | ok next => exact run_read hr t

theorem place_of_endItem {r next : Reader} (h : r.endItem = .ok next) : next.place = .between := by
  unfold endItem at h
  split at h
  next hp =>
    cases h
    exact hp
  · contradiction
  · contradiction
  · contradiction
  · obtain ⟨v, -, rfl⟩ := closeWord_eq_ok h
    rfl

theorem run_gap {r : Reader} {w : List Char} (hw : Gap w) (t : List Char) : run r (w ++ t) =
    r.endItem >>= fun next => run { next with offset := r.offset + byteSize w } t := by
  obtain ⟨c, w, rfl⟩ := List.exists_cons_of_ne_nil hw.1
  have hc : Text.isBlank c := hw.2 c (by simp)
  have hblank : AllBlank w := fun d hd => hw.2 d (by simp [hd])
  rw [List.cons_append, run_cons, read_blank hc]
  cases he : r.endItem with
  | error e => rfl
  | ok next =>
    have hp := place_of_endItem he
    obtain ⟨n, closed, current, place⟩ := next
    subst hp
    rw [byteSize_cons, ← Nat.add_assoc]
    exact run_blanks hblank t

theorem run_allBlank {r : Reader} {w : List Char} (hw : AllBlank w) :
    run r w = r.endItem >>= range := by
  by_cases hn : w = []
  · subst hn
    exact finish_eq r
  · rw [← List.append_nil w, run_gap ⟨hn, hw⟩]
    cases he : r.endItem with
    | error e => rfl
    | ok next =>
      have hp := place_of_endItem he
      obtain ⟨n, closed, current, place⟩ := next
      subst hp
      rfl

theorem moved_run (ps : List Piece) {trail trail' : List Char} (ht : AllBlank trail)
    (ht' : AllBlank trail') : Moved ps n m
      (run ⟨n, closed, current, place⟩ (Piece.oldText ps ++ trail))
      (run ⟨m, closed, current, place⟩ (Piece.newText ps ++ trail')) := by
  induction ps generalizing n m closed current place with
  | nil =>
    change Moved [] n m (run _ trail) (run _ trail')
    rw [run_allBlank ht, run_allBlank ht']
    exact alike_endItem.bind fun _ _ _ => alike_range
  | cons p ps ih =>
    rw [Piece.oldText_cons, Piece.newText_cons, List.append_assoc, List.append_assoc]
    cases p with
    | kept c =>
      change Moved _ n m (run _ (c :: (_ ++ _))) (run _ (c :: (_ ++ _)))
      rw [run_cons, run_cons]
      exact (alike_read c).bind fun _ _ _ => .cons ih
    | respaced old new hold hnew =>
      change Moved _ n m (run _ (old ++ (_ ++ _))) (run _ (new ++ (_ ++ _)))
      rw [run_gap hold, run_gap hnew]
      exact alike_endItem.bind fun _ _ _ => .cons ih

end Reader

theorem moved_parse (ps : List Piece) {lead lead' trail trail' : List Char} (hl : AllBlank lead)
    (hl' : AllBlank lead') (ht : AllBlank trail) (ht' : AllBlank trail') :
    Moved ps (byteSize lead) (byteSize lead')
      (parse (String.ofList (lead ++ (Piece.oldText ps ++ trail))))
      (parse (String.ofList (lead' ++ (Piece.newText ps ++ trail')))) := by
  have hold : AllBlank (lead ++ (Piece.oldText ps ++ trail)) ↔ AllBlank (Piece.oldText ps) := by
    simp only [allBlank_append_iff, hl, ht, true_and, and_true]
  have hnew : AllBlank (lead' ++ (Piece.newText ps ++ trail')) ↔ AllBlank (Piece.oldText ps) := by
    simp only [allBlank_append_iff, hl', ht', true_and, and_true, Piece.allBlank_oldText_iff]
  by_cases hb : AllBlank (Piece.oldText ps)
  · rw [parse_of_allBlank (by rwa [String.toList_ofList, hold]),
      parse_of_allBlank (by rwa [String.toList_ofList, hnew])]
    exact .error (by simp)
  · rw [parse_eq_run (by rwa [String.toList_ofList, hold]),
      parse_eq_run (by rwa [String.toList_ofList, hnew]), String.toList_ofList,
      String.toList_ofList]
    have hskip {w : List Char} (hw : AllBlank w) (t : List Char) : Reader.start.run (w ++ t) =
        Reader.run ⟨byteSize w, #[], #[], .between⟩ t := by
      rw [Reader.start, Reader.run_blanks hw t, Nat.zero_add]
    rw [hskip hl, hskip hl']
    exact Reader.moved_run ps ht ht'

/-- A text with other blanks in front, behind and in place of each run inside has the same answer,
save that an invalid character is found as much further on as the blanks in front of it take more
bytes than before. -/
theorem parse_respaced {s t : String} {ps : List Piece} {lead lead' trail trail' : List Char}
    (hs : s.toList = lead ++ (Piece.oldText ps ++ trail))
    (ht : t.toList = lead' ++ (Piece.newText ps ++ trail')) (hlead : AllBlank lead)
    (hlead' : AllBlank lead') (htrail : AllBlank trail) (htrail' : AllBlank trail') :
    ((∀ i, parse s ≠ .error (.invalidCharacter i)) → parse t = parse s) ∧
      ∀ i, parse s = .error (.invalidCharacter i) → ∃ front back j, ps = front ++ back ∧
        i = (String.ofList (lead ++ Piece.oldText front)).utf8ByteSize ∧
        parse t = .error (.invalidCharacter j) ∧
        j + (String.ofList (lead ++ front.flatMap Piece.oldBlanks)).utf8ByteSize =
          i + (String.ofList (lead' ++ front.flatMap Piece.newBlanks)).utf8ByteSize := by
  have hmoved := moved_parse ps hlead hlead' htrail htrail'
  rw [← hs, ← ht, String.ofList_toList, String.ofList_toList] at hmoved
  simp only [utf8ByteSize_ofList, byteSize_append]
  generalize parse s = x, parse t = y at hmoved
  cases hmoved with
  | ok r => exact ⟨fun _ => rfl, by simp⟩
  | error he => exact ⟨fun _ => rfl, fun i hi => absurd (Except.error.inj hi) (he i)⟩
  | @invalidCharacter front back hps =>
    refine ⟨fun hnone => absurd rfl (hnone _), ?_⟩
    intro i hi
    cases hi
    have hsize := Piece.byteSize_newText front
    exact ⟨front, back, _, hps, rfl, rfl, by omega⟩

theorem parse_respaced_wide :
    parse "\t1.0.0\u3000\n||\t2.0.0" = parse "1.0.0 || 2.0.0 " ∧
      parse "1.0.0 |" = .error (.invalidCharacter 7) ∧
      parse "\t1.0.0\u3000\n|\n" = .error (.invalidCharacter 11) ∧
      ∃ ps front back j, "1.0.0 |".toList = Piece.oldText ps ∧
        "\t1.0.0\u3000\n|\n".toList = ['\t'] ++ (Piece.newText ps ++ ['\n']) ∧
        ps = front ++ back ∧ 7 = (String.ofList (Piece.oldText front)).utf8ByteSize ∧
        parse "\t1.0.0\u3000\n|\n" = .error (.invalidCharacter j) ∧
        j + (String.ofList (front.flatMap Piece.oldBlanks)).utf8ByteSize =
          7 + (String.ofList (['\t'] ++ front.flatMap Piece.newBlanks)).utf8ByteSize := by
  have hspace : Gap [' '] := ⟨by simp, allBlank_space⟩
  have htab : AllBlank ['\t'] := .singleton (by decide)
  have hline : AllBlank ['\n'] := .singleton (by decide)
  have hwide : Gap ['\u3000', '\n'] := ⟨by simp, .append (.singleton (by decide)) hline⟩
  have hnil : AllBlank [] := by simp [AllBlank]
  obtain ⟨sets, hold, hnew⟩ : ∃ ps, "1.0.0 || 2.0.0 ".toList = [] ++ (Piece.oldText ps ++ [' ']) ∧
      "\t1.0.0\u3000\n||\t2.0.0".toList = ['\t'] ++ (Piece.newText ps ++ []) :=
    ⟨"1.0.0".toList.map .kept ++ .respaced _ _ hspace hwide :: "||".toList.map .kept ++
      .respaced _ _ hspace ⟨by simp, htab⟩ :: "2.0.0".toList.map .kept, rfl, rfl⟩
  obtain ⟨ps, hfrom, hto⟩ : ∃ ps, "1.0.0 |".toList = [] ++ (Piece.oldText ps ++ []) ∧
      "\t1.0.0\u3000\n|\n".toList = ['\t'] ++ (Piece.newText ps ++ ['\n']) :=
    ⟨"1.0.0".toList.map .kept ++ [.respaced _ _ hspace hwide, .kept '|'], rfl, rfl⟩
  obtain ⟨hsame, -⟩ := parse_respaced hold hnew hnil htab allBlank_space hnil
  obtain ⟨-, hmoves⟩ := parse_respaced hfrom hto hnil htab hnil hline
  obtain ⟨front, back, j, hps, hi, hj, hsize⟩ := hmoves 7 rfl
  refine ⟨hsame ?_, rfl, rfl, ps, front, back, j, ?_, hto, hps, hi, hj, hsize⟩
  · intro i hi
    contradiction
  · rw [hfrom, List.nil_append, List.append_nil]

end Versioning.Range
