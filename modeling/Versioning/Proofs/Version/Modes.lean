import Versioning.Proofs.Version.FirstFault

namespace Versioning.Version

theorem unmarked_of_head? {t : List Char} (hv : t.head? ≠ some 'v') (hV : t.head? ≠ some 'V') :
    unmarked .lenient t = t := by
  apply unmarked_append (.none .lenient)
  rintro n hn ⟨u, rfl⟩
  cases hn with
  | none => exact Nat.le_refl 0
  | lower => exact absurd rfl hv
  | upper => exact absurd rfl hV

theorem parse_lenient_eq_strict {s : String} (hv : (Text.trim s.toList).head? ≠ some 'v')
    (hV : (Text.trim s.toList).head? ≠ some 'V') : parse .lenient s = parse .strict s := by
  have hu := unmarked_of_head? hv hV
  unfold parse
  revert hu
  cases Text.trim s.toList with
  | nil => exact fun _ => rfl
  | cons c t =>
    intro hu
    simp only [hu]
    rfl

theorem rest_of_parse {mode : Mode} {s : String} {v : Version} {p : Char} {rest : List Char}
    (hp : MarkText .lenient [p]) (ht : Text.trim s.toList = p :: rest)
    (h : parse mode s = .ok v) : mode = .lenient ∧ ∃ d u, rest = d :: u ∧ d.isDigit := by
  obtain ⟨d, u, hd, hj⟩ := join_eq_cons v
  obtain ⟨m, hm, htext⟩ := parse_eq_ok_iff.mp h
  rw [ht, hj] at htext
  cases hm with
  | none =>
    obtain ⟨rfl, -⟩ := List.cons.inj htext
    cases hp <;> contradiction
  | lower | upper => exact ⟨rfl, d, u, (List.cons.inj htext).2, hd⟩

theorem isVersionChar_of_mark {p : Char} (hp : MarkText .lenient [p]) : isVersionChar p :=
  isVersionChar_of_mem_mark hp p (by simp)

theorem unmarked_mark {p : Char} (hp : MarkText .lenient [p]) (rest : List Char) :
    unmarked .lenient (p :: rest) = rest := by
  cases hp <;> rfl

theorem parse_lenient_behind_mark {s : String} {p : Char} {rest : List Char}
    (hp : MarkText .lenient [p]) (ht : Text.trim s.toList = p :: rest)
    (hc : ∀ c ∈ rest, isVersionChar c) : parse .lenient s = ofParts (.cut rest) := by
  have hall : ∀ c ∈ Text.trim s.toList, isVersionChar c := by
    rw [ht]
    exact List.forall_mem_cons.mpr ⟨isVersionChar_of_mark hp, hc⟩
  rw [parse_of_trim .lenient (by simp [ht]) hall, ht, unmarked_mark hp]

theorem lenient_extends_strict {s : String} {t : List Char} (ht : Text.Trimmed s.toList t) :
    (t.head? ≠ some 'v' → t.head? ≠ some 'V' → parse .lenient s = parse .strict s) ∧
      ∀ p rest, t = p :: rest → p = 'v' ∨ p = 'V' →
        (∃ e, parse .strict s = .error e) ∧
          (∀ c, FirstFailing (fun d => isVersionChar d) rest c →
            parse .lenient s = .error (.invalidCharacter c)) ∧
          (rest = [] → parse .lenient s = .error .malformed) ∧
          (rest ≠ [] → (∀ c ∈ rest, isVersionChar c) →
            parse .lenient s = parse .strict (String.ofList rest)) ∧
          ∀ v, parse .lenient s = .ok v → ∃ d u, rest = d :: u ∧ d.isDigit := by
  have ht := ht.eq
  subst ht
  refine ⟨parse_lenient_eq_strict, ?_⟩
  intro p rest ht hp
  have hp : MarkText .lenient [p] := by
    rcases hp with rfl | rfl
    · exact .lower
    · exact .upper
  refine ⟨?_, ?_, ?_, ?_, fun v hv => (rest_of_parse hp ht hv).2⟩
  · cases hs : parse .strict s with
    | error e => exact ⟨e, rfl⟩
    | ok v => exact absurd (rest_of_parse hp ht hs).1 (by decide)
  · intro c hc
    apply parse_eq_error_iff_firstFault.mpr
    rw [ht]
    exact .character (firstFailing_cons.mpr (.inr ⟨isVersionChar_of_mark hp, hc⟩))
  · rintro rfl
    rw [parse_lenient_behind_mark hp ht (by simp)]
    rfl
  · intro hn hc
    rw [parse_lenient_behind_mark hp ht hc, parse_ofList .strict hn hc]
    rfl

theorem lenient_extends_strict_corners :
    parse .lenient "1.2.3+v " = parse .strict "1.2.3+v " ∧
      parse .lenient " V1.2.3-rc" = parse .strict "1.2.3-rc" ∧
      parse .lenient "vv1.2.3" = parse .strict "v1.2.3" ∧
      (∃ e, parse .strict "vv1.2.3" = .error e) ∧
      parse .lenient "v 1.2.3" = .error (.invalidCharacter ' ') ∧
      parse .lenient "v" = .error .malformed ∧
      (∃ v, parse .lenient " V1.2.3-rc" = .ok v) ∧ ∃ d u, "1.2.3-rc".toList = d :: u ∧ d.isDigit := by
  have trimmed (s : String) : Text.Trimmed s.toList (Text.trim s.toList) := Text.trimmed_trim s.toList
  have hupper : Text.trim " V1.2.3-rc".toList = 'V' :: "1.2.3-rc".toList := rfl
  have hlower : Text.trim "vv1.2.3".toList = 'v' :: "v1.2.3".toList := rfl
  have hspace : FirstFailing (fun d => isVersionChar d) " 1.2.3".toList ' ' :=
    ⟨[], "1.2.3".toList, rfl, by simp, by decide⟩
  have hmarked : ∀ c ∈ "v1.2.3".toList, isVersionChar c := List.all_eq_true.mp rfl
  have hlabelled : ∀ c ∈ "1.2.3-rc".toList, isVersionChar c := List.all_eq_true.mp rfl
  obtain ⟨-, -, -, hrest, hdigit⟩ :=
    (lenient_extends_strict (trimmed " V1.2.3-rc")).2 'V' _ hupper (.inr rfl)
  obtain ⟨hstrict, -, -, htwice, -⟩ :=
    (lenient_extends_strict (trimmed "vv1.2.3")).2 'v' _ hlower (.inl rfl)
  refine ⟨?_, hrest (by decide) hlabelled, htwice (by decide) hmarked, hstrict, ?_, ?_,
    ⟨_, rfl⟩, hdigit _ rfl⟩
  · exact (lenient_extends_strict (trimmed "1.2.3+v ")).1 (by decide) (by decide)
  · exact ((lenient_extends_strict (trimmed "v 1.2.3")).2 'v' _ rfl (.inl rfl)).2.1 ' ' hspace
  · exact ((lenient_extends_strict (trimmed "v")).2 'v' _ rfl (.inl rfl)).2.2.1 rfl

end Versioning.Version
