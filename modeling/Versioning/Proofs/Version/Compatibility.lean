import Mathlib.Logic.Relation
import Versioning.Proofs.Version.TotalOrder
import Versioning.Version.Compatibility

namespace Versioning.Version

variable {a b c a' b' : Version}

theorem not_isPrerelease_iff : ¬ a.isPrerelease ↔ a.identifiers = [] := by
  simp [isPrerelease]

theorem precedence_eq_gt_iff : b.precedence a = .gt ↔
    a.major < b.major ∨ a.Advances b ∨ a.major = b.major ∧ a.minor = b.minor ∧ a.patch = b.patch ∧
      comparePrerelease b.identifiers a.identifiers = .gt := by
  simp only [precedence, Advances, Ordering.then_eq_gt, Std.LawfulEqOrd.compare_eq_iff_eq,
    Std.compare_eq_gt]
  grind

theorem comparePrerelease_nil_ne_gt (is : List Identifier) : comparePrerelease is [] ≠ .gt := by
  cases is <;> simp [comparePrerelease]

theorem precedence_release_eq_gt_iff (ha : a.identifiers = []) :
    b.precedence a = .gt ↔ a.major < b.major ∨ a.Advances b := by
  rw [precedence_eq_gt_iff, ha]
  simp only [comparePrerelease_nil_ne_gt, and_false, or_false]

theorem Advances.precedence_eq_gt (h : a.Advances b) : b.precedence a = .gt := by
  apply precedence_eq_gt_iff.mpr
  exact .inr (.inl h)

namespace Compatible

theorem congr (h : a.Compatible b) (ha : a.Equivalent a') (hb : b.Equivalent b') :
    a'.Compatible b' := by
  rcases h with he | ⟨hi, hm, hadv⟩
  · exact .inl (ha.symm.trans (he.trans hb))
  · refine .inr ⟨?_, ?_, hadv.congr ha hb⟩
    · rw [← ha.2.2.2]
      exact hi
    · rw [← ha.1]
      exact hm

theorem congr_iff (ha : a.Equivalent a') (hb : b.Equivalent b') :
    a.Compatible b ↔ a'.Compatible b' :=
  ⟨fun h => h.congr ha hb, fun h => h.congr ha.symm hb.symm⟩

theorem precedence_ne_lt (h : a.Compatible b) : b.precedence a ≠ .lt := by
  rcases h with he | ⟨-, -, hadv⟩
  · have heq : b.precedence a = .eq := precedence_eq_eq_iff.mpr he.symm
    simp [heq]
  · simp [hadv.precedence_eq_gt]

theorem antisymm (hab : a.Compatible b) (hba : b.Compatible a) : a.Equivalent b := by
  rcases hab with he | ⟨-, -, hadv⟩
  · exact he
  · rcases hba with he | ⟨-, -, hback⟩
    · exact he.symm
    · exact absurd hback hadv.asymm

theorem trans (hab : a.Compatible b) (hbc : b.Compatible c) : a.Compatible c := by
  rcases hab with he | ⟨hi, hm, hab⟩
  · exact hbc.congr he.symm (.refl c)
  · -- An advance stays one, whether what follows is equivalent or advances further.
    rcases hbc with he | ⟨-, -, hbc⟩
    · exact .inr ⟨hi, hm, hab.congr (.refl a) he⟩
    · exact .inr ⟨hi, hm, hab.trans hbc⟩

theorem of_chain (h : Relation.ReflTransGen Compatible a b) : a.Compatible b := by
  induction h with
  | refl => exact compatible_refl a
  | tail _ hlast ih => exact ih.trans hlast

end Compatible

theorem compatible_iff_inTurn : a.Compatible b ↔ a.compatibleInTurn b := by
  unfold compatibleInTurn
  by_cases he : a.Equivalent b
  · exact iff_of_true (.inl he) (if_pos he)
  · rw [if_neg he, Compatible, or_iff_right he]
    split_ifs with hm hz hp hr
    · refine iff_of_false ?_ not_false
      rintro ⟨-, -, hadv⟩
      exact hm hadv.1
    · refine iff_of_false ?_ not_false
      rintro ⟨-, hne, hadv⟩
      rcases hz with hz | hz
      · exact hne hz
      · exact hne (hadv.1.trans hz)
    · rw [not_isPrerelease_iff] at hp
      rw [not_or] at hz
      exact iff_of_true ⟨hp.1, hz.1, not_not.mp hm, hp.2.2⟩ rfl
    · refine iff_of_false ?_ not_false
      rintro ⟨hi, -, hadv⟩
      -- An advance that is a pre-release has been let through by the rule before.
      have ha : ¬ a.isPrerelease := not_isPrerelease_iff.mpr hi
      exact hp ⟨ha, hr.resolve_left ha, hadv.2⟩
    · rw [not_or, not_isPrerelease_iff] at hr
      rw [not_or] at hz
      have hlt : ¬ a.major < b.major := by simp [not_not.mp hm]
      rw [decide_eq_true_iff, precedence_release_eq_gt_iff hr.1, or_iff_right hlt,
        and_iff_right hr.1, and_iff_right hz.1]

theorem compatible_partial_order :
    (∀ a : Version, a.Compatible a) ∧
      (∀ a b : Version, a.Compatible b → b.precedence a ≠ .lt) ∧
      (∀ a b : Version, a.Compatible b → b.Compatible a → a.Equivalent b) ∧
      (∀ a b c : Version, a.Compatible b → b.Compatible c → a.Compatible c) ∧
      (∀ a b a' b' : Version, a.Equivalent a' → b.Equivalent b' →
        (a.Compatible b ↔ a'.Compatible b')) ∧
      ∀ a b : Version, Relation.ReflTransGen Compatible a b → a.Compatible b :=
  ⟨compatible_refl, fun _ _ => Compatible.precedence_ne_lt, fun _ _ => Compatible.antisymm,
    fun _ _ _ => Compatible.trans, fun _ _ _ _ => Compatible.congr_iff,
    fun _ _ => Compatible.of_chain⟩

theorem compatible_partial_order_candidate :
    (release 1 0 0).Compatible (release 1 1 0) ∧
      (release 1 1 0).precedence (release 1 0 0) ≠ .lt ∧
      (release 1 1 0).Compatible ⟨1, 2, 0, [⟨['r', 'c'], rfl⟩], []⟩ ∧
      Relation.ReflTransGen Compatible (release 1 0 0)
        ⟨1, 2, 0, [⟨['r', 'c'], rfl⟩], []⟩ ∧
      (release 1 0 0).Compatible ⟨1, 2, 0, [⟨['r', 'c'], rfl⟩], []⟩ ∧
      (release 1 0 0).Equivalent ⟨1, 0, 0, [], [⟨['0', '1'], rfl⟩]⟩ ∧
      ((release 1 0 0).Compatible (release 1 1 0) ↔
        (⟨1, 0, 0, [], [⟨['0', '1'], rfl⟩]⟩ : Version).Compatible (release 1 1 0)) := by
  obtain ⟨-, hup, hanti, -, hcongr, hchain⟩ := compatible_partial_order
  have hab : (release 1 0 0).Compatible (release 1 1 0) := by decide
  have hbc : (release 1 1 0).Compatible ⟨1, 2, 0, [⟨['r', 'c'], rfl⟩], []⟩ := by decide
  have hac := (Relation.ReflTransGen.single hab).tail hbc
  have hmeta : (release 1 0 0).Equivalent ⟨1, 0, 0, [], [⟨['0', '1'], rfl⟩]⟩ := by
    apply hanti
    · decide
    · decide
  exact ⟨hab, hup _ _ hab, hbc, hac, hchain _ _ hac, hmeta, hcongr _ _ _ _ hmeta (.refl _)⟩

end Versioning.Version
