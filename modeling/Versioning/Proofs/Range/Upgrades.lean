import Versioning.Proofs.Range.Interval
import Versioning.Proofs.Range.RoundTrip
import Versioning.Proofs.Version.Compatibility

namespace Versioning

namespace Comparator

variable {a v : Version}

theorem admits_equal_iff_equivalent : admits ⟨.equal, a⟩ v ↔ a.Equivalent v := by
  rw [admits_equal_iff, Version.precedence_eq_eq_iff]
  exact ⟨.symm, .symm⟩

theorem admits_less_lowest_iff {major : UInt64} :
    admits ⟨.less, .lowest major⟩ v ↔ v.major < major := by
  rw [admits_less_iff, Version.precedence_lowest_eq_lt_iff]

theorem admits_greaterEqual_release_iff (ha : a.identifiers = []) :
    admits ⟨.greaterEqual, a⟩ v ↔ a.Equivalent v ∨ a.major < v.major ∨ a.Advances v := by
  rw [admits_greaterEqual_iff, Version.precedence_release_eq_gt_iff ha, ← admits_equal_iff,
    admits_equal_iff_equivalent, or_comm]

end Comparator

theorem Range.render_ofSet {set : List Comparator} (hn : set ≠ []) :
    (ofSet set hn).render = " ".intercalate (set.map Comparator.render) := by
  simp [render, ofSet]

namespace Version

variable {a c : Version}

/-- The range of what may take the place of a version, as it is written. Where no major number
follows, there is nothing to stay below. -/
def upgradeText (v : Version) : String :=
  if v.isPrerelease ∨ v.major = 0 then "=" ++ v.render
  else if v.major.toNat + 1 < UInt64.size then
    ">=" ++ v.render ++ " <" ++ Nat.repr (v.major.toNat + 1) ++ ".0.0-0"
  else ">=" ++ v.render

def upgradeSet (v : Version) : List Comparator :=
  if v.isPrerelease ∨ v.major = 0 then [⟨.equal, v⟩]
  else if v.major.toNat + 1 < UInt64.size then
    [⟨.greaterEqual, v⟩, ⟨.less, lowest (v.major + 1)⟩]
  else [⟨.greaterEqual, v⟩]

theorem upgradeSet_ne_nil (v : Version) : v.upgradeSet ≠ [] := by
  unfold upgradeSet
  split_ifs <;> simp

theorem toNat_add_one {n : UInt64} (h : n.toNat + 1 < UInt64.size) :
    (n + 1).toNat = n.toNat + 1 := by
  rw [UInt64.toNat_add]
  exact Nat.mod_eq_of_lt h

theorem render_lowest (major : UInt64) :
    (lowest major).render = Nat.repr major.toNat ++ ".0.0-0" := by
  apply String.toList_injective
  simp [render, Parts.join, parts, lowest, number, Decimal.digits, Nat.repr, Parts.dotted,
    Parts.labelled]

theorem upgradeText_eq (v : Version) :
    v.upgradeText = " ".intercalate (v.upgradeSet.map Comparator.render) := by
  unfold upgradeText upgradeSet
  split_ifs with hf hn
  · rfl
  · have hl : (lowest (v.major + 1)).render = Nat.repr (v.major.toNat + 1) ++ ".0.0-0" := by
      rw [render_lowest, toNat_add_one hn]
    apply String.toList_injective
    simp [Comparator.render, hl, Operator.symbol]
  · rfl

example : (release 1 2 0).upgradeText = ">=1.2.0 <2.0.0-0" := by decide

theorem compatible_iff_equivalent (h : a.identifiers ≠ [] ∨ a.major = 0) :
    a.Compatible c ↔ a.Equivalent c := by
  apply or_iff_left
  rintro ⟨hi, hm, -⟩
  exact h.elim (absurd hi) hm

theorem major_eq_of_compatible (h : a.Compatible c) : a.major = c.major := by
  rcases h with he | ⟨-, -, hadv⟩
  · exact he.1
  · exact hadv.1

theorem compatible_iff_of_release (hi : a.identifiers = []) (hm : a.major ≠ 0) :
    a.Compatible c ↔ Comparator.admits ⟨.greaterEqual, a⟩ c ∧ c.major.toNat ≤ a.major.toNat := by
  rw [Comparator.admits_greaterEqual_release_iff hi]
  constructor
  · intro h
    have hmajor := major_eq_of_compatible h
    refine ⟨?_, by simp [hmajor]⟩
    rcases h with he | ⟨-, -, hadv⟩
    · exact .inl he
    · exact .inr (.inr hadv)
  · rintro ⟨he | hlt | hadv, hle⟩
    · exact .inl he
    · have hlt := UInt64.lt_iff_toNat_lt.mp hlt
      omega
    · exact .inr ⟨hi, hm, hadv⟩

theorem compatible_iff_upgradeSet : a.Compatible c ↔ ∀ x ∈ a.upgradeSet, x.admits c := by
  unfold upgradeSet
  split_ifs with hf hn
  · have hfixed : a.identifiers ≠ [] ∨ a.major = 0 :=
      hf.imp_left fun hp hi => not_isPrerelease_iff.mpr hi hp
    rw [List.forall_mem_singleton, Comparator.admits_equal_iff_equivalent,
      compatible_iff_equivalent hfixed]
  · rw [not_or, not_isPrerelease_iff] at hf
    have hbelow : c.major < a.major + 1 ↔ c.major.toNat ≤ a.major.toNat := by
      rw [UInt64.lt_iff_toNat_lt, toNat_add_one hn]
      omega
    rw [List.forall_mem_cons, List.forall_mem_singleton, Comparator.admits_less_lowest_iff, hbelow,
      compatible_iff_of_release hf.1 hf.2]
  · rw [not_or, not_isPrerelease_iff] at hf
    have hlast : c.major.toNat ≤ a.major.toNat := by
      have hc := c.major.toNat_lt_size
      omega
    rw [List.forall_mem_singleton, compatible_iff_of_release hf.1 hf.2, and_iff_left hlast]

def upgrades (v : Version) : Range :=
  .ofSet v.upgradeSet v.upgradeSet_ne_nil

theorem parse_upgradeText (v : Version) : Range.parse v.upgradeText = .ok v.upgrades := by
  rw [upgradeText_eq, ← Range.render_ofSet v.upgradeSet_ne_nil]
  exact Range.parse_render v.upgrades

theorem compatible_iff_upgrades : a.Compatible c ↔ a.upgrades.admits c := by
  rw [compatible_iff_upgradeSet]
  exact (Range.admits_iff_of_sets_eq_singleton rfl c).symm

theorem compatible_iff_admits (a : Version) :
    ∃ r, Range.parse a.upgradeText = .ok r ∧
      ∀ c, (a.Compatible c ↔ r.admits c) ∧ a.compatibleInTurn c = r.admits c := by
  refine ⟨a.upgrades, parse_upgradeText a, ?_⟩
  intro c
  refine ⟨compatible_iff_upgrades, ?_⟩
  rw [Bool.eq_iff_iff, ← compatible_iff_inTurn]
  exact compatible_iff_upgrades

end Version

end Versioning
