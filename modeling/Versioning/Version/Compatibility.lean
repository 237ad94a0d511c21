import Versioning.Version.Basic

namespace Versioning.Version

variable {a b c a' b' : Version}

def Advances (base candidate : Version) : Prop :=
  base.major = candidate.major ∧
    (base.minor < candidate.minor ∨ base.minor = candidate.minor ∧ base.patch < candidate.patch)

def Compatible (base candidate : Version) : Prop :=
  base.Equivalent candidate ∨ base.identifiers = [] ∧ base.major ≠ 0 ∧ base.Advances candidate

instance (base candidate : Version) : Decidable (base.Advances candidate) :=
  inferInstanceAs (Decidable (_ ∧ _))

instance (base candidate : Version) : Decidable (base.Compatible candidate) :=
  inferInstanceAs (Decidable (_ ∨ _))

/-- The rules on what may take the place of a version, asked in turn until one of them decides. -/
def compatibleInTurn (base candidate : Version) : Bool :=
  if base.Equivalent candidate then true
  else if base.major ≠ candidate.major then false
  else if base.major = 0 ∨ candidate.major = 0 then false
  else if ¬ base.isPrerelease ∧ candidate.isPrerelease ∧ (base.minor < candidate.minor ∨
      base.minor = candidate.minor ∧ base.patch < candidate.patch) then true
  else if base.isPrerelease ∨ candidate.isPrerelease then false
  else candidate.precedence base = .gt

namespace Advances

theorem trans (hab : a.Advances b) (hbc : b.Advances c) : a.Advances c := by
  simp only [Advances, UInt64.lt_iff_toNat_lt, ← UInt64.toNat_inj] at *
  omega

theorem asymm (hab : a.Advances b) : ¬ b.Advances a := by
  intro hba
  simp only [Advances, UInt64.lt_iff_toNat_lt, ← UInt64.toNat_inj] at hab hba
  omega

theorem congr (h : a.Advances b) (ha : a.Equivalent a') (hb : b.Equivalent b') :
    a'.Advances b' := by
  obtain ⟨hma, hna, hpa, -⟩ := ha
  obtain ⟨hmb, hnb, hpb, -⟩ := hb
  simpa only [Advances, ← hma, ← hna, ← hpa, ← hmb, ← hnb, ← hpb] using h

end Advances

theorem compatible_refl (v : Version) : v.Compatible v :=
  .inl (.refl v)

end Versioning.Version
