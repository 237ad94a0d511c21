import Versioning.Identifier

namespace Versioning

structure Version where
  major : UInt64
  minor : UInt64
  patch : UInt64
  identifiers : List Identifier
  metadata : List BuildItem
  deriving DecidableEq

namespace Version

def release (major minor patch : UInt64) : Version :=
  ⟨major, minor, patch, [], []⟩

def ofMajorMinor (major minor : UInt64) : Version :=
  release major minor 0

def isPrerelease (v : Version) : Bool :=
  !v.identifiers.isEmpty

def withoutMetadata (v : Version) : Version :=
  { v with metadata := [] }

def Equivalent (a b : Version) : Prop :=
  a.major = b.major ∧ a.minor = b.minor ∧ a.patch = b.patch ∧ a.identifiers = b.identifiers

instance (a b : Version) : Decidable (a.Equivalent b) :=
  inferInstanceAs (Decidable (_ ∧ _))

theorem equivalent_iff {a b : Version} :
    a.Equivalent b ↔ a.withoutMetadata = b.withoutMetadata := by
  cases a; cases b; simp [Equivalent, withoutMetadata]

namespace Equivalent

variable {a b c : Version}

theorem refl (a : Version) : a.Equivalent a :=
  ⟨rfl, rfl, rfl, rfl⟩

theorem symm (h : a.Equivalent b) : b.Equivalent a := by
  rw [equivalent_iff] at h ⊢
  exact h.symm

theorem trans (hab : a.Equivalent b) (hbc : b.Equivalent c) : a.Equivalent c := by
  rw [equivalent_iff] at hab hbc ⊢
  exact hab.trans hbc

end Equivalent

def compareIdentifiers : List Identifier → List Identifier → Ordering
  | a :: as, b :: bs => if a = b then compareIdentifiers as bs else a.precedence b
  | as, bs => compare as.length bs.length

def comparePrerelease : List Identifier → List Identifier → Ordering
  | [], [] => .eq
  | [], _ :: _ => .gt
  | _ :: _, [] => .lt
  | a, b => compareIdentifiers a b

def precedence (a b : Version) : Ordering :=
  (compare a.major b.major).then <| (compare a.minor b.minor).then <|
    (compare a.patch b.patch).then <| comparePrerelease a.identifiers b.identifiers

def precedence? : Option Version → Option Version → Ordering
  | none, none => .eq
  | none, some _ => .lt
  | some _, none => .gt
  | some a, some b => a.precedence b

end Version

end Versioning
