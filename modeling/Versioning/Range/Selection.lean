import Versioning.Range.Basic
import Versioning.Version.Sorting

namespace Versioning

def Operator.accepts : Operator → Ordering → Bool
  | .equal, o => o.isEq
  | .less, o => o.isLT
  | .greater, o => o.isGT
  | .lessEqual, o => o.isLE
  | .greaterEqual, o => o.isGE

namespace Comparator

def admits (c : Comparator) (v : Version) : Bool :=
  c.operator.accepts (v.precedence c.version)

variable {a v : Version}

theorem admits_equal_iff : admits ⟨.equal, v⟩ a ↔ a.precedence v = .eq :=
  Ordering.isEq_iff_eq_eq

theorem admits_less_iff : admits ⟨.less, v⟩ a ↔ a.precedence v = .lt :=
  Ordering.isLT_iff_eq_lt

theorem admits_greater_iff : admits ⟨.greater, v⟩ a ↔ a.precedence v = .gt :=
  Ordering.isGT_iff_eq_gt

theorem admits_greaterEqual_iff :
    admits ⟨.greaterEqual, v⟩ a ↔ a.precedence v = .gt ∨ a.precedence v = .eq :=
  Ordering.isGE_iff_eq_gt_or_eq_eq

end Comparator

namespace Range

def admits (r : Range) (v : Version) : Bool :=
  r.sets.any fun set => set.all fun c => c.admits v

def admitsAny (r : Range) (vs : List Version) : Bool :=
  vs.any r.admits

def admitsAll (r : Range) (vs : List Version) : Bool :=
  vs.all r.admits

theorem admits_iff {r : Range} {v : Version} :
    r.admits v ↔ ∃ set ∈ r.sets, ∀ c ∈ set, c.admits v := by
  simp [admits]

section

variable {α : Type} (r : Range) (version : α → Version)

def select (xs : List α) : List α :=
  xs.filter fun x => r.admits (version x)

def greatest? (xs : List α) : Option α :=
  Extremum.greatest? (fun x y => (version x).precedence (version y)) (r.select version xs)

def least? (xs : List α) : Option α :=
  Extremum.least? (fun x y => (version x).precedence (version y)) (r.select version xs)

theorem mem_select {x : α} {xs : List α} :
    x ∈ r.select version xs ↔ x ∈ xs ∧ r.admits (version x) :=
  List.mem_filter

end

end Range

end Versioning
