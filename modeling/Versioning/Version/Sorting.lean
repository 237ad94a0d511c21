import Versioning.Version.Basic

namespace Versioning

namespace Extremum

variable {α : Type} (order : α → α → Ordering)

def greatest? : List α → Option α
  | [] => none
  | x :: xs => some (xs.foldl (fun best y => if (order best y).isGT then best else y) x)

def least? : List α → Option α
  | [] => none
  | x :: xs => some (xs.foldl (fun best y => if (order best y).isGT then y else best) x)

theorem greatest?_eq_none_iff {xs : List α} : greatest? order xs = none ↔ xs = [] := by
  cases xs <;> simp [greatest?]

theorem least?_eq_none_iff {xs : List α} : least? order xs = none ↔ xs = [] := by
  cases xs <;> simp [least?]

end Extremum

namespace Version

def compareMetadata (a b : Version) : Ordering :=
  compare (a.metadata.map BuildItem.chars) (b.metadata.map BuildItem.chars)

instance : Ord Version where
  compare a b := (a.precedence b).then (a.compareMetadata b)

instance : LT Version := ltOfOrd

instance : LE Version := leOfOrd

def sort (vs : List Version) : List Version :=
  vs.mergeSort fun a b => (compare a b).isLE

def sortByPrecedence (vs : List Version) : List Version :=
  vs.mergeSort fun a b => (a.precedence b).isLE

def distinct (vs : List Version) : List Version :=
  vs.eraseDups

def greatest? (vs : List Version) : Option Version :=
  Extremum.greatest? compare vs

def least? (vs : List Version) : Option Version :=
  Extremum.least? compare vs

theorem sort_perm (vs : List Version) : (sort vs).Perm vs :=
  List.mergeSort_perm vs _

theorem sortByPrecedence_perm (vs : List Version) : (sortByPrecedence vs).Perm vs :=
  List.mergeSort_perm vs _

end Version

end Versioning
