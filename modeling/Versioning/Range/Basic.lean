import Versioning.Version.Text

namespace Versioning

inductive Operator
  | equal
  | less
  | greater
  | lessEqual
  | greaterEqual
  deriving DecidableEq

namespace Operator

def symbol : Operator → String
  | .equal => "="
  | .less => "<"
  | .greater => ">"
  | .lessEqual => "<="
  | .greaterEqual => ">="

def ofSymbol? : String → Option Operator
  | "=" => some .equal
  | "<" => some .less
  | ">" => some .greater
  | "<=" => some .lessEqual
  | ">=" => some .greaterEqual
  | _ => none

theorem ofSymbol?_symbol (op : Operator) : ofSymbol? op.symbol = some op := by
  cases op <;> rfl

theorem ofSymbol?_eq_some_iff {s : String} {op : Operator} :
    ofSymbol? s = some op ↔ s = op.symbol := by
  constructor
  · intro h
    unfold ofSymbol? at h
    split at h <;> cases h <;> rfl
  · rintro rfl
    exact ofSymbol?_symbol op

end Operator

structure Comparator where
  operator : Operator
  version : Version
  deriving DecidableEq

namespace Comparator

def render (c : Comparator) : String :=
  c.operator.symbol ++ c.version.render

end Comparator

structure Range where
  sets : List (List Comparator)
  sets_ne_nil : sets ≠ []
  nil_not_mem : [] ∉ sets
  deriving DecidableEq

namespace Range

inductive Error
  | blank
  /-- The offset counts bytes of the UTF-8 form, and is its size at the end of the text. -/
  | invalidCharacter (offset : Nat)
  | emptySet
  | orphanedOperator (operator : Operator)
  | invalidVersion (text : String) (cause : Version.Error)
  deriving DecidableEq

namespace Error

def message : Error → String
  | .blank => "The version range string cannot be empty or composed entirely of whitespace"
  | .invalidCharacter offset =>
    "The version range string contains an invalid character at position " ++ Nat.repr offset
  | .emptySet => "A version range string cannot contain a set with no comparators"
  | .orphanedOperator operator =>
    "The operator \"" ++ operator.symbol ++ "\" has no associated version (check whitespace)"
  | .invalidVersion text _ =>
    "The version range string contains an invalid version \"" ++ text ++ "\""

def cause? : Error → Option Version.Error
  | .invalidVersion _ cause => some cause
  | _ => none

end Error

def ofSets (sets : List (List Comparator)) : Except Error Range :=
  if h : sets ≠ [] ∧ [] ∉ sets then .ok ⟨sets, h.1, h.2⟩ else .error .emptySet

def render (r : Range) : String :=
  " || ".intercalate (r.sets.map fun set => " ".intercalate (set.map Comparator.render))

theorem ofSets_sets (r : Range) : ofSets r.sets = .ok r :=
  dif_pos ⟨r.sets_ne_nil, r.nil_not_mem⟩

end Range

end Versioning
