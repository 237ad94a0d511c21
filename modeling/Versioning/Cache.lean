import Std.Data.HashMap
import Versioning.Range.Reader

/-!
Parsed versions and ranges kept under the text they were read from. Only what parses is kept, and
a kept value is handed out again as the same shared value.
-/

namespace Versioning

/-- Two shared values of a table are the same when their numbers are. -/
structure Shared (α : Type) where
  id : Nat
  value : α

structure Table (α : Type) where
  entries : Std.HashMap String (Shared α)
  built : Nat

namespace Table

variable {ε α : Type}

def empty : Table α :=
  ⟨∅, 0⟩

def size (t : Table α) : Nat :=
  t.entries.size

def insert (t : Table α) (text : String) (value : α) : Table α :=
  ⟨t.entries.insert text ⟨t.built, value⟩, t.built + 1⟩

def lookup (parse : String → Except ε α) (t : Table α) (text : String) :
    Except ε (Shared α) × Table α :=
  match t.entries[text]? with
  | some shared => (.ok shared, t)
  | none => match parse text with
    | .error e => (.error e, t)
    | .ok value => (.ok ⟨t.built, value⟩, t.insert text value)

def clear (t : Table α) : Table α :=
  { t with entries := ∅ }

end Table

structure Cache where
  versions : Table Version
  ranges : Table Range

namespace Cache

def empty : Cache :=
  ⟨.empty, .empty⟩

def size (c : Cache) : Nat :=
  c.versions.size + c.ranges.size

def isEmpty (c : Cache) : Bool :=
  c.size == 0

def version (c : Cache) (text : String) : Except Version.Error (Shared Version) × Cache :=
  let (answer, versions) := c.versions.lookup (Version.parse .strict) text
  (answer, { c with versions })

def range (c : Cache) (text : String) : Except Range.Error (Shared Range) × Cache :=
  let (answer, ranges) := c.ranges.lookup Range.parse text
  (answer, { c with ranges })

def clear (c : Cache) : Cache :=
  ⟨c.versions.clear, c.ranges.clear⟩

inductive Request
  | version (text : String)
  | range (text : String)
  | clear
  deriving DecidableEq

def after (c : Cache) : Request → Cache
  | .version text => (c.version text).2
  | .range text => (c.range text).2
  | .clear => c.clear

def run (requests : List Request) : Cache :=
  requests.foldl after empty

end Cache

end Versioning
