import Versioning.Range.Basic
import Versioning.Version.Text

/-!
Ranges read from text, one character at a time. Two bars close a set, a blank ends a comparator,
and an operator stands right before its version.
-/

namespace Versioning.Range

inductive Angle
  | left
  | right
  deriving DecidableEq

namespace Angle

def strict : Angle → Operator
  | .left => .less
  | .right => .greater

def orEqual : Angle → Operator
  | .left => .lessEqual
  | .right => .greaterEqual

end Angle

inductive Place
  | between
  | bar
  | angle (side : Angle)
  | operand (operator : Operator)
  | word (operator : Operator) (text : String)
  deriving DecidableEq

structure Reader where
  offset : Nat
  closed : Array (List Comparator)
  current : Array Comparator
  place : Place
  deriving DecidableEq

namespace Reader

def start : Reader where
  offset := 0
  closed := #[]
  current := #[]
  place := .between

def invalid {α : Type} (r : Reader) : Except Error α :=
  .error (.invalidCharacter r.offset)

def moveTo (r : Reader) (place : Place) : Except Error Reader :=
  .ok { r with place }

def closeSet (r : Reader) : Except Error Reader :=
  if r.current.isEmpty then .error .emptySet
  else .ok { r with closed := r.closed.push r.current.toList, current := #[], place := .between }

def closeWord (r : Reader) (operator : Operator) (text : String) : Except Error Reader :=
  match Version.parse .lenient text with
  | .error cause => .error (.invalidVersion text cause)
  | .ok version => .ok { r with current := r.current.push ⟨operator, version⟩, place := .between }

def extend (r : Reader) (operator : Operator) (text : String) (c : Char) : Except Error Reader :=
  if Version.isVersionChar c then r.moveTo (.word operator (text.push c)) else r.invalid

def begin (r : Reader) (operator : Operator) (c : Char) : Except Error Reader :=
  if Text.isBlank c then .error (.orphanedOperator operator) else r.extend operator "" c

def read (r : Reader) (c : Char) : Except Error Reader :=
  match r.place with
  | .between =>
    if Text.isBlank c then .ok r
    else if c = '=' then r.moveTo (.operand .equal)
    else if c = '<' then r.moveTo (.angle .left)
    else if c = '>' then r.moveTo (.angle .right)
    else if c = '|' then r.moveTo .bar
    else r.extend .equal "" c
  | .bar => if c = '|' then r.closeSet else r.invalid
  | .angle side => if c = '=' then r.moveTo (.operand side.orEqual) else r.begin side.strict c
  | .operand operator => r.begin operator c
  | .word operator text =>
    if Text.isBlank c then r.closeWord operator text else r.extend operator text c

def step (r : Reader) (c : Char) : Except Error Reader :=
  (r.read c).map fun next => { next with offset := r.offset + c.utf8Size }

def range (r : Reader) : Except Error Range :=
  ofSets (r.closed.push r.current.toList).toList

def finish (r : Reader) : Except Error Range :=
  match r.place with
  | .between => r.range
  | .bar => r.invalid
  | .angle side => .error (.orphanedOperator side.strict)
  | .operand operator => .error (.orphanedOperator operator)
  | .word operator text => r.closeWord operator text >>= range

end Reader

def parse (s : String) : Except Error Range :=
  if s.toList.all Text.isBlank then .error .blank
  else s.toList.foldlM Reader.step Reader.start >>= Reader.finish

end Versioning.Range
