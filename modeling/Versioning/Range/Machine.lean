import Versioning.Range.Basic
import Versioning.Version.Text

/-!
Ranges read by a machine with a stack. Each state looks at the current character, queues the states
that are to follow it, and hands over to the top of the stack. So a set is closed by the same state
at two bars and at the end of the text, and nothing is called recursively.
-/

namespace Versioning.Range

structure Cursor where
  source : String
  rest : List Char
  offset : Nat
  input : Option Char
  position : Nat

namespace Cursor

def start (source : String) : Cursor where
  source := source
  rest := source.toList
  offset := 0
  input := none
  position := 0

def advance (cur : Cursor) : Cursor :=
  match cur.rest with
  | [] => { cur with input := none, position := cur.source.utf8ByteSize }
  | c :: rest =>
    { cur with rest, offset := cur.offset + c.utf8Size, input := some c, position := cur.offset }

def ended (cur : Cursor) : Bool :=
  cur.input.all Text.isBlank

end Cursor

inductive State
  | start
  | consume
  | identify
  | collapseBlanks
  | unarySimple
  | unaryComplex
  | logicalOr
  | versionString
  | collectSet
  | terminate
  deriving DecidableEq

/-- The state is the one that runs next, and the builder holds the characters of an operator or of a
version that is not read yet. -/
structure Machine where
  cursor : Cursor
  state : State
  stack : List State
  sets : Array (List Comparator)
  current : Array Comparator
  operator : Option Operator
  builder : String
  error : Option Error

namespace Machine

def start (source : String) : Machine where
  cursor := .start source
  state := .start
  stack := []
  sets := #[]
  current := #[]
  operator := none
  builder := ""
  error := none

def queue (m : Machine) (states : List State) : Machine :=
  { m with stack := states ++ m.stack }

def pop (m : Machine) : Machine :=
  { m with state := m.stack.headD .terminate, stack := m.stack.tail }

def fail (m : Machine) (e : Error) : Machine :=
  { m with error := some e }.queue [.terminate]

def invalidCharacter (m : Machine) : Machine :=
  m.fail (.invalidCharacter m.cursor.position)

def hold (m : Machine) : Machine :=
  { m with builder := m.cursor.input.elim m.builder m.builder.push }

def consume (m : Machine) : Machine :=
  { m with cursor := m.cursor.advance }

def collapseBlanks (m : Machine) : Machine :=
  if m.cursor.input.any Text.isBlank then m.queue [.consume, .collapseBlanks] else m

def identify (m : Machine) : Machine :=
  match m.cursor.input with
  | none => m.queue [.collectSet, .terminate]
  | some c =>
    if Text.isBlank c then m.queue [.collapseBlanks, .identify]
    else if c = '=' then m.queue [.unarySimple]
    else if c = '<' ∨ c = '>' then m.queue [.unaryComplex]
    else if c = '|' then m.queue [.consume, .logicalOr]
    else m.queue [.versionString]

def unarySimple (m : Machine) : Machine :=
  match m.operator with
  | none =>
    match m.cursor.input.bind fun c => Operator.ofSymbol? (String.singleton c) with
    | some op => { m with operator := some op }.queue [.consume, .unarySimple]
    | none => m.invalidCharacter
  | some op =>
    if m.cursor.ended then m.fail (.orphanedOperator op) else m.queue [.versionString]

def withoutLast (s : String) : String :=
  String.ofList s.toList.dropLast

/-- Operators of one or two characters. Two are held and looked up first. The second of them is not
consumed before it is known to belong to the operator, for it may begin the version. -/
def unaryComplex (m : Machine) : Machine :=
  match m.builder.length with
  | 0 => m.hold.queue [.consume, .unaryComplex]
  | 1 =>
    if m.cursor.ended then
      match Operator.ofSymbol? m.builder with
      | some op => m.fail (.orphanedOperator op)
      | none => m.invalidCharacter
    else m.hold.queue [.unaryComplex]
  | _ =>
    match Operator.ofSymbol? m.builder with
    | some op => { m with operator := some op, builder := "" }.queue [.consume, .versionString]
    | none =>
      match Operator.ofSymbol? (withoutLast m.builder) with
      | some op => { m with operator := some op, builder := "" }.queue [.versionString]
      | none => { m with builder := withoutLast m.builder }.invalidCharacter

def logicalOr (m : Machine) : Machine :=
  if m.cursor.input = some '|' then m.queue [.collectSet, .consume, .identify]
  else m.invalidCharacter

def versionString (m : Machine) : Machine :=
  if m.cursor.ended then
    if m.builder.isEmpty then
      match m.operator with
      | some op => m.fail (.orphanedOperator op)
      | none => m.invalidCharacter
    else
      let cleared := { m with operator := none, builder := "" }
      match Version.parse .lenient m.builder with
      | .ok version =>
        { cleared with current := m.current.push ⟨m.operator.getD .equal, version⟩ }.queue
          [.identify]
      | .error cause => cleared.fail (.invalidVersion m.builder cause)
  else if m.cursor.input.any Version.isVersionChar then m.hold.queue [.consume, .versionString]
  else m.invalidCharacter

def collectSet (m : Machine) : Machine :=
  if m.current.isEmpty then m.fail .emptySet
  else { m with sets := m.sets.push m.current.toList, current := #[] }

def perform (m : Machine) : Machine :=
  match m.state with
  | .start => m.queue [.consume, .identify]
  | .consume => m.consume
  | .identify => m.identify
  | .collapseBlanks => m.collapseBlanks
  | .unarySimple => m.unarySimple
  | .unaryComplex => m.unaryComplex
  | .logicalOr => m.logicalOr
  | .versionString => m.versionString
  | .collectSet => m.collectSet
  | .terminate => m

def step (m : Machine) : Machine :=
  if m.state = .terminate then m else m.perform.pop

def after (source : String) : Nat → Machine
  | 0 => start source
  | n + 1 => (after source n).step

def Answers (m : Machine) : Except Error Range → Prop
  | .ok r => m.error = none ∧ m.sets.toList = r.sets
  | .error e => m.error = some e

/-- A text of nothing but blanks is refused before the loop, and the loop ends where the state
says. -/
inductive Returns (source : String) : Except Error Range → Prop
  | blank (hb : source.toList.all Text.isBlank) : Returns source (.error .blank)
  | stopped {n : Nat} {answer : Except Error Range} (hb : ¬ source.toList.all Text.isBlank)
      (hs : (after source n).state = .terminate) (ha : (after source n).Answers answer) :
      Returns source answer

end Machine

end Versioning.Range
