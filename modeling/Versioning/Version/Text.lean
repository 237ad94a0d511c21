import Versioning.Text
import Versioning.Version.Basic

namespace Versioning.Version

inductive Field
  | major
  | minor
  | patch
  deriving DecidableEq

inductive NumberFault
  | notANumber
  | tooLarge
  | leadingZero
  deriving DecidableEq

inductive Error
  | blank
  | invalidCharacter (c : Char)
  | malformed
  | invalidNumber (field : Field) (text : String) (fault : NumberFault)
  | invalidIdentifier (text : String)
  | invalidMetadata (text : String)
  deriving DecidableEq

def Field.name : Field → String
  | .major => "major"
  | .minor => "minor"
  | .patch => "patch"

def NumberFault.message : NumberFault → String
  | .notANumber => "not a number"
  | .tooLarge => "too large"
  | .leadingZero => "leading zeros are not allowed"

def Error.message : Error → String
  | .blank => "The version string cannot be empty or composed entirely of whitespace"
  | .invalidCharacter c => "Invalid character " ++ Text.quoted c ++ " in version string"
  | .malformed => "The version string must have exactly three numeric components"
  | .invalidNumber field text fault =>
    "Invalid " ++ field.name ++ " version \"" ++ text ++ "\": " ++ fault.message
  | .invalidIdentifier text => "Invalid pre-release identifier \"" ++ text ++ "\""
  | .invalidMetadata text => "Invalid build metadata item \"" ++ text ++ "\""

structure Parts where
  core : List (List Char)
  identifiers : List (List Char)
  metadata : List (List Char)
  deriving DecidableEq

namespace Parts

def undotted (t : Option (List Char)) : List (List Char) :=
  t.elim [] (·.splitOn '.')

def cut (t : List Char) : Parts :=
  -- The plus sign is looked for first, so metadata may hold hyphens.
  let (head, metadata) := Text.cut '+' t
  let (core, identifiers) := Text.cut '-' head
  ⟨core.splitOn '.', undotted identifiers, undotted metadata⟩

def dotted (items : List (List Char)) : List Char :=
  ['.'].intercalate items

def labelled (mark : Char) : List (List Char) → List Char
  | [] => []
  | items => mark :: dotted items

def join (p : Parts) : List Char :=
  dotted p.core ++ labelled '-' p.identifiers ++ labelled '+' p.metadata

end Parts

inductive Mode
  | strict
  | lenient
  deriving DecidableEq

def isVersionChar (c : Char) : Bool :=
  c.isAlphanum || c == '.' || c == '-' || c == '+'

def unmarked : Mode → List Char → List Char
  | .lenient, 'v' :: t => t
  | .lenient, 'V' :: t => t
  | _, t => t

def readNumber (field : Field) (t : List Char) : Except Error UInt64 :=
  if ¬ Decimal.isNumeric t then .error (.invalidNumber field (String.ofList t) .notANumber)
  else if Decimal.hasLeadingZero t then .error (.invalidNumber field (String.ofList t) .leadingZero)
  else if h : Decimal.value t < UInt64.size then .ok (UInt64.ofNatLT (Decimal.value t) h)
  else .error (.invalidNumber field (String.ofList t) .tooLarge)

def readIdentifier (t : List Char) : Except Error Identifier :=
  (Identifier.ofChars? t).elim (.error (.invalidIdentifier (String.ofList t))) .ok

def readMetadata (t : List Char) : Except Error BuildItem :=
  (BuildItem.ofChars? t).elim (.error (.invalidMetadata (String.ofList t))) .ok

def ofLabels (major minor patch : UInt64) (identifiers metadata : List (List Char)) :
    Except Error Version := do
  let identifiers ← identifiers.mapM readIdentifier
  let metadata ← metadata.mapM readMetadata
  return ⟨major, minor, patch, identifiers, metadata⟩

def build (major minor patch : UInt64) (identifiers metadata : List String) :
    Except Error Version :=
  ofLabels major minor patch (identifiers.map String.toList) (metadata.map String.toList)

def ofParts (p : Parts) : Except Error Version :=
  match p.core with
  | [major, minor, patch] => do
    let major ← readNumber .major major
    let minor ← readNumber .minor minor
    let patch ← readNumber .patch patch
    ofLabels major minor patch p.identifiers p.metadata
  | _ => .error .malformed

def parse (mode : Mode) (s : String) : Except Error Version :=
  match Text.trim s.toList with
  | [] => .error .blank
  | t => match t.find? (!isVersionChar ·) with
    | some c => .error (.invalidCharacter c)
    | none => ofParts (.cut (unmarked mode t))

def number (n : UInt64) : List Char :=
  Decimal.digits n.toNat

def parts (v : Version) : Parts where
  core := [number v.major, number v.minor, number v.patch]
  identifiers := v.identifiers.map Identifier.chars
  metadata := v.metadata.map BuildItem.chars

def conciseParts (v : Version) : Parts where
  core := if v.patch = 0 then [number v.major, number v.minor] else v.parts.core
  identifiers := v.parts.identifiers
  metadata := []

def render (v : Version) : String :=
  String.ofList v.parts.join

def renderMarked (v : Version) : String :=
  String.ofList ('v' :: v.parts.join)

def concise (v : Version) : String :=
  String.ofList v.conciseParts.join

def conciseMarked (v : Version) : String :=
  String.ofList ('v' :: v.conciseParts.join)

end Versioning.Version
