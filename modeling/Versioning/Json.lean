import Versioning.Range.Reader

namespace Versioning

inductive Json
  | null
  | bool (b : Bool)
  | number (n : Int)
  /-- A number that is no integer, by its shortest decimal text. -/
  | decimal (text : String)
  | string (s : String)
  | array (items : List Json)
  | object (fields : List (String × Json))

namespace Json

inductive Error (ε : Type)
  | notText (value : Json)
  | refused (cause : ε)

def describe : Json → String
  | .null => "null"
  | .bool b => "boolean \x60" ++ (if b then "true" else "false") ++ "\x60"
  | .number n => "integer \x60" ++ toString n ++ "\x60"
  | .decimal text => "floating point \x60" ++ text ++ "\x60"
  | .string s => "string \"" ++ s ++ "\""
  | .array _ => "sequence"
  | .object _ => "map"

def Error.message {ε : Type} (wording : ε → String) : Error ε → String
  | .notText value => "invalid type: " ++ value.describe ++ ", expected a string"
  | .refused cause => wording cause

def decode {ε α : Type} (parse : String → Except ε α) : Json → Except (Error ε) α
  | .string s => (parse s).mapError .refused
  | value => .error (.notText value)

end Json

namespace Version

def ofJson : Json → Except (Json.Error Error) Version :=
  Json.decode (parse .strict)

def toJson (v : Version) : Json :=
  .string v.render

end Version

namespace Range

def ofJson : Json → Except (Json.Error Error) Range :=
  Json.decode parse

def toJson (r : Range) : Json :=
  .string r.render

end Range

end Versioning
