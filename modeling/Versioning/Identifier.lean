namespace Versioning

namespace Decimal

def isNumeric (t : List Char) : Bool :=
  !t.isEmpty && t.all Char.isDigit

def value (t : List Char) : Nat :=
  Nat.ofDigitChars 10 t 0

def digits (n : Nat) : List Char :=
  Nat.toDigits 10 n

def hasLeadingZero : List Char → Bool
  | '0' :: _ :: _ => true
  | _ => false

/-- Digit words in the order of their values, found without computing these: once leading zeros
are gone, the longer word is greater, and words of one length compare digit by digit. -/
def compareDigits (a b : List Char) : Ordering :=
  let a := a.dropWhile (· == '0')
  let b := b.dropWhile (· == '0')
  (compare a.length b.length).then (compare a b)

theorem value_digits (n : Nat) : value (digits n) = n :=
  Nat.ofDigitChars_toDigits (by decide) (by decide)

end Decimal

def isItemChar (c : Char) : Bool :=
  c.isAlphanum || c == '-'

def isItem (t : List Char) : Bool :=
  !t.isEmpty && t.all isItemChar

def isIdentifier (t : List Char) : Bool :=
  isItem t && !(Decimal.isNumeric t && Decimal.hasLeadingZero t)

structure Identifier where
  chars : List Char
  valid : isIdentifier chars
  deriving DecidableEq

structure BuildItem where
  chars : List Char
  valid : isItem chars
  deriving DecidableEq

namespace Identifier

def ofChars? (t : List Char) : Option Identifier :=
  if h : isIdentifier t then some ⟨t, h⟩ else none

def text (i : Identifier) : String :=
  String.ofList i.chars

def isNumeric (i : Identifier) : Bool :=
  Decimal.isNumeric i.chars

def precedence (a b : Identifier) : Ordering :=
  match a.isNumeric, b.isNumeric with
  | true, true => Decimal.compareDigits a.chars b.chars
  | true, false => .lt
  | false, true => .gt
  | false, false => compare a.chars b.chars

end Identifier

namespace BuildItem

def ofChars? (t : List Char) : Option BuildItem :=
  if h : isItem t then some ⟨t, h⟩ else none

def text (i : BuildItem) : String :=
  String.ofList i.chars

end BuildItem

end Versioning
