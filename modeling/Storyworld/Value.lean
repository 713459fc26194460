import Storyworld.Json.Decoder
import Storyworld.Number.Decimal
import Storyworld.Number.Notation
import Storyworld.Text.Blank

/-! The scalars that conditions, expressions and variables are about. Values of different types are
compared as numbers; equality and order are loose in the same way, so they never disagree. -/

namespace Storyworld

inductive Value where
  | bool (b : Bool)
  | number (x : Float)
  | text (s : String)

namespace Value

def isNumericChar (c : Char) : Bool :=
  c.isDigit || c == '.' || c == 'e' || c == 'E' || c == '+' || c == '-'

/-- The number that a text writes, blanks around it aside. Names of numbers, such as that of
infinity, are texts. -/
def numberOf? (cs : List Char) : Option Float :=
  let cs := Text.trim cs
  if cs.all isNumericChar then Number.ofText? cs else none

def isTruthy : Value → Bool
  | .bool b => b
  | .number x =>
    match Number.orderKey x with
    | some k => k != 0
    | none => false
  | .text s => s != ""

/-- The value as a number: blank text is zero, other text has to write one. -/
def toNumber? : Value → Option Float
  | .bool b => some (if b then 1.0 else 0.0)
  | .number x => some x
  | .text s => if Text.isBlankText s then some 0.0 else numberOf? s.toList

/-- The value of an unquoted literal: a number, a boolean, or else the text itself. -/
def literal (s : String) : Value :=
  match numberOf? s.toList with
  | some x => .number x
  | none => if s = "true" then .bool true else if s = "false" then .bool false else .text s

/-- Equality, numeric between different types. -/
def looseEq : Value → Value → Bool
  | .bool a, .bool b => a == b
  | .number a, .number b => Number.same a b
  | .text a, .text b => a == b
  | v, w =>
    match v.toNumber?, w.toNumber? with
    | some a, some b => Number.same a b
    | _, _ => false

/-- Order, numeric between different types; some values have none. -/
def looseOrder? : Value → Value → Option Ordering
  | .bool a, .bool b => some (compare a b)
  | .number a, .number b => Number.order? a b
  | .text a, .text b => some (compare a b)
  | v, w =>
    match v.toNumber?, w.toNumber? with
    | some a, some b => Number.order? a b
    | _, _ => none

def shown : Value → String
  | .bool b => if b then "true" else "false"
  | .number x => Number.shown x
  | .text s => s

/-- Whether two values are the same, numbers by numeric equality. -/
def same : Value → Value → Bool
  | .bool a, .bool b => a == b
  | .number a, .number b => Number.same a b
  | .text a, .text b => a == b
  | _, _ => false

instance : BEq Value := ⟨same⟩

/-- The value in a document; a number that has no numeral there is null. -/
def toJson : Value → Json
  | .bool b => .bool b
  | .number x =>
    match Number.stored? x with
    | some n => .number n
    | none => .null
  | .text s => .whole s

def decode : Json.Decoder Value
  | _, .bool b => some (.bool b)
  | _, .number n => n.toFloat?.map .number
  | _, .string s => s.map .text
  | _, _ => none

end Value

end Storyworld
