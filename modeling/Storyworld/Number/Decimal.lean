import Storyworld.Number.Numeral

/-! Decimal texts and the doubles nearest to them. A decimal has an optional sign, digits with at
most one point among or beside them, and an optional exponent. -/

namespace Storyworld.Number

/-- A decimal as written: `significand` times ten to the `exponent`. -/
structure Decimal where
  negative : Bool
  significand : Nat
  exponent : Int
  deriving DecidableEq

def signed : List Char → Bool × List Char
  | '-' :: cs => (true, cs)
  | '+' :: cs => (false, cs)
  | cs => (false, cs)

def exponent? (cs : List Char) : Option Int :=
  let (negative, digits) := signed cs
  if digits.isEmpty || !digits.all Char.isDigit then none
  else some (if negative then -(wholeFrom 0 digits : Int) else wholeFrom 0 digits)

def Decimal.ofText? (cs : List Char) : Option Decimal :=
  let (negative, unsigned) := signed cs
  let whole := unsigned.takeWhile Char.isDigit
  let afterWhole := unsigned.dropWhile Char.isDigit
  let (fraction, rest) :=
    match afterWhole with
    | '.' :: cs => (cs.takeWhile Char.isDigit, cs.dropWhile Char.isDigit)
    | cs => ([], cs)
  let power? :=
    match rest with
    | [] => some 0
    | c :: cs => if c = 'e' ∨ c = 'E' then exponent? cs else none
  if whole.isEmpty && fraction.isEmpty then none
  else power?.map fun power =>
    ⟨negative, wholeFrom (wholeFrom 0 whole) fraction, power - fraction.length⟩

/-- The double nearest to a decimal, ties to even. Values beyond every double, whose power of ten
need not be computed, are decided by the place of their first digit. -/
def Decimal.toFloat (d : Decimal) : Float :=
  let first : Int := d.exponent + (Nat.toDigits 10 d.significand).length
  let magnitude : Float :=
    if d.significand = 0 ∨ first < -400 then 0.0
    else if 400 < first then Float.ofBits 0x7FF0000000000000
    else if d.exponent < 0 then Float.ofScientific d.significand true d.exponent.natAbs
    else Float.ofScientific d.significand false d.exponent.natAbs
  if d.negative then -magnitude else magnitude

def ofText? (cs : List Char) : Option Float :=
  (Decimal.ofText? cs).map Decimal.toFloat

end Storyworld.Number
