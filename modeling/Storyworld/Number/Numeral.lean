import Storyworld.Number.Binary

/-! A number as written in a document: sign, digits before the point, digits after it, and a power of
ten. Reading one gathers its digits in a significand of 64 bits and scales that once by a power of
ten, so a numeral with many digits may read as a neighbour of the nearest double. -/

namespace Storyworld.Number

/-- A written number; without a fraction no point is written. -/
structure Numeral where
  negative : Bool
  whole : List Char
  fraction : List Char
  exponent : Option Int
  deriving DecidableEq

def exponentText : Option Int → List Char
  | none => []
  | some e => 'e' :: (if e < 0 then '-' else '+') :: Nat.toDigits 10 e.natAbs

def Numeral.text (n : Numeral) : List Char :=
  (if n.negative then ['-'] else []) ++ n.whole ++
    (if n.fraction.isEmpty then [] else '.' :: n.fraction) ++ exponentText n.exponent

def Numeral.ofInt (i : Int) : Numeral :=
  ⟨i < 0, Nat.toDigits 10 i.natAbs, [], none⟩

def digitValue (c : Char) : Nat :=
  c.toNat - '0'.toNat

/-- The whole number that decimal digits write, after those already read. -/
def wholeFrom (n : Nat) (digits : List Char) : Nat :=
  digits.foldl (fun n c => n * 10 + digitValue c) n

def significandLimit : Nat :=
  Nat.pow 2 64 - 1

/-- Gathers digits while they fit; gives the significand and the digits left over. -/
def gather (significand : Nat) : List Char → Nat × List Char
  | [] => (significand, [])
  | c :: cs =>
    let next := significand * 10 + digitValue c
    if significandLimit < next then (significand, c :: cs) else gather next cs

def powerOfTen (n : Nat) : Float :=
  Float.ofScientific 1 false n

/-- Divides by a power of ten, in steps of the largest that a double holds. -/
def scaleDown : Nat → Float → Nat → Float
  | 0, f, _ => f
  | fuel + 1, f, n =>
    if n ≤ 308 then f / powerOfTen n else scaleDown fuel (f / powerOfTen 308) (n - 308)

/-- A significand times a power of ten; nothing if that is beyond the largest double. -/
def scale? (significand : Nat) (exponent : Int) : Option Float :=
  let f := Float.ofScientific significand false 0
  if exponent < 0 then some (scaleDown 4 f exponent.natAbs)
  else if exponent ≤ 308 then
    let scaled := f * powerOfTen exponent.toNat
    if isFinite scaled then some scaled else none
  else if significand = 0 then some f
  else none

/-- The double that a numeral reads as; nothing if it is too large for one. -/
def Numeral.toFloat? (n : Numeral) : Option Float :=
  let (whole, wholeLeft) := gather 0 n.whole
  let (significand, fractionLeft) := gather whole n.fraction
  let used := n.fraction.length - fractionLeft.length
  let exponent : Int := wholeLeft.length - used + n.exponent.getD 0
  (scale? significand exponent).map fun f => if n.negative then -f else f

end Storyworld.Number
