import Storyworld.Number.Binary

/-! The fewest decimal digits that read back as the same double, and of those the nearest to it.

A double stands for every real number that rounds to it: an interval from halfway to its lower
neighbour to halfway to its upper one, ends included when its significand is even. For one digit,
two digits and so on, the two grid points around the value are tried in exact arithmetic; the first
grid with a point inside the interval wins. Seventeen digits always suffice. -/

namespace Storyworld.Number

/-- Which of two equally near candidates is taken. -/
inductive Tie where
  | up
  | even
  deriving DecidableEq

/-- A positive decimal: `digits` times ten to the `exponent`. -/
structure Digits where
  digits : Nat
  exponent : Int
  deriving DecidableEq

/-- A positive double scaled to whole numbers: the value and the ends of its interval, all over
one denominator. -/
structure Scaled where
  value : Nat
  low : Nat
  high : Nat
  denominator : Nat
  inclusive : Bool

/-- The interval of a positive double. Below a power of two the neighbour is half as far away. -/
def Scaled.ofBinary (m : Nat) (q : Int) : Scaled :=
  let up := Nat.pow 2 (q - 2).toNat
  let gap := if m = Nat.pow 2 52 ∧ -1074 < q then 1 else 2
  { value := 4 * m * up
    low := (4 * m - gap) * up
    high := (4 * m + 2) * up
    denominator := Nat.pow 2 (2 - q).toNat
    inclusive := m % 2 == 0 }

/-- Counts the zeros between the point and the first digit of a value below one. -/
def leadingZeros (denominator : Nat) : Nat → Nat → Nat
  | 0, _ => 0
  | fuel + 1, value =>
    if denominator ≤ value * 10 then 0 else leadingZeros denominator fuel (value * 10) + 1

def Scaled.magnitude (s : Scaled) : Int :=
  if s.denominator ≤ s.value then ((Nat.toDigits 10 (s.value / s.denominator)).length : Int) - 1
  else -1 - (leadingZeros s.denominator 400 s.value : Int)

def Scaled.inUnits (s : Scaled) (exponent : Int) : Scaled :=
  let up := Nat.pow 10 (-exponent).toNat
  { s with
    value := s.value * up
    low := s.low * up
    high := s.high * up
    denominator := s.denominator * Nat.pow 10 exponent.toNat }

def Scaled.holds (s : Scaled) (n : Nat) : Bool :=
  let point := n * s.denominator
  if s.inclusive then s.low ≤ point && point ≤ s.high else s.low < point && point < s.high

/-- The nearest of the two grid points around the value that lies in the interval. -/
def Scaled.candidate? (s : Scaled) (tie : Tie) : Option Nat :=
  let below := s.value / s.denominator
  let rest := 2 * (s.value % s.denominator)
  let upper :=
    if rest = s.denominator then tie == .up || below % 2 == 1 else s.denominator < rest
  match s.holds below, s.holds (below + 1) with
  | true, true => some (if upper then below + 1 else below)
  | true, false => some below
  | false, true => some (below + 1)
  | false, false => none

/-- Drops the zeros that a whole number ends with. -/
def Digits.normal (exponent : Int) : Nat → Nat → Digits
  | 0, n => ⟨n, exponent⟩
  | fuel + 1, n => if n ≠ 0 ∧ n % 10 = 0 then Digits.normal (exponent + 1) fuel (n / 10) else ⟨n, exponent⟩

/-- Tries grids of `count`, `count + 1`, … digits. -/
def Scaled.search (s : Scaled) (tie : Tie) : Nat → Nat → Digits
  | 0, _ => ⟨0, 0⟩
  | fuel + 1, count =>
    let exponent := s.magnitude - count + 1
    match (s.inUnits exponent).candidate? tie with
    | some n => Digits.normal exponent 20 n
    | none => s.search tie fuel (count + 1)

/-- The shortest decimal for a positive double, the nearest of that length. -/
def shortest (tie : Tie) (m : Nat) (q : Int) : Digits :=
  (Scaled.ofBinary m q).search tie 18 1

end Storyworld.Number
