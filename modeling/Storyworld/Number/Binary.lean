/-! The numbers of a story are doubles. Here one is taken apart into sign, significand and power of
two, put together again, and compared. Two doubles compare as their order keys do, so equality and
order cannot disagree; a number that is not a number has no key. -/

namespace Storyworld.Number

/-- What the bits of a double stand for; a finite one is significand times two to the exponent. -/
inductive Binary where
  | nan
  | infinite (negative : Bool)
  | finite (negative : Bool) (significand : Nat) (exponent : Int)
  deriving DecidableEq

def binary (x : Float) : Binary :=
  let bits := x.toBits.toNat
  let negative := bits / Nat.pow 2 63 == 1
  let exponent : Nat := bits / Nat.pow 2 52 % Nat.pow 2 11
  let fraction : Nat := bits % Nat.pow 2 52
  if exponent = 2047 then
    if fraction = 0 then .infinite negative else .nan
  else if exponent = 0 then .finite negative fraction (-1074)
  else .finite negative (Nat.pow 2 52 + fraction) (exponent - 1075)

/-- The double that is exactly significand times two to the exponent, for a significand below
two to the 53 and an exponent from -1074 that leave it representable. -/
def ofBinary (negative : Bool) (significand : Nat) (exponent : Int) : Float :=
  let sign := if negative then Nat.pow 2 63 else 0
  let shift := min (52 - significand.log2) (exponent + 1074).toNat
  let normal := significand * Nat.pow 2 shift
  let bits :=
    if normal < Nat.pow 2 52 then normal
    else (exponent - shift + 1075).toNat * Nat.pow 2 52 + (normal - Nat.pow 2 52)
  Float.ofBits (UInt64.ofNat (sign + bits))

/-- The place of a double among all doubles: its magnitude bits, negated below zero. The two zeros
share the key 0. -/
def orderKey (x : Float) : Option Int :=
  match binary x with
  | .nan => none
  | _ =>
    let magnitude : Nat := x.toBits.toNat % Nat.pow 2 63
    some (if x.toBits.toNat / Nat.pow 2 63 = 1 then -(magnitude : Int) else magnitude)

/-- Numeric equality: the zeros are equal, and nothing equals what is not a number. -/
def same (x y : Float) : Bool :=
  match orderKey x, orderKey y with
  | some a, some b => a == b
  | _, _ => false

/-- Numeric order; there is none with what is not a number. -/
def order? (x y : Float) : Option Ordering :=
  match orderKey x, orderKey y with
  | some a, some b => some (compare a b)
  | _, _ => none

def isFinite (x : Float) : Bool :=
  match binary x with
  | .finite .. => true
  | _ => false

/-- The integer that a double is, if it is one of absolute value below 9.0e15. -/
def integer? (x : Float) : Option Int :=
  match binary x with
  | .finite negative m q =>
    let whole := if 0 ≤ q then m * Nat.pow 2 q.toNat else m / Nat.pow 2 (-q).toNat
    let exact := 0 ≤ q || m % Nat.pow 2 (-q).toNat == 0
    if exact && whole < 9000000000000000 then some (if negative then -whole else whole) else none
  | _ => none

theorem order?_swap (x y : Float) : order? y x = (order? x y).map Ordering.swap := by
  unfold order?
  cases orderKey x <;> cases orderKey y <;> simp [Int.compare_swap]

theorem same_iff_order? (x y : Float) : same x y = true ↔ order? x y = some .eq := by
  unfold same order?
  cases orderKey x <;> cases orderKey y <;> simp

end Storyworld.Number
