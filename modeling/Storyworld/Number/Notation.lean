import Storyworld.Number.Numeral
import Storyworld.Number.Shortest

/-! How the digits of a number are laid out: plain positional text for players and authors, and the
exponent form that documents fall back to for very large and very small numbers. -/

namespace Storyworld.Number

/-- The decisions of one way to write a number. `positional` says for which powers of ten of the
first digit no exponent is written. -/
structure Layout where
  tie : Tie
  positional : Int → Bool
  pointZero : Bool

/-- Numbers shown to a player: never an exponent, never an idle fraction. -/
def Layout.shown : Layout :=
  ⟨.up, fun _ => true, false⟩

/-- Numbers of a document that are not written as integers. -/
def Layout.stored : Layout :=
  ⟨.even, fun e => -5 ≤ e && e ≤ 15, true⟩

/-- Digits with the point `point` places after the first of them begins. -/
def withPoint (pointZero negative : Bool) (digits : List Char) (point : Int) : Numeral :=
  if point ≤ 0 then ⟨negative, ['0'], List.replicate (-point).toNat '0' ++ digits, none⟩
  else if digits.length ≤ point then
    ⟨negative, digits ++ List.replicate (point - digits.length).toNat '0',
      if pointZero then ['0'] else [], none⟩
  else ⟨negative, digits.take point.toNat, digits.drop point.toNat, none⟩

/-- Digits with the point after the first of them, and a power of ten. -/
def withExponent (negative : Bool) (digits : List Char) (magnitude : Int) : Numeral :=
  ⟨negative, digits.take 1, digits.drop 1, some magnitude⟩

def Layout.finite (l : Layout) (negative : Bool) (m : Nat) (q : Int) : Numeral :=
  if m = 0 then ⟨negative, ['0'], if l.pointZero then ['0'] else [], none⟩
  else
    let d := shortest l.tie m q
    let digits := Nat.toDigits 10 d.digits
    let magnitude := d.exponent + digits.length - 1
    if l.positional magnitude then withPoint l.pointZero negative digits (magnitude + 1)
    else withExponent negative digits magnitude

def plain (x : Float) : String :=
  match binary x with
  | .nan => "NaN"
  | .infinite negative => if negative then "-inf" else "inf"
  | .finite negative m q => String.ofList (Layout.shown.finite negative m q).text

/-- The text a player sees: integers without a fraction or a sign on zero. -/
def shown (x : Float) : String :=
  match integer? x with
  | some i => toString i
  | none => plain x

/-- The numeral that a document holds for a double; infinities have none. -/
def stored? (x : Float) : Option Numeral :=
  match integer? x, binary x with
  | some i, _ => some (.ofInt i)
  | none, .finite negative m q => some (Layout.stored.finite negative m q)
  | none, _ => none

end Storyworld.Number
