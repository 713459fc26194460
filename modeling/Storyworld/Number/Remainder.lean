import Storyworld.Number.Binary

/-! The exact remainder of two doubles, with the sign of the dividend. Over a common power of two
both are whole numbers, and the remainder of those is again representable. -/

namespace Storyworld.Number

def undefinedNumber : Float :=
  Float.ofBits 0x7FF8000000000000

/-- What is left of `x` after taking away the largest whole multiple of `y` toward zero. -/
def remainder (x y : Float) : Float :=
  match binary x, binary y with
  | .finite negative m q, .finite _ n p =>
    if n = 0 then undefinedNumber
    else
      let base := min q p
      let rest := m * Nat.pow 2 (q - base).toNat % (n * Nat.pow 2 (p - base).toNat)
      ofBinary negative rest base
  | .finite .., .infinite _ => x
  | _, _ => undefinedNumber

end Storyworld.Number
