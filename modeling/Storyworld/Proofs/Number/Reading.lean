import Storyworld.Number.Decimal
import Storyworld.Proofs.Number.Whole

/-! # What is written is a number

Reading a decimal takes a whole number times or over a power of ten, and neither of these is ever
undefined: the power is finite and not zero, whatever the other is. So no text reads as a double that
is not a number (`isNumber_of_ofText?`).
-/

namespace Storyworld.Number

open Float.Model (Format UnpackedFloat)
open Float.Model.UnpackedFloat (Sign)

/-! ## The bits of what is not a number -/

theorem toNat_unpackExponent (b : BitVec 64) :
    (@UnpackedFloat.unpackExponent .binary64 b).toNat = b.toNat / 2 ^ 52 % 2 ^ 11 := by
  rw [UnpackedFloat.unpackExponent, BitVec.toNat_cast, BitVec.extractLsb_toNat,
    Nat.shiftRight_eq_div_pow]
  rfl

theorem toNat_unpackMantissa (b : BitVec 64) :
    (@UnpackedFloat.unpackMantissa .binary64 b).toNat = b.toNat % 2 ^ 52 := by
  rw [UnpackedFloat.unpackMantissa, BitVec.toNat_cast, BitVec.extractLsb_toNat,
    Nat.shiftRight_eq_div_pow, Nat.pow_zero, Nat.div_one]
  rfl

theorem unpack_eq_notANumber_iff (b : BitVec 64) :
    UnpackedFloat.unpack .binary64 b = .notANumber ↔
      @UnpackedFloat.unpackExponent .binary64 b = -1#11 ∧
        @UnpackedFloat.unpackMantissa .binary64 b ≠ 0#52 := by
  unfold UnpackedFloat.unpack
  constructor
  · intro h
    dsimp only at h
    split at h
    · split at h
      · cases h
      · exact ⟨‹_›, ‹_›⟩
    · split at h
      · split at h <;> cases h
      · cases h
  · rintro ⟨hexponent, hmantissa⟩
    dsimp only
    rw [if_pos hexponent, if_neg hmantissa]

theorem binary_eq_nan_iff (x : Float) : binary x = .nan ↔ x.toModel.unpack = .notANumber := by
  have hunpack : x.toModel.unpack = .notANumber ↔ _ := unpack_eq_notANumber_iff x.toBits.toBitVec
  have hall : (-1#11).toNat = 2047 := rfl
  have hnone : (0#52).toNat = 0 := rfl
  rw [hunpack, ← BitVec.toNat_inj, ← BitVec.toNat_ne_iff_ne, hall, hnone, toNat_unpackExponent,
    toNat_unpackMantissa]
  change _ ↔ x.toBits.toNat / 2 ^ 52 % 2 ^ 11 = 2047 ∧ x.toBits.toNat % 2 ^ 52 ≠ 0
  unfold binary
  simp only [pow_52, pow_63, pow_11]
  split
  · split <;> simp_all
  · split <;> simp_all

theorem orderKey_eq_none_iff (x : Float) : orderKey x = none ↔ binary x = .nan := by
  unfold orderKey
  cases binary x <;> simp

/-! ## Computing with numbers -/

/-- A double that is a number, infinite ones included. -/
def IsNumber (x : Float) : Prop :=
  x.toModel.unpack ≠ .notANumber

theorem isNumber_iff (x : Float) : IsNumber x ↔ binary x ≠ .nan :=
  (not_congr (binary_eq_nan_iff x)).symm

theorem order?_eq_none_iff (x y : Float) : order? x y = none ↔ ¬IsNumber x ∨ ¬IsNumber y := by
  rw [isNumber_iff, isNumber_iff, not_not, not_not, ← orderKey_eq_none_iff,
    ← orderKey_eq_none_iff]
  unfold order?
  cases orderKey x <;> cases orderKey y <;> simp

theorem unpack_packComponents_ne (sign : Sign) {exponent : BitVec 11} {mantissa : BitVec 52}
    (h : exponent = -1#11 → mantissa = 0#52) : UnpackedFloat.unpack .binary64
      (UnpackedFloat.packComponents .binary64 sign exponent mantissa) ≠ .notANumber := by
  have hiff := unpack_eq_notANumber_iff
    (UnpackedFloat.packComponents .binary64 sign exponent mantissa)
  rw [UnpackedFloat.unpackExponent_packComponents,
    UnpackedFloat.unpackMantissa_packComponents] at hiff
  exact fun hnan => (hiff.mp hnan).2 (h (hiff.mp hnan).1)

/-- Packing makes numbers of numbers, infinite ones where the exponent is too large. -/
theorem isNumber_pack {u : UnpackedFloat} (h : u ≠ .notANumber) : IsNumber (.ofModel (.pack u)) := by
  change UnpackedFloat.unpack .binary64 (UnpackedFloat.pack .binary64 u) ≠ .notANumber
  fun_cases UnpackedFloat.pack Format.binary64 u with
  | case1 => exact absurd rfl h
  | case2 s => exact unpack_packComponents_ne s fun _ => rfl
  | case3 s => exact unpack_packComponents_ne s fun _ => rfl
  | case4 s m e hm biased hlarge => exact unpack_packComponents_ne s fun _ => rfl
  | case5 s m e hm actual biased hsmall hnormal =>
    have hbiased : (BitVec.ofNat 11 biased).toNat ≠ (-1#11).toNat := by
      have hall : (-1#11).toNat = 2047 := rfl
      have hlimit : ¬2 ^ 11 ≤ biased + 1 := hsmall
      rw [BitVec.toNat_ofNat, hall]
      omega
    exact unpack_packComponents_ne s fun heq => absurd (congrArg BitVec.toNat heq) hbiased
  | case6 s m e hm actual biased hsmall hnormal =>
    exact unpack_packComponents_ne s fun heq => absurd heq (by decide)

theorem IsNumber.neg {x : Float} (h : IsNumber x) : IsNumber (-x) := by
  refine isNumber_pack (u := x.toModel.unpack.neg) ?_
  unfold IsNumber at h
  cases hx : x.toModel.unpack with
  | notANumber => exact absurd hx h
  | infinity | zero | finite => exact nofun

/-- Neither zero nor infinite. -/
inductive IsPositional : UnpackedFloat → Prop
  | finite (sign : Sign) (m : Nat) (q : Int) (h : 0 < m) : IsPositional (.finite sign m q h)

theorem roundWithAccuracy_ne (sign : Sign) (m : Nat) (q : Int)
    (accuracy : UnpackedFloat.Accuracy) :
    UnpackedFloat.roundWithAccuracy .binary64 sign m q accuracy ≠ .notANumber := by
  unfold UnpackedFloat.roundWithAccuracy
  dsimp only
  split <;> exact nofun

theorem mul_ne {u v : UnpackedFloat} (hu : u ≠ .notANumber) (hv : IsPositional v) :
    UnpackedFloat.mul .binary64 u v ≠ .notANumber := by
  obtain ⟨sign, m, q, h⟩ := hv
  cases u with
  | notANumber => exact absurd rfl hu
  | infinity | zero => exact nofun
  | finite => exact roundWithAccuracy_ne _ _ _ _

theorem div_ne {u v : UnpackedFloat} (hu : u ≠ .notANumber) (hv : IsPositional v) :
    UnpackedFloat.div .binary64 u v ≠ .notANumber := by
  obtain ⟨sign, m, q, h⟩ := hv
  cases u with
  | notANumber => exact absurd rfl hu
  | infinity | zero => exact nofun
  | finite => exact roundWithAccuracy_ne _ _ _ _

theorem normalize_ne (n : Int) :
    UnpackedFloat.normalize .binary64 n 0 .positive ≠ .notANumber := by
  unfold UnpackedFloat.normalize
  split
  · exact roundWithAccuracy_ne _ _ _ _
  · exact nofun
  · exact roundWithAccuracy_ne _ _ _ _

theorem ofScientific_ne (m : Nat) (e : Int) :
    UnpackedFloat.ofScientific .binary64 m e ≠ .notANumber := by
  unfold UnpackedFloat.ofScientific
  split
  · exact nofun
  split
  · exact nofun
  split
  · exact nofun
  split
  · exact mul_ne nofun (.finite ..)
  · exact div_ne nofun (.finite ..)

instance : DecidablePred IsPositional
  | .finite sign m q h => .isTrue (.finite sign m q h)
  | .infinity _ | .notANumber | .zero _ => .isFalse nofun

theorem isPositional_powerOfTen : ∀ x ∈ Float.exactlyRepresentablePowersOfTen,
    IsPositional x.toModel.unpack := by
  decide +kernel

theorem isNumber_ofScientific (m : Nat) (s : Bool) (e : Nat) : IsNumber (.ofScientific m s e) := by
  have hwhole : IsNumber m.toUInt64.toFloat := isNumber_pack (normalize_ne _)
  unfold Float.ofScientific
  split
  · dsimp only
    split
    · exact isNumber_pack (div_ne hwhole (isPositional_powerOfTen _ (Array.getElem_mem _)))
    · exact isNumber_pack (mul_ne hwhole (isPositional_powerOfTen _ (Array.getElem_mem _)))
  · exact isNumber_pack (ofScientific_ne _ _)

theorem Decimal.isNumber_toFloat (d : Decimal) : IsNumber d.toFloat := by
  have hmagnitude (first : Int) : IsNumber
      (if d.significand = 0 ∨ first < -400 then 0.0
        else if 400 < first then Float.ofBits 0x7FF0000000000000
        else if d.exponent < 0 then Float.ofScientific d.significand true d.exponent.natAbs
        else Float.ofScientific d.significand false d.exponent.natAbs) := by
    split
    · exact isNumber_ofScientific 0 true 1
    split
    · exact nofun
    split <;> exact isNumber_ofScientific _ _ _
  unfold toFloat
  dsimp only
  split
  · exact (hmagnitude _).neg
  · exact hmagnitude _

/-- **No text reads as what is not a number.** -/
theorem isNumber_of_ofText? {cs : List Char} {x : Float} (h : ofText? cs = some x) : IsNumber x := by
  obtain ⟨d, -, rfl⟩ := Option.map_eq_some_iff.mp h
  exact d.isNumber_toFloat

end Storyworld.Number
