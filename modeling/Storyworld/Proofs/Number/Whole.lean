import Mathlib
import Storyworld.Proofs.Number.Stored

/-! # Whole numbers are kept as they are

A double that is a whole number below 9.0e15 is stored as an integer, and the double that the integer
reads as is the same one (`readsBack_of_integer?`): on the way there is no rounding, for the integer
has no more digits than a significand holds.
-/

namespace Storyworld.Number

open Float.Model (Format UnpackedFloat)
open Float.Model.UnpackedFloat (Sign packComponents)

/-! ## The bits of a double -/

/-- A significand that has all its bits, and an exponent that fits. -/
structure IsNormal (m : Nat) (q : Int) : Prop where
  low : 2 ^ 52 ≤ m
  high : m < 2 ^ 53
  smallest : -1074 ≤ q
  largest : q ≤ 971

/-- The bits of a double, of which the significand has all its bits. -/
def bitsOf (negative : Bool) (m : Nat) (q : Int) : Nat :=
  negative.toNat * 2 ^ 63 + (q + 1075).toNat * 2 ^ 52 + (m - 2 ^ 52)

theorem pow_52 : Nat.pow 2 52 = 2 ^ 52 := rfl

theorem pow_63 : Nat.pow 2 63 = 2 ^ 63 := rfl

theorem pow_11 : Nat.pow 2 11 = 2 ^ 11 := rfl

theorem beq_one_toNat (b : Bool) : (b.toNat == 1) = b := by
  cases b <;> rfl

theorem binary_of_toBits {x : Float} {negative : Bool} {m : Nat} {q : Int} (h : IsNormal m q)
    (hbits : x.toBits.toNat = bitsOf negative m q) : binary x = .finite negative m q := by
  obtain ⟨hlow, hhigh, hsmallest, hlargest⟩ := h
  have hbool := negative.toNat_le
  unfold bitsOf at hbits
  have hsign : x.toBits.toNat / 2 ^ 63 = negative.toNat := by omega
  have hexponent : x.toBits.toNat / 2 ^ 52 % 2 ^ 11 = (q + 1075).toNat := by omega
  have hfraction : x.toBits.toNat % 2 ^ 52 = m - 2 ^ 52 := by omega
  have hsignificand : 2 ^ 52 + (m - 2 ^ 52) = m := by omega
  have hlast : ((q + 1075).toNat : Int) - 1075 = q := by omega
  have hnormal : ¬(q + 1075).toNat = 2047 ∧ ¬(q + 1075).toNat = 0 := by omega
  unfold binary
  dsimp only
  rw [pow_52, pow_63, pow_11, hsign, hexponent, hfraction, hsignificand, hlast, beq_one_toNat,
    if_neg hnormal.1, if_neg hnormal.2]

/-- The parts tell the bits. -/
theorem toBits_of_binary {x : Float} {negative : Bool} {m : Nat} {q : Int}
    (h : binary x = .finite negative m q) :
    (m < 2 ^ 52 ∧ q = -1074 ∧ x.toBits.toNat = negative.toNat * 2 ^ 63 + m) ∨
      (IsNormal m q ∧ x.toBits.toNat = bitsOf negative m q) := by
  have hlt : x.toBits.toNat < 2 ^ 64 := x.toBits.toNat_lt
  have hsign : (x.toBits.toNat / 2 ^ 63 == 1).toNat = x.toBits.toNat / 2 ^ 63 := by
    have hcases : x.toBits.toNat / 2 ^ 63 = 0 ∨ x.toBits.toNat / 2 ^ 63 = 1 := by omega
    obtain h | h := hcases <;> rw [h] <;> rfl
  simp only [binary, pow_52, pow_63, pow_11] at h
  split at h
  · split at h <;> cases h
  split at h
  · obtain ⟨hnegative, hm, hq⟩ := Binary.finite.inj h
    rw [hnegative] at hsign
    exact .inl ⟨by omega, by omega, by omega⟩
  · obtain ⟨hnegative, hm, hq⟩ := Binary.finite.inj h
    rw [hnegative] at hsign
    unfold bitsOf
    exact .inr ⟨⟨by omega, by omega, by omega, by omega⟩, by omega⟩

/-! ## A double put together -/

def signOf : Bool → Sign
  | true => .negative
  | false => .positive

theorem IsNormal.pos {m : Nat} {q : Int} (h : IsNormal m q) : 0 < m :=
  Nat.lt_of_lt_of_le (Nat.two_pow_pos 52) h.low

theorem IsNormal.log2 {m : Nat} {q : Int} (h : IsNormal m q) : m.log2 = 52 :=
  (Nat.log2_eq_iff (Nat.ne_of_gt h.pos)).mpr ⟨h.low, h.high⟩

/-- The double of a sign, a significand and an exponent. -/
def ofParts (negative : Bool) {m : Nat} {q : Int} (h : IsNormal m q) : Float :=
  .ofModel (.pack (.finite (signOf negative) m q h.pos))

theorem toNat_sign (negative : Bool) : (signOf negative).toBitVec.toNat = negative.toNat := by
  cases negative <;> rfl

theorem toNat_append {n k : Nat} (x : BitVec n) (y : BitVec k) :
    (x ++ y).toNat = x.toNat * 2 ^ k + y.toNat := by
  rw [BitVec.toNat_append, ← Nat.shiftLeft_add_eq_or_of_lt y.isLt, Nat.shiftLeft_eq]

section

variable {negative : Bool} {m : Nat} {q : Int} (h : IsNormal m q)

include h

theorem pack_eq : UnpackedFloat.pack .binary64 (.finite (signOf negative) m q h.pos) =
    packComponents .binary64 (signOf negative) (BitVec.ofNat 11 (q + 1075).toNat)
      (BitVec.ofNat 52 m) := by
  have hbias : Format.binary64.exponentBias = 1023 := rfl
  have hexponent : (q + (1023 : Nat) + (52 : Nat)).toNat = (q + 1075).toNat := by omega
  have hsmall : ¬2 ^ 11 ≤ (q + 1075).toNat + 1 := by
    have hlargest := h.largest
    omega
  have hall : Format.binary64.mantissaBits = 53 := rfl
  simp only [UnpackedFloat.pack, hbias, hexponent, h.log2, hall]
  rw [if_neg hsmall, if_pos trivial]

theorem toBits_ofParts : (ofParts negative h).toBits.toNat = bitsOf negative m q := by
  have hbits : (ofParts negative h).toBits.toNat =
      (UnpackedFloat.pack .binary64 (.finite (signOf negative) m q h.pos)).toNat := rfl
  have hlow := h.low
  have hhigh := h.high
  have hsmallest := h.smallest
  have hlargest := h.largest
  rw [hbits, pack_eq h, packComponents, toNat_append, toNat_append, toNat_sign,
    BitVec.toNat_ofNat, BitVec.toNat_ofNat]
  unfold bitsOf
  omega

theorem binary_ofParts : binary (ofParts negative h) = .finite negative m q :=
  binary_of_toBits h (toBits_ofParts h)

theorem unpack_ofParts :
    (ofParts negative h).toModel.unpack = .finite (signOf negative) m q h.pos := by
  have hunpack : (ofParts negative h).toModel.unpack = UnpackedFloat.unpack .binary64
      (UnpackedFloat.pack .binary64 (.finite (signOf negative) m q h.pos)) := rfl
  rw [hunpack, pack_eq h]
  have hlow := h.low
  have hhigh := h.high
  have hsmallest := h.smallest
  have hlargest := h.largest
  have hexponent : (BitVec.ofNat 11 (q + 1075).toNat).toNat = (q + 1075).toNat := by
    rw [BitVec.toNat_ofNat]
    omega
  have hall : BitVec.ofNat 11 (q + 1075).toNat ≠ -1#11 := by
    intro heq
    have hmax : (-1#11).toNat = 2047 := rfl
    rw [heq, hmax] at hexponent
    omega
  have hnone : BitVec.ofNat 11 (q + 1075).toNat ≠ 0#11 := by
    intro heq
    have hzero : (0#11).toNat = 0 := rfl
    rw [heq, hzero] at hexponent
    omega
  have hsignificand : (1#1 ++ BitVec.ofNat 52 m).toNat = m := by
    rw [toNat_append, BitVec.toNat_ofNat, BitVec.toNat_ofNat]
    omega
  have hbias : (Format.binary64.exponentBias : Int) + (52 : Nat) = 1075 := rfl
  unfold UnpackedFloat.unpack
  simp only [UnpackedFloat.unpackMantissa_packComponents,
    UnpackedFloat.unpackExponent_packComponents, UnpackedFloat.unpackSign_packComponents,
    Sign.ofBitVec_toBitVec]
  rw [if_neg hall, if_neg hnone]
  congr 1
  rw [hexponent, hbias]
  omega

end

/-! ## Computing without rounding -/

/-- Bits that are zero leave nothing behind. -/
theorem shiftRight_exact (m k : Nat) :
    (⟨m * 2 ^ k, false, false⟩ : UnpackedFloat.ExtendedMantissa) >>> k = ⟨m, false, false⟩ := by
  change Nat.repeat UnpackedFloat.ExtendedMantissa.shiftRightOne k ⟨m * 2 ^ k, false, false⟩ = _
  induction k generalizing m with
  | zero => rw [Nat.repeat, Nat.pow_zero, Nat.mul_one]
  | succ k ih =>
    have heven : m * 2 % 2 = 0 := Nat.mul_mod_left m 2
    rw [Nat.repeat, Nat.pow_succ, Nat.mul_comm (2 ^ k), ← Nat.mul_assoc, ih]
    simp only [UnpackedFloat.ExtendedMantissa.shiftRightOne, heven,
      Nat.mul_div_cancel m (Nat.succ_pos 1)]
    rfl

theorem log2_shifted {n : Nat} (hn : n ≠ 0) (k : Nat) : (n * 2 ^ k).log2 = n.log2 + k := by
  have hpos : 0 < 2 ^ k := Nat.two_pow_pos k
  obtain ⟨hlow, hhigh⟩ := (Nat.log2_eq_iff hn).mp rfl
  rw [Nat.log2_eq_iff (Nat.mul_ne_zero hn (Nat.ne_of_gt hpos)), Nat.add_right_comm, Nat.pow_add,
    Nat.pow_add]
  exact ⟨Nat.mul_le_mul_right _ hlow, Nat.mul_lt_mul_of_pos_right hhigh hpos⟩

/-- Where only bits that are zero are cut off, nothing is rounded. -/
theorem round_exact {m : Nat} {q : Int} (h : IsNormal m q) (sign : Sign) (k : Nat) :
    UnpackedFloat.roundWithAccuracy .binary64 sign (m * 2 ^ k) (q - k) .exact =
      .finite sign m q h.pos := by
  have htarget (k : Nat) : Format.binary64.targetExponent
      (Float.Model.totalExponent (m * 2 ^ k) (q - k)) = q := by
    have hmin : Format.binary64.minExponent = -1074 := rfl
    have hall : (Format.binary64.mantissaBits : Int) = 53 := rfl
    have hsmallest := h.smallest
    have hlog : (m * 2 ^ k).log2 = 52 + k := by
      rw [log2_shifted (Nat.ne_of_gt h.pos), h.log2]
    simp only [Format.targetExponent, Float.Model.totalExponent, hlog, hmin, hall]
    omega
  have hshift (k : Nat) : UnpackedFloat.shiftToTargetExponent .binary64 (m * 2 ^ k) (q - k) .exact =
      (⟨m, false, false⟩, q) := by
    have hamount : (q - (q - k)).toNat = k := by omega
    simp only [UnpackedFloat.shiftToTargetExponent, UnpackedFloat.shiftToExponent, htarget, hamount,
      UnpackedFloat.ExtendedMantissa.ofMantissaAndAccuracy, shiftRight_exact]
    rw [Int.sub_add_cancel]
  have hrounded : UnpackedFloat.ExtendedMantissa.roundedMantissa ⟨m, false, false⟩ = m := rfl
  have hagain := hshift 0
  rw [Nat.pow_zero, Nat.mul_one, Int.natCast_zero, Int.sub_zero] at hagain
  simp only [UnpackedFloat.roundWithAccuracy, hshift, hrounded, hagain]
  rw [dif_neg (Nat.ne_of_gt h.pos)]

theorem isNormal_one : IsNormal (2 ^ 52) (-52) :=
  ⟨Nat.le_refl _, by decide, by decide, by decide⟩

theorem ofBits_one : Float.ofBits 4607182418800017408 = ofParts false isNormal_one :=
  rfl

/-- One leaves every double as it is. -/
theorem mul_ofBits_one {negative : Bool} {m : Nat} {q : Int} (h : IsNormal m q) :
    ofParts negative h * Float.ofBits 4607182418800017408 = ofParts negative h := by
  have hsign : signOf negative * signOf false = signOf negative := by cases negative <;> rfl
  have hproduct : UnpackedFloat.mul .binary64 (ofParts negative h).toModel.unpack
      (ofParts false isNormal_one).toModel.unpack = .finite (signOf negative) m q h.pos := by
    rw [unpack_ofParts, unpack_ofParts, UnpackedFloat.mul, hsign]
    exact round_exact h (signOf negative) 52
  rw [ofBits_one]
  change Float.ofModel (.pack (UnpackedFloat.mul .binary64 (ofParts negative h).toModel.unpack
    (ofParts false isNormal_one).toModel.unpack)) = _
  rw [hproduct]
  rfl

/-! ## Whole numbers -/

/-- The significand of a positive whole number, shifted until it has all its bits. -/
def significandOf (n : Nat) : Nat :=
  n * 2 ^ (52 - n.log2)

theorem isNormal_whole {n : Nat} (hpos : n ≠ 0) (hn : n < 2 ^ 53) :
    IsNormal (significandOf n) (n.log2 - 52) := by
  have hlog : n.log2 < 53 := (Nat.log2_lt hpos).mpr hn
  obtain ⟨hlow, hhigh⟩ := (Nat.log2_eq_iff hpos).mp rfl
  have hshift : 0 < 2 ^ (52 - n.log2) := Nat.two_pow_pos _
  have hfull : 2 ^ n.log2 * 2 ^ (52 - n.log2) = 2 ^ 52 := by
    rw [← Nat.pow_add]
    congr 1
    omega
  refine ⟨?_, ?_, by omega, by omega⟩
  · rw [← hfull]
    exact Nat.mul_le_mul_right _ hlow
  · have hmore := Nat.mul_lt_mul_of_pos_right hhigh hshift
    rw [Nat.pow_succ, Nat.mul_right_comm, hfull] at hmore
    exact hmore

theorem round_whole {n : Nat} (hpos : n ≠ 0) (hn : n < 2 ^ 53) :
    UnpackedFloat.round .binary64 .positive n 0 =
      .finite .positive (significandOf n) (n.log2 - 52) (isNormal_whole hpos hn).pos := by
  have hlog : n.log2 < 53 := (Nat.log2_lt hpos).mpr hn
  have htarget : Format.binary64.targetExponent (Float.Model.totalExponent n 0) = n.log2 - 52 := by
    have hmin : Format.binary64.minExponent = -1074 := rfl
    have hall : (Format.binary64.mantissaBits : Int) = 53 := rfl
    simp only [Format.targetExponent, Float.Model.totalExponent, hmin, hall]
    omega
  have hamount : (0 - ((n.log2 : Int) - 52)).toNat = 52 - n.log2 := by omega
  have hexponent : (0 : Int) - (52 - n.log2 : Nat) = n.log2 - 52 := by omega
  have hexact := round_exact (isNormal_whole hpos hn) .positive 0
  rw [Nat.pow_zero, Nat.mul_one, Int.natCast_zero, Int.sub_zero] at hexact
  simp only [UnpackedFloat.round, UnpackedFloat.decreaseExponent, htarget, hamount, hexponent,
    Nat.shiftLeft_eq]
  exact hexact

/-- A whole number that fits into a significand is a double. -/
theorem toFloat_whole {n : Nat} (hpos : n ≠ 0) (hn : n < 2 ^ 53) :
    n.toUInt64.toFloat = ofParts false (isNormal_whole hpos hn) := by
  have hsmall : n.toUInt64.toNat = n := by
    have hsize : n < UInt64.size := Nat.lt_trans hn (by decide)
    exact UInt64.toNat_ofNat_of_lt' hsize
  have hcompare : compare (n : Int) 0 = .gt := Int.compare_eq_gt.mpr (by omega)
  have hround : UnpackedFloat.ofUInt64 .binary64 n.toUInt64 =
      .finite .positive (significandOf n) (n.log2 - 52) (isNormal_whole hpos hn).pos := by
    simp only [UnpackedFloat.ofUInt64, UnpackedFloat.ofNat, UnpackedFloat.ofInt, hsmall,
      UnpackedFloat.normalize, hcompare]
    exact round_whole hpos hn
  change Float.ofModel (.pack (UnpackedFloat.ofUInt64 .binary64 n.toUInt64)) = _
  rw [hround]
  rfl

theorem ofScientific_whole {n : Nat} (hpos : n ≠ 0) (hn : n < 2 ^ 53) :
    Float.ofScientific n false 0 = ofParts false (isNormal_whole hpos hn) := by
  have hexact : n < 2 ^ 53 ∧ 0 ≤ 22 := ⟨hn, by decide⟩
  unfold Float.ofScientific
  rw [dif_pos hexact]
  change n.toUInt64.toFloat * Float.ofBits 4607182418800017408 = _
  rw [toFloat_whole hpos hn, mul_ofBits_one]

/-! ## Reading an integer -/

theorem scale?_whole {n : Nat} (hpos : n ≠ 0) (hn : n < 2 ^ 53) :
    scale? n 0 = some (ofParts false (isNormal_whole hpos hn)) := by
  have hfinite : isFinite (ofParts false (isNormal_whole hpos hn)) = true := by
    rw [isFinite, binary_ofParts]
  have hscaled : Float.ofScientific n false 0 * powerOfTen (0 : Int).toNat =
      ofParts false (isNormal_whole hpos hn) := by
    rw [ofScientific_whole hpos hn]
    exact mul_ofBits_one _
  unfold scale?
  dsimp only
  rw [if_neg (by decide), if_pos (by decide), hscaled, if_pos hfinite]

theorem le_wholeFrom (n : Nat) (digits : List Char) : n ≤ wholeFrom n digits := by
  induction digits generalizing n with
  | nil => exact Nat.le_refl n
  | cons c digits ih =>
    have hnext := ih (n * 10 + digitValue c)
    change n ≤ wholeFrom (n * 10 + digitValue c) digits
    omega

/-- Digits of a number that fits are all gathered. -/
theorem gather_of_le {n : Nat} {digits : List Char} (h : wholeFrom n digits ≤ significandLimit) :
    gather n digits = (wholeFrom n digits, []) := by
  induction digits generalizing n with
  | nil => rfl
  | cons c digits ih =>
    have hnext := le_wholeFrom (n * 10 + digitValue c) digits
    have hrest : wholeFrom (n * 10 + digitValue c) digits ≤ significandLimit := h
    unfold gather
    dsimp only
    rw [if_neg (Nat.not_lt_of_le (Nat.le_trans hnext hrest)), ih hrest]
    rfl

theorem neg_ofParts {m : Nat} {q : Int} (h : IsNormal m q) :
    -ofParts false h = ofParts true h := by
  change Float.ofModel (.pack (UnpackedFloat.neg (ofParts false h).toModel.unpack)) = _
  rw [unpack_ofParts]
  rfl

/-- What an integer reads as that fits into a significand. -/
theorem toFloat?_ofInt {i : Int} (hpos : i.natAbs ≠ 0) (hn : i.natAbs < 2 ^ 53) :
    (Numeral.ofInt i).toFloat? = some (ofParts (i < 0) (isNormal_whole hpos hn)) := by
  have hdigits := wholeFrom_toDigits i.natAbs
  have hgather : gather 0 (Nat.toDigits 10 i.natAbs) = (i.natAbs, []) := by
    rw [gather_of_le, hdigits]
    rw [hdigits]
    exact Nat.le_trans (Nat.le_of_lt hn) (by decide)
  have hsign : (if i < 0 then -ofParts false (isNormal_whole hpos hn)
      else ofParts false (isNormal_whole hpos hn)) =
      ofParts (i < 0) (isNormal_whole hpos hn) := by
    by_cases hi : i < 0
    · rw [if_pos hi, neg_ofParts, decide_eq_true hi]
    · rw [if_neg hi, decide_eq_false hi]
  have hread : (Numeral.ofInt i).toFloat? = (scale? i.natAbs 0).map fun f =>
      if i < 0 then -f else f := by
    simp [Numeral.toFloat?, Numeral.ofInt, hgather, gather]
  rw [hread, scale?_whole hpos hn, Option.map_some, hsign]

/-! ## Storing and reading -/

/-- Two doubles of the same parts are equal. -/
theorem same_of_binary {x y : Float} {negative : Bool} {m : Nat} {q : Int} (h : IsNormal m q)
    (hx : binary x = .finite negative m q) (hy : binary y = .finite negative m q) :
    same x y = true := by
  have hbits {z : Float} (hz : binary z = .finite negative m q) :
      z.toBits.toNat = bitsOf negative m q := by
    obtain ⟨hlow, -⟩ | ⟨-, hbits⟩ := toBits_of_binary hz
    · exact absurd h.low (Nat.not_le_of_lt hlow)
    · exact hbits
  simp only [same, orderKey, hx, hy, hbits hx, hbits hy, BEq.rfl]

/-- A double of the parts of a whole number. -/
def IsWholeNumber (m : Nat) (q : Int) (n : Nat) : Prop :=
  0 ≤ q ∧ n = m * 2 ^ q.toNat ∨ q < 0 ∧ m = n * 2 ^ (-q).toNat

theorem parts_of_integer? {x : Float} {i : Int} (h : integer? x = some i) :
    ∃ negative m q n, binary x = .finite negative m q ∧ IsWholeNumber m q n ∧
      n < 9000000000000000 ∧ i = if negative then -(n : Int) else n := by
  unfold integer? at h
  split at h
  · rename_i negative m q hbinary
    have hpow (k : Nat) : Nat.pow 2 k = 2 ^ k := rfl
    simp only [hpow] at h
    by_cases hq : 0 ≤ q
    · simp only [hq, if_true, decide_true, Bool.true_or, Bool.true_and, decide_eq_true_eq] at h
      split at h
      · rename_i hsmall
        exact ⟨negative, m, q, _, hbinary, .inl ⟨hq, rfl⟩, hsmall, (Option.some.inj h).symm⟩
      · cases h
    · simp only [hq, if_false, decide_false, Bool.false_or, Bool.and_eq_true, beq_iff_eq,
        decide_eq_true_eq] at h
      split at h
      · rename_i hwhole
        obtain ⟨hexact, hsmall⟩ := hwhole
        have hm : m = m / 2 ^ (-q).toNat * 2 ^ (-q).toNat :=
          (Nat.div_mul_cancel (Nat.dvd_of_mod_eq_zero hexact)).symm
        exact ⟨negative, m, q, _, hbinary, .inr ⟨Int.not_le.mp hq, hm⟩, hsmall,
          (Option.some.inj h).symm⟩
      · cases h
  · cases h

/-- A whole number that fits into a significand is what the parts say, and no other parts say it. -/
theorem IsWholeNumber.parts {m n : Nat} {q : Int} (h : IsWholeNumber m q n) (hm : IsNormal m q)
    (hn : n < 2 ^ 53) : n ≠ 0 ∧ m = significandOf n ∧ q = n.log2 - 52 := by
  obtain ⟨k, hk, rfl⟩ : ∃ k : Nat, m = n * 2 ^ k ∧ q = -k := by
    obtain ⟨hq, hvalue⟩ | ⟨hq, hvalue⟩ := h
    · cases hshift : q.toNat with
      | zero =>
        refine ⟨0, ?_, by omega⟩
        rw [hvalue, hshift, Nat.pow_zero, Nat.mul_one, Nat.mul_one]
      | succ j =>
        -- a significand with all its bits is too large to be doubled
        have htwice : 2 ^ 52 * 2 ≤ m * 2 ^ q.toNat := by
          have hdouble : 2 ^ (j + 1) = 2 * 2 ^ j := by rw [Nat.pow_succ, Nat.mul_comm]
          rw [hshift, hdouble]
          exact Nat.mul_le_mul hm.low (Nat.le_mul_of_pos_right 2 (Nat.two_pow_pos j))
        omega
    · exact ⟨(-q).toNat, hvalue, by omega⟩
  have hne : n ≠ 0 := by
    rintro rfl
    have hpos := hm.pos
    rw [hk, Nat.zero_mul] at hpos
    exact Nat.lt_irrefl 0 hpos
  have hlog : n.log2 + k = 52 := by
    rw [← log2_shifted hne, ← hk, hm.log2]
  have hrest : 52 - n.log2 = k := by omega
  refine ⟨hne, ?_, by omega⟩
  rw [significandOf, hrest, hk]

/-- The only whole number among the very small doubles is zero. -/
theorem IsWholeNumber.eq_zero {m n : Nat} {q : Int} (h : IsWholeNumber m q n) (hq : q ≤ -52)
    (hm : m < 2 ^ 52) : m = 0 ∧ n = 0 := by
  obtain ⟨hge, -⟩ | ⟨-, hvalue⟩ := h
  · omega
  · cases n with
    | zero => exact ⟨by rw [hvalue, Nat.zero_mul], rfl⟩
    | succ n =>
      have hpow : 2 ^ 52 ≤ 2 ^ (-q).toNat := Nat.pow_le_pow_right (by decide) (by omega)
      have hle : 2 ^ (-q).toNat ≤ m := by
        rw [hvalue]
        exact Nat.le_mul_of_pos_left _ (Nat.succ_pos n)
      omega

theorem toFloat?_zero : (Numeral.ofInt 0).toFloat? = some (Float.ofBits 0) :=
  rfl

/-- Zero equals zero, whichever sign they have. -/
theorem same_zero {x : Float} {negative : Bool} {q : Int} (hbinary : binary x = .finite negative 0 q)
    (hmagnitude : x.toBits.toNat % 2 ^ 63 = 0) : same (Float.ofBits 0) x = true := by
  have hzero : orderKey (Float.ofBits 0) = some 0 := rfl
  have hkey : orderKey x = some 0 := by
    simp only [orderKey, hbinary, pow_63, hmagnitude]
    split <;> rfl
  rw [same, hzero, hkey]
  rfl

theorem natAbs_signed (negative : Bool) (n : Nat) :
    (if negative then -(n : Int) else n).natAbs = n := by
  cases negative with
  | false => exact Int.natAbs_natCast n
  | true => exact (Int.natAbs_neg n).trans (Int.natAbs_natCast n)

theorem signed_lt_zero (negative : Bool) {n : Nat} (hn : n ≠ 0) :
    decide ((if negative then -(n : Int) else n) < 0) = negative := by
  cases negative with
  | false => exact decide_eq_false (Int.not_lt.mpr (Int.natCast_nonneg n))
  | true => exact decide_eq_true (Int.neg_neg_of_pos (Int.natCast_pos.mpr (Nat.pos_of_ne_zero hn)))

/-- **A whole number below 9.0e15 reads back.** -/
theorem readsBack_of_integer? {x : Float} {i : Int} (h : integer? x = some i) : ReadsBack x := by
  have hstored : stored? x = some (.ofInt i) := by rw [stored?, h]
  obtain ⟨negative, m, q, n, hbinary, hwhole, hsmall, hi⟩ := parts_of_integer? h
  have hfits : n < 2 ^ 53 := by omega
  refine ⟨_, hstored, ?_⟩
  obtain ⟨hlow, hleast, hbits⟩ | ⟨hnormal, -⟩ := toBits_of_binary hbinary
  · have hq : q ≤ -52 := by rw [hleast]; decide
    obtain ⟨rfl, rfl⟩ := hwhole.eq_zero hq hlow
    have hzero : i = 0 := by rw [hi]; cases negative <;> rfl
    rw [hzero]
    have hmagnitude : x.toBits.toNat % 2 ^ 63 = 0 := by omega
    exact ⟨_, toFloat?_zero, same_zero hbinary hmagnitude⟩
  · obtain ⟨hpos, rfl, rfl⟩ := hwhole.parts hnormal hfits
    have hn : i.natAbs = n := by rw [hi, natAbs_signed]
    have hsign : decide (i < 0) = negative := by rw [hi, signed_lt_zero negative hpos]
    subst hn hsign
    exact ⟨_, toFloat?_ofInt hpos hfits, same_of_binary hnormal (binary_ofParts _) hbinary⟩

end Storyworld.Number
