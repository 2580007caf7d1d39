import Mathlib
import SolverBridge.Decimal.Text
import SolverBridge.Scalar

/-! The parts of a floating point number: it is undefined, or it has a sign and is infinite, zero
or of a positive finite magnitude. The parts tell the number, and the tests and the magnitude are
read off them. -/

namespace SolverBridge.FloatParts

open Float.Model (UnpackedFloat Format)
open Float.Model.UnpackedFloat (Sign unpack pack packComponents unpackSign unpackExponent
  unpackMantissa)

/-! ### The parts of a word -/

section Words

variable (w : UInt64)

theorem exponentField_eq : ((w >>> 52) &&& 0x7ff).toNat =
    (@unpackExponent Format.binary64 w.toBitVec).toNat := by
  have mask : (2047 : ℕ) = 2 ^ 11 - 1 := rfl
  rw [UnpackedFloat.unpackExponent_def, BitVec.extractLsb'_toNat, UInt64.toNat_and,
    UInt64.toNat_shiftRight]
  change w.toNat >>> 52 &&& 2047 = w.toNat >>> 52 % 2 ^ 11
  rw [mask, Nat.and_two_pow_sub_one_eq_mod]

theorem fractionField_eq : (w &&& 0xfffffffffffff).toNat =
    (@unpackMantissa Format.binary64 w.toBitVec).toNat := by
  have mask : (4503599627370495 : ℕ) = 2 ^ 52 - 1 := rfl
  rw [UnpackedFloat.unpackMantissa_def, BitVec.extractLsb'_toNat, UInt64.toNat_and]
  change w.toNat &&& 4503599627370495 = w.toNat >>> 0 % 2 ^ 52
  rw [mask, Nat.and_two_pow_sub_one_eq_mod, Nat.shiftRight_zero]

theorem signField_eq : (w >>> 63 == 1) =
    (Sign.ofBitVec (@unpackSign Format.binary64 w.toBitVec) == .negative) := by
  have bit : (@unpackSign Format.binary64 w.toBitVec).toNat = (w >>> 63).toNat := by
    rw [UnpackedFloat.unpackSign_def, BitVec.extractLsb'_toNat, UInt64.toNat_shiftRight]
    change w.toNat >>> 63 % 2 ^ 1 = w.toNat >>> 63
    have := w.toNat_lt
    omega
  generalize @unpackSign Format.binary64 w.toBitVec = b at *
  rw [Bool.eq_iff_iff, beq_iff_eq, ← UInt64.toNat_inj, ← bit]
  clear bit
  revert b
  decide

end Words

/-- What a number consists of. -/
def parts (x : Float) : UnpackedFloat := unpack Format.binary64 x.toBits.toBitVec

theorem parts_inj {x y : Float} : parts x = parts y ↔ x = y :=
  (UnpackedFloat.unpack_inj_of_valid x.toModel.valid y.toModel.valid).trans
    (UInt64.toBitVec_inj.trans Float.toBits_inj)

/-- The number is written with a minus sign. -/
def isNegative : UnpackedFloat → Bool
  | .notANumber => false
  | .infinity s | .zero s | .finite s _ _ _ => s == .negative

/-- The sign bit of a number is its sign. -/
theorem signBit_eq {x : Float} (h : parts x ≠ .notANumber) :
    (x.toBits >>> 63 == 1) = isNegative (parts x) := by
  rw [signField_eq]
  revert h
  rw [parts, unpack]
  dsimp only
  split
  · split
    · exact fun _ => rfl
    · exact fun h => absurd rfl h
  · split
    · split <;> exact fun _ => rfl
    · exact fun _ => rfl

theorem sign_eq_of_isNegative {s s' : Sign} (h : (s == .negative) = (s' == .negative)) :
    s = s' := by
  cases s <;> cases s' <;> first | rfl | cases h

/-! ### Comparisons and magnitudes -/

theorem lt_eq (x y : Float) : Scalar.lt x y = (parts x).lt (parts y) := by
  change decide (x < y) = _
  rw [Bool.eq_iff_iff, decide_eq_true_iff]
  change decide _ = true ↔ _
  rw [decide_eq_true_iff]
  rfl

@[simp] theorem parts_zero : parts 0 = .zero .positive := rfl

@[simp] theorem parts_posInf : parts Scalar.posInf = .infinity .positive := by rfl

@[simp] theorem parts_negInf : parts Scalar.negInf = .infinity .negative := by rfl

theorem beq_eq (x y : Float) : (x == y) = (parts x).beq (parts y) := rfl

theorem lt_zero_iff {x : Float} :
    Scalar.lt x 0 = true ↔ isNegative (parts x) = true ∧ ∀ s, parts x ≠ .zero s := by
  rw [lt_eq, parts_zero]
  cases parts x with
  | notANumber => simp [UnpackedFloat.lt, UnpackedFloat.compare, isNegative]
  | infinity s => cases s <;> simp [UnpackedFloat.lt, UnpackedFloat.compare, isNegative]
  | zero s => simp [UnpackedFloat.lt, UnpackedFloat.compare]
  | finite s m e h => cases s <;> simp [UnpackedFloat.lt, UnpackedFloat.compare, isNegative]

theorem beq_zero_iff {x : Float} : (x == 0) = true ↔ ∃ s, parts x = .zero s := by
  rw [beq_eq, UnpackedFloat.beq_iff_ne_notANumber_and_eq, parts_zero]
  cases parts x with
  | zero s => cases s <;> simp
  | _ => simp

/-- A word without its sign holds the magnitude. -/
theorem unpack_unsigned (b : BitVec Format.binary64.numBits) :
    unpack Format.binary64 (packComponents Format.binary64 .positive (unpackExponent b)
      (unpackMantissa b)) = (unpack Format.binary64 b).abs := by
  rw [unpack, unpack]
  dsimp only
  rw [UnpackedFloat.unpackExponent_packComponents, UnpackedFloat.unpackSign_packComponents,
    Sign.ofBitVec_toBitVec]
  simp only [UnpackedFloat.unpackMantissa_packComponents]
  split
  · split <;> rfl
  · split
    · split <;> rfl
    · rfl

/-- Packing and unpacking again changes nothing. -/
theorem unpack_pack_unpack (b : BitVec Format.binary64.numBits) :
    unpack Format.binary64 (pack Format.binary64 (unpack Format.binary64 b)) =
      unpack Format.binary64 b := by
  rw [UnpackedFloat.pack_unpack]
  split
  next nan =>
    rw [UnpackedFloat.isNaNBits, decide_eq_true_iff] at nan
    rw [UnpackedFloat.unpack_packedNaN, unpack]
    dsimp only
    rw [if_pos nan.1, if_neg nan.2]
  next => rfl

theorem parts_abs (x : Float) : parts (Scalar.abs x) = (parts x).abs := by
  change unpack Format.binary64 (pack Format.binary64 (parts x).abs) = (parts x).abs
  rw [parts, ← unpack_unsigned]
  exact unpack_pack_unpack _

theorem eq_zero_of_abs {x : Float} (h : parts (Scalar.abs x) = .zero .positive) :
    ∃ s, parts x = .zero s := by
  rw [parts_abs] at h
  cases hx : parts x with
  | zero s => exact ⟨s, rfl⟩
  | _ =>
    rw [hx] at h
    cases h

/-- Magnitude and sign tell a number that is not zero. -/
theorem eq_of_abs {x y : Float} (magnitude : Scalar.abs x = Scalar.abs y)
    (sign : Scalar.lt x 0 = Scalar.lt y 0) (hx : (x != 0) = true) (hy : (y != 0) = true) :
    x = y := by
  have zero {z : Float} (hz : (z != 0) = true) : ∀ s, parts z ≠ .zero s := by
    intro s h
    rw [bne, beq_zero_iff.2 ⟨s, h⟩] at hz
    cases hz
  rw [Bool.eq_iff_iff, lt_zero_iff, lt_zero_iff, and_iff_left (zero hx), and_iff_left (zero hy),
    ← Bool.eq_iff_iff] at sign
  rw [← parts_inj, parts_abs, parts_abs] at magnitude
  rw [← parts_inj]
  cases px : parts x <;> cases py : parts y <;> rw [px, py] at magnitude sign <;>
    simp only [UnpackedFloat.abs, reduceCtorEq] at magnitude
  case infinity.infinity s s' => rw [sign_eq_of_isNegative sign]
  case zero.zero s s' => exact (zero hx s px).elim
  case finite.finite s m e pos s' m' e' pos' =>
    cases magnitude
    rw [sign_eq_of_isNegative sign]

/-! ### Infinite sides -/

/-- A number below infinity that is not finite is the negative infinity. -/
theorem eq_negInf {x : Float} (lt : Scalar.lt x Scalar.posInf = true)
    (infinite : Scalar.isFinite x = false) : x = Scalar.negInf := by
  rw [Scalar.isFinite, lt, Bool.and_true, lt_eq, parts_negInf] at infinite
  rw [lt_eq, parts_posInf] at lt
  rw [← parts_inj, parts_negInf]
  cases h : parts x <;> rw [h] at lt infinite
  case notANumber => cases lt
  case infinity s => cases s <;> first | rfl | cases lt
  case zero => cases infinite
  case finite => cases infinite

/-- A number above the negative infinity that is not finite is infinity. -/
theorem eq_posInf {x : Float} (lt : Scalar.lt Scalar.negInf x = true)
    (infinite : Scalar.isFinite x = false) : x = Scalar.posInf := by
  rw [Scalar.isFinite, lt, Bool.true_and, lt_eq, parts_posInf] at infinite
  rw [lt_eq, parts_negInf] at lt
  rw [← parts_inj, parts_posInf]
  cases h : parts x <;> rw [h] at lt infinite
  case notANumber => cases lt
  case infinity s => cases s <;> first | rfl | cases lt
  case zero => cases infinite
  case finite => cases infinite

theorem beq_self_iff {x : Float} : (x == x) = true ↔ parts x ≠ .notANumber := by
  rw [beq_eq, UnpackedFloat.beq_iff_ne_notANumber_and_eq]
  simp

/-- What compares with another number is equal to itself. -/
theorem beq_self_of_lt {x y : Float} (h : Scalar.lt x y = true) :
    (x == x) = true ∧ (y == y) = true := by
  rw [lt_eq] at h
  rw [beq_self_iff, beq_self_iff]
  constructor
  · intro nan
    rw [nan] at h
    cases h
  · intro nan
    rw [nan] at h
    cases hx : parts x <;> rw [hx] at h <;> cases h

theorem beq_infinity_iff {x y : Float} {s : Sign} (hy : parts y = .infinity s) :
    (x == y) = true ↔ x = y := by
  rw [beq_eq, UnpackedFloat.beq_iff_ne_notANumber_and_eq, ← parts_inj, hy]
  cases parts x <;> simp

end SolverBridge.FloatParts
