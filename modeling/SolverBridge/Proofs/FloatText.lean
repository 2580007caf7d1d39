import SolverBridge.Proofs.FloatParts
import SolverBridge.Proofs.ShortestDigits

/-! Texts of floating point numbers. A number is told by its sign and its magnitude, and so is
its text: a magnitude never starts with a minus sign, the named values start with a letter and
the others with a digit, and the digits of a positive finite number tell it. So equal texts are
texts of one number. -/

namespace SolverBridge.Decimal

open FloatParts
open Float.Model (UnpackedFloat Format)
open Float.Model.UnpackedFloat (Sign unpack unpackSign unpackExponent unpackMantissa)

/-! ### The digits of a number -/

/-- The number `m * 2 ^ e` as a word of 64 bits holds it. -/
def Binary.ofParts (m : ℕ) (e : ℤ) : Binary := ⟨m, e, m == 2 ^ 52 && decide (-1074 < e)⟩

/-- The magnitude that is searched for the fewest digits. -/
theorem ofBits?_toBits (x : Float) : Binary.ofBits? x.toBits =
    match parts x with
    | .finite _ m e _ => some (.ofParts m e)
    | _ => none := by
  rw [Binary.ofBits?, exponentField_eq, fractionField_eq, parts, unpack]
  have last : @unpackExponent Format.binary64 x.toBits.toBitVec = -1#_ ↔
      (@unpackExponent Format.binary64 x.toBits.toBitVec).toNat = 0x7ff := BitVec.toNat_inj.symm
  have first : @unpackExponent Format.binary64 x.toBits.toBitVec = 0#_ ↔
      (@unpackExponent Format.binary64 x.toBits.toBitVec).toNat = 0 := BitVec.toNat_inj.symm
  have whole : @unpackMantissa Format.binary64 x.toBits.toBitVec = 0#_ ↔
      (@unpackMantissa Format.binary64 x.toBits.toBitVec).toNat = 0 := BitVec.toNat_inj.symm
  have significand : (1#1 ++ @unpackMantissa Format.binary64 x.toBits.toBitVec).toNat =
      2 ^ 52 + (@unpackMantissa Format.binary64 x.toBits.toBitVec).toNat := by
    have small := (@unpackMantissa Format.binary64 x.toBits.toBitVec).isLt
    rw [BitVec.toNat_append]
    exact (Nat.two_pow_add_eq_or_of_lt small 1).symm
  have bias : (Format.binary64.exponentBias : ℤ) + Format.binary64.mantissaBitsWithoutImplicit =
      1075 := rfl
  dsimp only
  by_cases infinite : @unpackExponent Format.binary64 x.toBits.toBitVec = -1#_
  · rw [if_pos infinite, if_pos (last.1 infinite)]
    by_cases zero : @unpackMantissa Format.binary64 x.toBits.toBitVec = 0#_
    · rw [if_pos zero]
    · rw [if_neg zero]
  · rw [if_neg infinite, if_neg (infinite ∘ last.2)]
    by_cases subnormal : @unpackExponent Format.binary64 x.toBits.toBitVec = 0#_
    · rw [if_pos subnormal, if_pos (first.1 subnormal)]
      by_cases zero : @unpackMantissa Format.binary64 x.toBits.toBitVec = 0#_
      · rw [if_pos (whole.1 zero), dif_pos zero]
      · rw [if_neg (zero ∘ whole.2), dif_neg zero, first.1 subnormal, bias]
        simp [Binary.ofParts]
    · rw [if_neg subnormal, if_neg (subnormal ∘ first.2)]
      dsimp only
      rw [bias, significand]
      have positive : -1074 < ((@unpackExponent Format.binary64 x.toBits.toBitVec).toNat : ℤ) - 1075
          ↔ 1 < (@unpackExponent Format.binary64 x.toBits.toBitVec).toNat := by omega
      simp only [Binary.ofParts, positive]
      congr 3
      rw [Bool.eq_iff_iff, beq_iff_eq, beq_iff_eq]
      omega

/-- A word of 64 bits holds no other magnitudes. -/
theorem Binary.isCanonical_of_ofBits? {w : UInt64} {b : Binary} (h : ofBits? w = some b) :
    b.IsCanonical := by
  have exponent : ((w >>> 52) &&& 0x7ff).toNat < 2 ^ 11 := by
    rw [exponentField_eq]
    exact BitVec.isLt _
  have fraction : (w &&& 0xfffffffffffff).toNat < 2 ^ 52 := by
    rw [fractionField_eq]
    exact BitVec.isLt _
  simp only [ofBits?] at h
  generalize ((w >>> 52) &&& 0x7ff).toNat = e at *
  generalize (w &&& 0xfffffffffffff).toNat = m at *
  split at h
  next => cases h
  next =>
    split at h
    next =>
      split at h
      next => cases h
      next =>
        cases h
        constructor <;> dsimp only <;> first | omega | simp
    next =>
      cases h
      constructor <;> dsimp only
      case narrow =>
        rw [Bool.and_eq_true, beq_iff_eq, decide_eq_true_iff]
        omega
      all_goals omega

theorem isCanonical_of_parts {x : Float} {s : Sign} {m : ℕ} {e : ℤ} {h : 0 < m}
    (finite : parts x = .finite s m e h) : (Binary.ofParts m e).IsCanonical :=
  Binary.isCanonical_of_ofBits? (by rw [ofBits?_toBits, finite])

/-! ### Sign and magnitude -/

def magnitudeText : UnpackedFloat → String
  | .notANumber => "NaN"
  | .infinity _ => "inf"
  | .zero _ => "0"
  | .finite _ m e _ => (Binary.ofParts m e).shortest.positional

theorem text_eq (x : Float) : text x =
    if isNegative (parts x) then "-" ++ magnitudeText (parts x) else magnitudeText (parts x) := by
  have isNaN : x.isNaN = (parts x).isNaN := rfl
  have isInf : x.isInf = (parts x).isInf := rfl
  have sign := @signBit_eq x
  rw [text, isNaN, isInf, ofBits?_toBits]
  generalize (x.toBits >>> 63 == 1) = negative at *
  cases h : parts x with
  | notANumber => rfl
  | infinity s =>
    rw [sign (by simp [h]), h]
    rfl
  | zero s =>
    rw [sign (by simp [h]), h]
    rfl
  | finite s m e pos =>
    rw [sign (by simp [h]), h]
    rfl

theorem head_positional (x : Scientific) :
    ∃ c cs, x.positional.toList = c :: cs ∧ c.isDigit = true := by
  obtain ⟨c, cs, text, isDigit, -⟩ := positional_eq_cons x
  exact ⟨c, cs, text, isDigit⟩

/-- A positional number is not a named value. -/
theorem positional_ne {x : Scientific} {name : String} {c : Char} {cs : List Char}
    (h : name.toList = c :: cs) (letter : c.isDigit = false) : x.positional ≠ name := by
  rintro rfl
  obtain ⟨d, ds, text, isDigit⟩ := head_positional x
  rw [h] at text
  cases text
  rw [letter] at isDigit
  cases isDigit

/-- Sign and magnitude tell a number. -/
theorem eq_of_magnitudeText {x y : Float} (sign : isNegative (parts x) = isNegative (parts y))
    (same : magnitudeText (parts x) = magnitudeText (parts y)) : x = y := by
  have nan : ∀ t : Scientific, t.positional ≠ "NaN" := fun _ => positional_ne rfl rfl
  have inf : ∀ t : Scientific, t.positional ≠ "inf" := fun _ => positional_ne rfl rfl
  rw [← parts_inj]
  cases hx : parts x <;> cases hy : parts y <;> rw [hx, hy] at sign same <;>
    simp only [magnitudeText] at same
  case infinity.infinity s s' => rw [sign_eq_of_isNegative sign]
  case zero.zero s s' => rw [sign_eq_of_isNegative sign]
  case finite.finite s m e pos s' m' e' pos' =>
    have binary := (isCanonical_of_parts hx).eq_of_positional (isCanonical_of_parts hy) same
    simp only [Binary.ofParts, Binary.mk.injEq] at binary
    obtain ⟨rfl, rfl, -⟩ := binary
    rw [sign_eq_of_isNegative sign]
  case finite.notANumber => exact (nan _ same).elim
  case notANumber.finite => exact (nan _ same.symm).elim
  case finite.infinity => exact (inf _ same).elim
  case infinity.finite => exact (inf _ same.symm).elim
  case finite.zero => exact ((isCanonical_of_parts hx).positional_ne_zero same).elim
  case zero.finite => exact ((isCanonical_of_parts hy).positional_ne_zero same.symm).elim
  all_goals exact absurd same (by decide)

theorem head_magnitudeText (u : UnpackedFloat) : (magnitudeText u).toList.head? ≠ some '-' := by
  cases u with
  | finite s m e pos =>
    obtain ⟨c, cs, text, isDigit⟩ := head_positional (Binary.ofParts m e).shortest
    rw [magnitudeText, text]
    rintro ⟨⟩
    cases isDigit
  | _ =>
    rw [magnitudeText]
    decide

/-- Different numbers have different texts. -/
theorem text_injective : Function.Injective text := by
  intro x y same
  rw [text_eq, text_eq] at same
  have hx := head_magnitudeText (parts x)
  have hy := head_magnitudeText (parts y)
  have minus (t : String) : ("-" ++ t).toList.head? = some '-' := by
    rw [String.toList_append]
    rfl
  cases sx : isNegative (parts x) <;> cases sy : isNegative (parts y) <;> rw [sx, sy] at same
  case false.false => exact eq_of_magnitudeText (sx.trans sy.symm) same
  case false.true => exact absurd (congrArg (·.toList.head?) same |>.trans (minus _)) hx
  case true.false => exact absurd (congrArg (·.toList.head?) same.symm |>.trans (minus _)) hy
  case true.true =>
    have magnitude := congrArg String.toList same
    simp only [if_true, String.toList_append] at magnitude
    exact eq_of_magnitudeText (sx.trans sy.symm)
      (String.toList_inj.1 (List.append_cancel_left magnitude))

end SolverBridge.Decimal
