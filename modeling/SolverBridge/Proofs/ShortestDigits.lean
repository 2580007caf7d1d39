import Mathlib.Algebra.Order.Field.Power
import Mathlib.Algebra.Order.Field.Rat
import Mathlib.Data.List.TakeWhile
import Mathlib.Tactic.FieldSimp
import Mathlib.Tactic.Linarith
import Mathlib.Tactic.NormNum
import Mathlib.Tactic.Positivity
import Mathlib.Tactic.Ring
import SolverBridge.Proofs.NumberText

/-! Why the fewest digits tell numbers apart. The rational numbers that round to a binary number
fill an interval, and the intervals of different numbers have no number in common, since at a
middle between two neighbours the one with the even significand takes it. The search for digits
ends on a grid with a point in the interval, at the latest when the step of the grid is less than
half a unit, and twenty grids reach so far down. Positional notation keeps the rational number,
so equal texts are texts of one binary number. -/

namespace SolverBridge.Decimal

/-- The rational number that digits and an exponent stand for. -/
def Scientific.value (x : Scientific) : ℚ := x.digits * 10 ^ x.exponent

namespace Binary

/-! ### Rounding intervals -/

/-- A quarter of the distance to the next larger number. -/
def quarter (b : Binary) : ℚ := 2 ^ (b.exponent - 2)

/-- The quarters from the number down to the middle between it and the next smaller one. -/
def reachBelow (b : Binary) : ℕ := if b.narrowBelow then 1 else 2

/-- The rational number rounds to the binary one: it lies between the middles to both sides, and
may be one of them when the significand is even. -/
def Covers (b : Binary) (x : ℚ) : Prop :=
  if b.significand % 2 = 0 then
    ((4 * b.significand - b.reachBelow : ℕ) * b.quarter ≤ x ∧
      x ≤ (4 * b.significand + 2 : ℕ) * b.quarter)
  else
    ((4 * b.significand - b.reachBelow : ℕ) * b.quarter < x ∧
      x < (4 * b.significand + 2 : ℕ) * b.quarter)

theorem quarter_pos (b : Binary) : 0 < b.quarter := zpow_pos (by norm_num) _

theorem reachBelow_le (b : Binary) : b.reachBelow ≤ 2 := by
  rw [reachBelow]
  split <;> omega

theorem pow_toNat_neg_mul_zpow {x : ℚ} (hx : x ≠ 0) (k : ℤ) :
    x ^ (-k).toNat * x ^ k = x ^ k.toNat := by
  rw [← zpow_natCast, ← zpow_natCast, ← zpow_add₀ hx]
  congr 1
  omega

variable {b b' : Binary} {s q : ℤ} {g n : ℕ}

/-- A quarter unit is `a / d` steps of the grid. -/
theorem quarterSteps_eq (q s : ℤ) :
    ((quarterSteps q s).1 : ℚ) * 10 ^ s = (quarterSteps q s).2 * 2 ^ (q - 2) := by
  have two : (2 : ℚ) ^ (2 - q).toNat * 2 ^ (q - 2) = 2 ^ (q - 2).toNat := by
    rw [← neg_sub q 2]
    exact pow_toNat_neg_mul_zpow two_ne_zero (q - 2)
  have ten : (10 : ℚ) ^ (-s).toNat * 10 ^ s = 10 ^ s.toNat :=
    pow_toNat_neg_mul_zpow (by norm_num) s
  simp only [quarterSteps, Nat.pow_eq, Nat.cast_mul, Nat.cast_pow, Nat.cast_ofNat]
  rw [mul_assoc, ten, mul_right_comm, two]

theorem quarterSteps_pos (q s : ℤ) : 0 < (quarterSteps q s).1 ∧ 0 < (quarterSteps q s).2 := by
  simp only [quarterSteps, Nat.pow_eq]
  exact ⟨by positivity, by positivity⟩

/-- Both sides of a comparison with the grid, in steps and in numbers. -/
theorem compare_steps (b : Binary) (s : ℤ) (n g : ℕ) :
    (n * (quarterSteps b.exponent s).1 ≤ g * (quarterSteps b.exponent s).2 ↔
      n * b.quarter ≤ g * 10 ^ s) ∧
    (g * (quarterSteps b.exponent s).2 ≤ n * (quarterSteps b.exponent s).1 ↔
      g * 10 ^ s ≤ n * b.quarter) := by
  have eq : _ = _ * b.quarter := quarterSteps_eq b.exponent s
  have pos := (quarterSteps_pos b.exponent s).2
  generalize quarterSteps b.exponent s = p at *
  have d : (0 : ℚ) < p.2 := by exact_mod_cast pos
  have ten : (0 : ℚ) < 10 ^ s := zpow_pos (by norm_num) s
  have left : (n * p.1 : ℕ) * (10 : ℚ) ^ s = p.2 * (n * b.quarter) := by
    rw [Nat.cast_mul, mul_assoc, eq]
    ring
  have right : (g * p.2 : ℕ) * (10 : ℚ) ^ s = p.2 * (g * 10 ^ s) := by
    rw [Nat.cast_mul]
    ring
  constructor
  · rw [← mul_le_mul_iff_right₀ d, ← left, ← right, mul_le_mul_iff_left₀ ten, Nat.cast_le]
  · rw [← mul_le_mul_iff_right₀ d, ← left, ← right, mul_le_mul_iff_left₀ ten, Nat.cast_le]

/-- A grid point reads back when the number that it stands for rounds to the binary one. -/
theorem readsBack_iff : b.readsBack s g = true ↔ b.Covers (g * 10 ^ s) := by
  have lower := compare_steps b s (4 * b.significand - b.reachBelow) g
  have upper := compare_steps b s (4 * b.significand + 2) g
  rw [readsBack, Covers]
  dsimp only
  rw [show (if b.narrowBelow = true then 1 else 2) = b.reachBelow from rfl]
  generalize quarterSteps b.exponent s = p at *
  rw [inside]
  by_cases even : b.significand % 2 = 0
  · rw [if_pos even, if_pos (by rw [even]; rfl), Bool.and_eq_true, decide_eq_true_iff,
      decide_eq_true_iff, lower.1, upper.2]
  · rw [if_neg even, if_neg (by simpa using even), Bool.and_eq_true, decide_eq_true_iff,
      decide_eq_true_iff, ← Nat.not_le, ← Nat.not_le, lower.2, upper.1, not_le, not_le]

/-! ### A grid that is fine enough -/

/-- On a grid whose step is less than half a unit the next point up reads back. -/
theorem gridPoint?_isSome (h : (quarterSteps b.exponent s).2 < 2 * (quarterSteps b.exponent s).1) :
    (b.gridPoint? s).isSome = true := by
  have up : b.readsBack s (b.gridFloor s + 1) = true := by
    rw [readsBack, gridFloor]
    dsimp only
    have pos := (quarterSteps_pos b.exponent s).2
    generalize quarterSteps b.exponent s = p at *
    have below : 4 * b.significand * p.1 < (4 * b.significand * p.1 / p.2 + 1) * p.2 := by
      rw [mul_comm _ p.2]
      exact Nat.lt_mul_div_succ _ pos
    have above : (4 * b.significand * p.1 / p.2 + 1) * p.2 < (4 * b.significand + 2) * p.1 := by
      have whole := Nat.div_mul_le_self (4 * b.significand * p.1) p.2
      linarith
    have lower : (4 * b.significand - if b.narrowBelow = true then 1 else 2) * p.1 ≤
        4 * b.significand * p.1 := Nat.mul_le_mul_right _ (Nat.sub_le _ _)
    rw [inside]
    split
    · simp only [Bool.and_eq_true, decide_eq_true_eq]
      omega
    · simp only [Bool.and_eq_true, decide_eq_true_eq]
      omega
  rw [gridPoint?, if_pos up]
  split <;> rfl

/-- The search ends on a grid that offers a number, if there is one among those tried. -/
theorem searchFrom_readsBack {k : ℕ} (hk : k < n) (found : (b.gridPoint? (s - k)).isSome = true) :
    b.readsBack (b.searchFrom n s).exponent (b.searchFrom n s).digits = true := by
  induction n generalizing s k with
  | zero => cases hk
  | succ n ih =>
    rw [searchFrom]
    cases h : b.gridPoint? s with
    | some g => exact readsBack_of_gridPoint? h
    | none =>
      cases k with
      | zero =>
        rw [Nat.cast_zero, sub_zero, h] at found
        cases found
      | succ k =>
        refine ih (Nat.lt_of_succ_lt_succ hk) ?_
        rwa [Nat.cast_succ, add_comm, ← sub_sub] at found

/-- A fraction close above the decimal logarithm of two turns binary exponents into decimal ones
with an error of less than one bit, as long as they do not exceed its denominator. -/
theorem ten_zpow_le_of_log {k m : ℕ} (hk : k ≠ 0) (above : 2 ^ k ≤ 10 ^ m)
    (close : 10 ^ m ≤ 2 ^ (k + 1)) {e : ℤ} (he : e ≤ k) :
    (10 : ℚ) ^ (e * m / k) ≤ 2 ^ (e + 1) := by
  have above : (2 : ℚ) ^ k ≤ 10 ^ m := by exact_mod_cast above
  have close : (10 : ℚ) ^ m ≤ 2 ^ (k + 1) := by exact_mod_cast close
  have power : ((10 : ℚ) ^ m) ^ e ≤ 2 ^ ((e + 1) * k) := by
    obtain ⟨n, rfl | rfl⟩ := e.eq_nat_or_neg
    · calc ((10 : ℚ) ^ m) ^ (n : ℤ) ≤ (2 ^ (k + 1)) ^ n := by
            rw [zpow_natCast]
            exact pow_le_pow_left₀ (by positivity) close n
        _ = 2 ^ (((k + 1) * n : ℕ) : ℤ) := by rw [← pow_mul, zpow_natCast]
        _ ≤ 2 ^ ((n + 1 : ℤ) * k) := by
            refine zpow_le_zpow_right₀ one_le_two ?_
            push_cast
            linarith
    · calc ((10 : ℚ) ^ m) ^ (-(n : ℤ)) ≤ ((2 ^ k) ^ n)⁻¹ := by
            rw [zpow_neg, zpow_natCast]
            exact inv_anti₀ (by positivity) (pow_le_pow_left₀ (by positivity) above n)
        _ = 2 ^ (-((k * n : ℕ) : ℤ)) := by rw [← pow_mul, zpow_neg, zpow_natCast]
        _ ≤ 2 ^ ((-n + 1 : ℤ) * k) := by
            refine zpow_le_zpow_right₀ one_le_two ?_
            push_cast
            linarith
  have floor : e * m / k * k ≤ m * e := by
    rw [mul_comm (m : ℤ)]
    exact Int.ediv_mul_le _ (by exact_mod_cast hk)
  rw [← pow_le_pow_iff_left₀ (by positivity) (by positivity) hk, ← zpow_natCast, ← zpow_natCast,
    ← zpow_mul, ← zpow_mul]
  refine le_trans (zpow_le_zpow_right₀ (by norm_num) floor) ?_
  rwa [zpow_mul, zpow_natCast]

theorem ten_zpow_le {e : ℤ} (h : e ≤ 100000) : (10 : ℚ) ^ (e * 30103 / 100000) ≤ 2 ^ (e + 1) :=
  ten_zpow_le_of_log (by decide) (by decide +kernel) (by decide +kernel) h

/-- The numbers that have a word of 64 bits. -/
structure IsCanonical (b : Binary) : Prop where
  pos : 0 < b.significand
  significand_lt : b.significand < 2 ^ 53
  exponent_ge : -1074 ≤ b.exponent
  exponent_le : b.exponent ≤ 971
  normal : -1074 < b.exponent → 2 ^ 52 ≤ b.significand
  narrow : b.narrowBelow = true ↔ b.significand = 2 ^ 52 ∧ -1074 < b.exponent

theorem IsCanonical.exponent_top_le (h : b.IsCanonical) :
    (b.significand.log2 + 1 + b.exponent : ℤ) ≤ b.exponent + 53 := by
  have bits : b.significand.log2 < 53 := (Nat.log2_lt h.pos.ne').2 h.significand_lt
  omega

/-- The last grid that is tried is fine enough. -/
theorem IsCanonical.step_lt (h : b.IsCanonical) :
    (10 : ℚ) ^ (b.topExponent - 19) < 2 * b.quarter := by
  have top := h.exponent_top_le
  have le := h.exponent_le
  have log := ten_zpow_le (e := b.significand.log2 + 1 + b.exponent) (by omega)
  rw [topExponent, show ∀ t : ℤ, t + 1 - 19 = t + -18 by omega, zpow_add₀ (by norm_num)]
  calc (10 : ℚ) ^ ((b.significand.log2 + 1 + b.exponent) * 30103 / 100000) * 10 ^ (-18 : ℤ)
      ≤ 2 ^ (b.exponent + 53 + 1) * 10 ^ (-18 : ℤ) := by
        refine mul_le_mul_of_nonneg_right (log.trans ?_) (by positivity)
        exact zpow_le_zpow_right₀ one_le_two (by omega)
    _ = b.quarter * (2 ^ (56 : ℤ) * 10 ^ (-18 : ℤ)) := by
        rw [quarter, ← mul_assoc, ← zpow_add₀ two_ne_zero]
        congr 2
        omega
    _ < b.quarter * 2 := mul_lt_mul_of_pos_left (by norm_num) b.quarter_pos
    _ = 2 * b.quarter := mul_comm _ _

/-- The digits that are found stand for a number that rounds to the binary one. -/
theorem IsCanonical.covers_shortest (h : b.IsCanonical) : b.Covers b.shortest.value := by
  have fine : (quarterSteps b.exponent (b.topExponent - (19 : ℕ))).2 <
      2 * (quarterSteps b.exponent (b.topExponent - (19 : ℕ))).1 := by
    have eq : _ = _ * b.quarter := quarterSteps_eq b.exponent (b.topExponent - 19)
    have pos := (quarterSteps_pos b.exponent (b.topExponent - 19)).1
    by_contra coarse
    rw [Nat.cast_ofNat, Nat.not_lt] at coarse
    generalize quarterSteps b.exponent (b.topExponent - 19) = p at *
    have coarse : 2 * (p.1 : ℚ) ≤ p.2 := by exact_mod_cast coarse
    have a : (0 : ℚ) < p.1 := by exact_mod_cast pos
    have step := mul_lt_mul_of_pos_left h.step_lt a
    have reach := mul_le_mul_of_nonneg_right coarse b.quarter_pos.le
    linarith
  exact readsBack_iff.1 (searchFrom_readsBack (by decide) (gridPoint?_isSome fine))

/-! ### Different numbers have disjoint rounding intervals -/

theorem Covers.le {x : ℚ} (h : b.Covers x) :
    x ≤ (4 * b.significand + 2 : ℕ) * b.quarter ∧
      (x = (4 * b.significand + 2 : ℕ) * b.quarter → b.significand % 2 = 0) := by
  rw [Covers] at h
  split at h
  next even => exact ⟨h.2, fun _ => even⟩
  next => exact ⟨h.2.le, fun eq => absurd eq h.2.ne⟩

theorem Covers.ge {x : ℚ} (h : b.Covers x) :
    (4 * b.significand - b.reachBelow : ℕ) * b.quarter ≤ x ∧
      ((4 * b.significand - b.reachBelow : ℕ) * b.quarter = x → b.significand % 2 = 0) := by
  rw [Covers] at h
  split at h
  next even => exact ⟨h.1, fun _ => even⟩
  next => exact ⟨h.1.le, fun eq => absurd eq h.1.ne⟩

/-- A number lies below another one. -/
def Below (b b' : Binary) : Prop :=
  b.exponent < b'.exponent ∨ b.exponent = b'.exponent ∧ b.significand < b'.significand

/-- The intervals of two numbers meet at most in a middle, and then one significand is odd. -/
theorem IsCanonical.middles (h : b.IsCanonical) (h' : b'.IsCanonical) (below : Below b b') :
    ((4 * b.significand + 2 : ℕ) : ℚ) * b.quarter ≤
        (4 * b'.significand - b'.reachBelow : ℕ) * b'.quarter ∧
      (b.significand % 2 = 0 → b'.significand % 2 = 0 →
        ((4 * b.significand + 2 : ℕ) : ℚ) * b.quarter <
          (4 * b'.significand - b'.reachBelow : ℕ) * b'.quarter) := by
  have u := b.quarter_pos
  have reach := b'.reachBelow_le
  rcases below with lt | ⟨eq, lt⟩
  · -- the larger number is normal, and just above a power of two it reaches less far down
    have := h.significand_lt
    have := h.exponent_ge
    have normal := h'.normal (by omega)
    have narrow : b'.significand = 2 ^ 52 → b'.reachBelow = 1 := by
      intro power
      rw [reachBelow, if_pos (h'.narrow.2 ⟨power, by omega⟩)]
    have double : 2 * b.quarter ≤ b'.quarter := by
      rw [quarter, quarter, ← zpow_one_add₀ two_ne_zero]
      exact zpow_le_zpow_right₀ one_le_two (by omega)
    have scaled := mul_le_mul_of_nonneg_left double
      (Nat.cast_nonneg (α := ℚ) (4 * b'.significand - b'.reachBelow))
    rw [← mul_assoc] at scaled
    constructor
    · have le : 4 * b.significand + 2 ≤ (4 * b'.significand - b'.reachBelow) * 2 := by omega
      refine le_trans (mul_le_mul_of_nonneg_right ?_ u.le) scaled
      exact_mod_cast le
    · intro even _
      have lt : 4 * b.significand + 2 < (4 * b'.significand - b'.reachBelow) * 2 := by omega
      refine lt_of_lt_of_le (mul_lt_mul_of_pos_right ?_ u) scaled
      exact_mod_cast lt
  · rw [quarter, quarter, ← eq]
    constructor
    · have le : 4 * b.significand + 2 ≤ 4 * b'.significand - b'.reachBelow := by omega
      exact mul_le_mul_of_nonneg_right (by exact_mod_cast le) u.le
    · intro even even'
      have lt : 4 * b.significand + 2 < 4 * b'.significand - b'.reachBelow := by omega
      exact mul_lt_mul_of_pos_right (by exact_mod_cast lt) u

/-- No rational number rounds to two numbers. -/
theorem IsCanonical.disjoint {x : ℚ} (h : b.IsCanonical) (h' : b'.IsCanonical)
    (below : Below b b') (covers : b.Covers x) (covers' : b'.Covers x) : False := by
  obtain ⟨le, even⟩ := covers.le
  obtain ⟨ge, even'⟩ := covers'.ge
  obtain ⟨apart, strict⟩ := h.middles h' below
  have lower := le.antisymm (apart.trans ge)
  have upper := ge.antisymm (le.trans apart)
  have := strict (even lower) (even' upper)
  linarith

theorem IsCanonical.eq_of_covers {x : ℚ} (h : b.IsCanonical) (h' : b'.IsCanonical)
    (covers : b.Covers x) (covers' : b'.Covers x) : b = b' := by
  have exponents : b.exponent = b'.exponent := by
    rcases lt_trichotomy b.exponent b'.exponent with lt | eq | gt
    · exact (h.disjoint h' (.inl lt) covers covers').elim
    · exact eq
    · exact (h'.disjoint h (.inl gt) covers' covers).elim
  have significands : b.significand = b'.significand := by
    rcases lt_trichotomy b.significand b'.significand with lt | eq | gt
    · exact (h.disjoint h' (.inr ⟨exponents, lt⟩) covers covers').elim
    · exact eq
    · exact (h'.disjoint h (.inr ⟨exponents.symm, gt⟩) covers' covers).elim
  have narrow : b.narrowBelow = b'.narrowBelow := by
    rw [Bool.eq_iff_iff, h.narrow, h'.narrow, exponents, significands]
  cases b
  cases b'
  simp only at exponents significands narrow
  rw [exponents, significands, narrow]

end Binary

/-! ### Positional notation -/

/-- The number that digits stand for, with a point among them or none. -/
def positionalValue (cs : List Char) : ℚ :=
  let whole := cs.takeWhile Char.isDigit
  let fraction := (cs.dropWhile Char.isDigit).tail
  digitsValue (whole ++ fraction) * 10 ^ (-(fraction.length : ℤ))

theorem positionalValue_of_digits {cs : List Char} (h : ∀ c ∈ cs, c.isDigit = true) :
    positionalValue cs = digitsValue cs := by
  have none : cs.dropWhile Char.isDigit = [] := List.dropWhile_eq_nil_iff.2 h
  simp [positionalValue, none, List.takeWhile_eq_self_iff.2 h]

theorem positionalValue_of_point {whole fraction : List Char} (h : ∀ c ∈ whole, c.isDigit = true) :
    positionalValue (whole ++ '.' :: fraction) =
      digitsValue (whole ++ fraction) * 10 ^ (-(fraction.length : ℤ)) := by
  have point : ('.' :: fraction).takeWhile Char.isDigit = [] := rfl
  have behind : ('.' :: fraction).dropWhile Char.isDigit = '.' :: fraction := rfl
  simp only [positionalValue]
  rw [List.takeWhile_append_of_pos h, List.dropWhile_append_of_pos h, point, behind,
    List.append_nil, List.tail_cons]

theorem digitsValue_append_zeros (cs : List Char) (k : ℕ) :
    digitsValue (cs ++ List.replicate k '0') = digitsValue cs * 10 ^ k := by
  induction k with
  | zero => simp
  | succ k ih =>
    rw [List.replicate_succ', ← List.append_assoc, digitsValue, List.foldl_concat]
    rw [digitsValue] at ih
    rw [ih]
    simp only [Nat.sub_self, Nat.add_zero, digitsValue]
    ring

theorem digitsValue_zeros_append (cs : List Char) (k : ℕ) :
    digitsValue (List.replicate k '0' ++ cs) = digitsValue cs := by
  induction k with
  | zero => rfl
  | succ k ih => exact ih

/-- A number with a negative exponent is written with a point, and one with as many places behind
it. -/
theorem positional_of_fraction {x : Scientific} (h : x.exponent < 0) :
    ∃ whole fraction, x.positional.toList = whole ++ '.' :: fraction ∧
      (∀ c ∈ whole, c.isDigit = true) ∧ digitsValue (whole ++ fraction) = x.digits ∧
      (fraction.length : ℤ) = -x.exponent := by
  have digits : ∀ c ∈ Nat.toDigits 10 x.digits, c.isDigit = true :=
    fun c => isDigit_of_mem_toDigits
  have value := digitsValue_toDigits x.digits
  have places : ¬(-x.exponent).toNat = 0 := by omega
  simp only [Scientific.positional, if_neg places]
  generalize Nat.toDigits 10 x.digits = ds at *
  split
  next short =>
    refine ⟨['0'], List.replicate ((-x.exponent).toNat - ds.length) '0' ++ ds, ?_,
      List.forall_mem_singleton.2 rfl, ?_, ?_⟩
    · simp only [String.toList_append, String.toList_ofList]
      rfl
    · rw [← value]
      exact digitsValue_zeros_append ds _
    · rw [List.length_append, List.length_replicate]
      omega
  next long =>
    refine ⟨ds.take (ds.length - (-x.exponent).toNat), ds.drop (ds.length - (-x.exponent).toNat),
      String.toList_ofList, fun c hc => digits c (List.mem_of_mem_take hc), ?_, ?_⟩
    · rw [List.take_append_drop, value]
    · rw [List.length_drop]
      omega

theorem positional_of_whole {x : Scientific} (h : 0 ≤ x.exponent) :
    x.positional.toList = Nat.toDigits 10 x.digits ++ List.replicate x.exponent.toNat '0' := by
  have places : (-x.exponent).toNat = 0 := by omega
  simp only [Scientific.positional, if_pos places]
  exact String.toList_ofList

/-- The text of a number in positional notation tells the number. -/
theorem positionalValue_positional (x : Scientific) :
    positionalValue x.positional.toList = x.value := by
  rcases Int.lt_or_le x.exponent 0 with neg | nonneg
  · obtain ⟨whole, fraction, text, digits, value, length⟩ := positional_of_fraction neg
    rw [text, positionalValue_of_point digits, value, length, neg_neg, Scientific.value]
  · have digits : ∀ c ∈ Nat.toDigits 10 x.digits ++ List.replicate x.exponent.toNat '0',
        c.isDigit = true := by
      intro c hc
      rcases List.mem_append.1 hc with hc | hc
      · exact isDigit_of_mem_toDigits hc
      · rw [List.eq_of_mem_replicate hc]
        rfl
    have exponent : x.exponent = (x.exponent.toNat : ℤ) := by omega
    rw [positional_of_whole nonneg, positionalValue_of_digits digits, digitsValue_append_zeros,
      digitsValue_toDigits, Scientific.value, exponent, zpow_natCast]
    push_cast
    rfl

/-- Two numbers with the same fewest digits are the same. -/
theorem Binary.IsCanonical.eq_of_positional {b b' : Binary} (h : b.IsCanonical)
    (h' : b'.IsCanonical) (same : b.shortest.positional = b'.shortest.positional) : b = b' := by
  have value : b.shortest.value = b'.shortest.value := by
    rw [← positionalValue_positional, same, positionalValue_positional]
  exact h.eq_of_covers h' h.covers_shortest (value ▸ h'.covers_shortest)

/-- The digits of a positive number are not those of zero. -/
theorem Binary.IsCanonical.positional_ne_zero {b : Binary} (h : b.IsCanonical) :
    b.shortest.positional ≠ "0" := by
  intro zero
  have digits : ∀ c ∈ "0".toList, c.isDigit = true := List.all_eq_true.1 (by decide)
  have value : b.shortest.value = 0 := by
    rw [← positionalValue_positional, zero, positionalValue_of_digits digits]
    rfl
  have above : (0 : ℚ) < (4 * b.significand - b.reachBelow : ℕ) := by
    have pos := h.pos
    have reach := b.reachBelow_le
    exact_mod_cast (by omega : 0 < 4 * b.significand - b.reachBelow)
  have covers := h.covers_shortest.ge.1
  rw [value] at covers
  exact absurd covers (not_le.2 (mul_pos above b.quarter_pos))

end SolverBridge.Decimal
