import SolverBridge.Scalar.Exact
import Mathlib.Algebra.BigOperators.Group.List.Basic
import Mathlib.Algebra.Order.Field.Rat
import Mathlib.Tactic.Linarith
import Mathlib.Tactic.Ring

/-! The algebra of the exact numbers. Under addition they form a commutative monoid, since a
sum is undefined as soon as one summand is, or two summands are opposite infinities, in
whatever order they come. So finite sums may be taken in any order without knowing that
their terms are rational. Multiplication is weaker: a rational factor distributes over
every sum, but an infinite one does not, because terms may cancel before it is applied.
Comparisons of rationals are those of the rational numbers, and a rational number may be
moved from one side of a bound to the other even when the bound is infinite. -/

namespace SolverBridge

namespace Exact

/-- The number is neither infinite nor undefined. -/
def IsRational (a : Exact) : Prop := ∃ q : Rat, a = .finite q

theorem isRational_finite (q : Rat) : IsRational (.finite q) := ⟨q, rfl⟩

instance : DecidablePred IsRational
  | .finite q => .isTrue ⟨q, rfl⟩
  | .posInf | .negInf | .nan => .isFalse nofun

theorem IsRational.isDefined {a : Exact} (h : a.IsRational) : a.IsDefined := by
  obtain ⟨q, rfl⟩ := h
  exact nofun

theorem add_assoc_cases (a b c : Exact) : (a.add b).add c = a.add (b.add c) := by
  cases a <;> cases b <;> cases c <;> simp only [add, Rat.add_assoc]

-- Sums of exact numbers do not depend on the functions that `Scalar` asks for.
instance (priority := high) : Zero Exact := ⟨.finite 0⟩

instance (priority := high) : Add Exact := ⟨add⟩

instance : AddCommMonoid Exact where
  add := add
  zero := .finite 0
  add_assoc := add_assoc_cases
  zero_add := zero_add
  add_zero a := (add_comm a (.finite 0)).trans (zero_add a)
  add_comm := add_comm
  nsmul := @nsmulRec _ ⟨.finite 0⟩ ⟨add⟩

end Exact

theorem exact_zero : (0 : Exact) = .finite 0 := rfl

theorem exact_add (a b : Exact) : a + b = a.add b := rfl

theorem finite_add (a b : Rat) : Exact.finite a + .finite b = .finite (a + b) := rfl

section Arithmetic

variable [Transcendental]

theorem exact_one : (1 : Exact) = .finite 1 := rfl

theorem finite_mul (a b : Rat) : Exact.finite a * .finite b = .finite (a * b) := rfl

theorem finite_neg (a : Rat) : -Exact.finite a = .finite (-a) := rfl

theorem finite_sub (a b : Rat) : Exact.finite a - .finite b = .finite (a - b) := by
  rw [sub_eq_add_neg]
  rfl

theorem finite_div (a : Rat) {b : Rat} (h : b ≠ 0) :
    Exact.finite a / .finite b = .finite (a / b) := if_neg h

theorem finite_ofInt (i : Int) : (Scalar.ofInt i : Exact) = .finite i := rfl

theorem exact_sub (a b : Exact) : a - b = a + -b := rfl

theorem exact_mul_comm (a b : Exact) : a * b = b * a := Exact.mul_comm a b

/-! ### Products -/

theorem exact_one_mul (a : Exact) : 1 * a = a := by
  cases a with
  | finite x => rw [exact_one, finite_mul, Rat.one_mul]
  | _ => rfl

theorem finite_mul_posInf (q : Rat) : Exact.finite q * .posInf =
    if 0 < q then .posInf else if q < 0 then .negInf else .nan := rfl

theorem finite_mul_negInf (q : Rat) : Exact.finite q * .negInf =
    if 0 < q then .negInf else if q < 0 then .posInf else .nan := rfl

theorem finite_mul_nan (q : Rat) : Exact.finite q * .nan = .nan := rfl

/-- The last factor is any number: an infinity is turned by each negative factor. -/
theorem finite_mul_assoc (q r : Rat) (a : Exact) :
    Exact.finite q * (.finite r * a) = .finite (q * r) * a := by
  rcases lt_trichotomy q 0 with hq | rfl | hq <;>
    rcases lt_trichotomy r 0 with hr | rfl | hr <;> cases a <;>
    simp [finite_mul, finite_mul_posInf, finite_mul_negInf, finite_mul_nan, mul_pos_iff,
      mul_neg_iff, mul_assoc, *, not_lt_of_gt]

/-- A rational factor distributes over a sum. -/
theorem finite_mul_add (q : Rat) (a b : Exact) :
    Exact.finite q * (a + b) = .finite q * a + .finite q * b := by
  rcases lt_trichotomy q 0 with hq | rfl | hq <;> cases a <;> cases b <;>
    simp [exact_add, Exact.add, finite_mul, finite_mul_posInf, finite_mul_negInf,
      finite_mul_nan, mul_add, *, not_lt_of_gt]

theorem finite_mul_zero (q : Rat) : Exact.finite q * 0 = 0 := by
  rw [exact_zero, finite_mul, mul_zero]

/-- The product with a number that is not rational is not zero, since it is then undefined. -/
theorem finite_zero_mul {a : Exact} (h : (Exact.finite 0 * a).IsDefined) :
    Exact.finite 0 * a = 0 := by
  cases a with
  | finite x => rw [finite_mul, zero_mul, exact_zero]
  | _ => exact absurd rfl h

theorem isDefined_of_mul {a b : Exact} (h : (a * b).IsDefined) : b.IsDefined := by
  rintro rfl
  cases a <;> exact h rfl

theorem finite_zero_mul_cases (a : Exact) :
    Exact.finite 0 * a = .finite 0 ∨ Exact.finite 0 * a = .nan := by
  cases a with
  | finite x => exact .inl (by rw [finite_mul, zero_mul])
  | _ => exact .inr rfl

theorem exact_neg_eq (a : Exact) : -a = .finite (-1) * a := by
  cases a with
  | finite x => rw [finite_neg, finite_mul, neg_one_mul]
  | _ => rfl

theorem exact_div_eq (a : Exact) {k : Rat} (h : k ≠ 0) : a / .finite k = .finite k⁻¹ * a := by
  cases a with
  | finite x => rw [finite_div x h, finite_mul, div_eq_mul_inv, mul_comm]
  | posInf =>
    simp only [finite_mul_posInf, inv_pos, inv_neg'']
    rfl
  | negInf =>
    simp only [finite_mul_negInf, inv_pos, inv_neg'']
    rfl
  | nan => rfl

omit [Transcendental] in
theorem Exact.IsDefined.of_add {a b : Exact} (h : (a + b).IsDefined) :
    a.IsDefined ∧ b.IsDefined := by
  constructor <;> rintro rfl
  · exact h rfl
  · cases a <;> exact h rfl

/-! ### Rational numbers -/

namespace Exact.IsRational

variable {a b : Exact}

omit [Transcendental] in
theorem zero : IsRational 0 := ⟨0, rfl⟩

theorem one : IsRational 1 := ⟨1, rfl⟩

omit [Transcendental] in
theorem add (ha : a.IsRational) (hb : b.IsRational) : (a + b).IsRational := by
  obtain ⟨x, rfl⟩ := ha
  obtain ⟨y, rfl⟩ := hb
  exact ⟨x + y, rfl⟩

theorem mul (ha : a.IsRational) (hb : b.IsRational) : (a * b).IsRational := by
  obtain ⟨x, rfl⟩ := ha
  obtain ⟨y, rfl⟩ := hb
  exact ⟨x * y, rfl⟩

theorem neg (ha : a.IsRational) : (-a).IsRational := by
  obtain ⟨x, rfl⟩ := ha
  exact ⟨-x, rfl⟩

theorem sub (ha : a.IsRational) (hb : b.IsRational) : (a - b).IsRational := ha.add hb.neg

omit [Transcendental] in
theorem add_isDefined (ha : a.IsRational) (hb : b.IsDefined) : (a + b).IsDefined := by
  obtain ⟨x, rfl⟩ := ha
  cases b with
  | nan => exact absurd rfl hb
  | _ => exact nofun

omit [Transcendental] in
theorem of_add (h : (a + b).IsRational) : a.IsRational ∧ b.IsRational := by
  obtain ⟨q, hq⟩ := h
  cases a with
  | finite x =>
    cases b with
    | finite y => exact ⟨⟨x, rfl⟩, ⟨y, rfl⟩⟩
    | _ => cases hq
  | _ => cases b <;> cases hq

end Exact.IsRational

/-! ### Sums -/

theorem exact_sum_eq (xs : List Exact) : Scalar.sum xs = xs.sum := by
  rw [Scalar.sum, List.sum_eq_foldl]
  rfl

theorem exact_sum_cons (x : Exact) (xs : List Exact) :
    Scalar.sum (x :: xs) = x + Scalar.sum xs := by
  rw [exact_sum_eq, exact_sum_eq, List.sum_cons]

theorem exact_sum_append (xs ys : List Exact) :
    Scalar.sum (xs ++ ys) = Scalar.sum xs + Scalar.sum ys := by
  simp only [exact_sum_eq, List.sum_append]

theorem isRational_sum {xs : List Exact} (h : ∀ x ∈ xs, x.IsRational) :
    (Scalar.sum xs).IsRational := by
  induction xs with
  | nil => exact .zero
  | cons x xs ih =>
    rw [exact_sum_cons]
    exact (h x List.mem_cons_self).add (ih fun y hy => h y (List.mem_cons_of_mem x hy))

theorem finite_mul_sum (q : Rat) (xs : List Exact) :
    Exact.finite q * Scalar.sum xs = Scalar.sum (xs.map (.finite q * ·)) := by
  induction xs with
  | nil => exact finite_mul_zero q
  | cons x xs ih => rw [exact_sum_cons, finite_mul_add, ih, List.map_cons, exact_sum_cons]

/-- Each summand of a sum that is defined is defined. -/
theorem isDefined_of_mem_sum {xs : List Exact} (h : (Scalar.sum xs).IsDefined) {x : Exact}
    (hx : x ∈ xs) : x.IsDefined := by
  induction xs with
  | nil => exact absurd hx List.not_mem_nil
  | cons y ys ih =>
    rw [exact_sum_cons] at h
    rcases List.mem_cons.1 hx with rfl | hx
    · exact h.of_add.1
    · exact ih h.of_add.2 hx

/-! ### Comparisons -/

theorem exact_beq {a b : Exact} : (a == b) = true ↔ a = b ∧ a.IsDefined := Exact.eq_iff

theorem exact_beq_finite {a : Exact} {q : Rat} : (a == .finite q) = true ↔ a = .finite q :=
  exact_beq.trans ⟨And.left, fun h => ⟨h, by rw [h]; exact nofun⟩⟩

theorem exact_bne_finite {a : Exact} {q : Rat} : (a != .finite q) = true ↔ a ≠ .finite q := by
  rw [bne, Bool.not_eq_true', ← Bool.not_eq_true, exact_beq_finite]

theorem exact_beq_comm (a b : Exact) : (a == b) = (b == a) := by
  rw [Bool.eq_iff_iff, exact_beq, exact_beq]
  constructor
  · rintro ⟨rfl, h⟩
    exact ⟨rfl, h⟩
  · rintro ⟨rfl, h⟩
    exact ⟨rfl, h⟩

theorem le_finite {a b : Rat} : Scalar.le (Exact.finite a) (.finite b) = true ↔ a ≤ b := by
  simp [Scalar.le, Exact.le, Exact.lt, Exact.eq, le_iff_lt_or_eq]

theorem lt_finite {a b : Rat} : Scalar.lt (Exact.finite a) (.finite b) = true ↔ a < b := by
  simp [Scalar.lt, Exact.lt]

theorem exact_le_trans {a b c : Exact} (h : Scalar.le a b = true) (h' : Scalar.le b c = true) :
    Scalar.le a c = true := by
  cases a <;> cases b <;> cases c <;> simp_all [Scalar.le, Exact.le, Exact.lt, Exact.eq]
  grind

theorem exact_le_of_not_lt {a b : Exact} (ha : a.IsDefined) (hb : b.IsDefined)
    (h : ¬Scalar.lt a b = true) : Scalar.le b a = true := by
  cases a with
  | nan => exact absurd rfl ha
  | finite x =>
    cases b with
    | nan => exact absurd rfl hb
    | finite y => exact le_finite.2 (not_lt.1 fun hxy => h (lt_finite.2 hxy))
    | posInf => exact absurd rfl h
    | negInf => rfl
  | posInf => cases b <;> first | rfl | exact absurd rfl hb
  | negInf => cases b <;> first | rfl | exact absurd rfl h | exact absurd rfl hb

theorem exact_le_of_lt {a b : Exact} (h : Scalar.lt a b = true) : Scalar.le a b = true :=
  Bool.or_eq_true_iff.2 (.inl h)

theorem exact_le_max_left {a : Exact} (b : Exact) (h : a.IsDefined) :
    Scalar.le a (Scalar.max a b) = true := by
  rw [Scalar.max, if_pos (exact_beq.2 ⟨rfl, h⟩)]
  split
  · exact exact_le_of_lt ‹_›
  · exact Exact.le_refl h

theorem exact_le_max_right (a : Exact) {b : Exact} (h : b.IsDefined) :
    Scalar.le b (Scalar.max a b) = true := by
  rw [Scalar.max]
  split
  · rename_i ha
    split
    · exact Exact.le_refl h
    · exact exact_le_of_not_lt (exact_beq.1 ha).2 h ‹_›
  · exact Exact.le_refl h

/-- What is below a rational number. -/
theorem le_finite_cases {l : Exact} {x : Rat} (h : Scalar.le l (.finite x) = true) :
    l = .negInf ∨ ∃ y ≤ x, l = .finite y := by
  cases l with
  | finite y => exact .inr ⟨y, le_finite.1 h, rfl⟩
  | negInf => exact .inl rfl
  | _ => cases h

/-- What is above a rational number. -/
theorem finite_le_cases {u : Exact} {x : Rat} (h : Scalar.le (.finite x) u = true) :
    u = .posInf ∨ ∃ y, x ≤ y ∧ u = .finite y := by
  cases u with
  | finite y => exact .inr ⟨y, le_finite.1 h, rfl⟩
  | posInf => exact .inl rfl
  | _ => cases h

theorem abs_finite (a : Rat) : Scalar.abs (Exact.finite a) = .finite |a| := by
  rcases lt_or_ge a 0 with h | h
  · simp [Scalar.abs, Exact.abs, h, abs_of_neg]
  · simp [Scalar.abs, Exact.abs, not_lt_of_ge h, abs_of_nonneg h]

theorem isFinite_iff {a : Exact} : Scalar.isFinite a = true ↔ a.IsRational := by
  constructor
  · intro h
    cases a with
    | finite q => exact ⟨q, rfl⟩
    | _ => cases h
  · rintro ⟨q, rfl⟩
    rfl

/-- A rational number added to both sides changes no comparison. -/
theorem le_add_finite (a b : Exact) (k : Rat) :
    Scalar.le (a + .finite k) (b + .finite k) = Scalar.le a b := by
  cases a <;> cases b <;> simp [exact_add, Exact.add, Scalar.le, Exact.le, Exact.lt, Exact.eq]

theorem sub_add_finite (a : Exact) (k : Rat) : a - .finite k + .finite k = a := by
  rw [exact_sub, add_assoc, finite_neg, finite_add, neg_add_cancel]
  exact add_zero a

/-- A rational part of the value moves into the bounds, infinite ones included. -/
theorem within_add_finite (t k : Rat) (v l u : Exact) :
    Scalar.within (.finite t) (v + .finite k) l u =
      Scalar.within (.finite t) v (l - .finite k) (u - .finite k) := by
  have lower : l - .finite t = l - .finite k - .finite t + .finite k := by
    rw [exact_sub (l - _), add_right_comm, sub_add_finite, exact_sub]
  have upper : u + .finite t = u - .finite k + .finite t + .finite k := by
    rw [add_right_comm, sub_add_finite]
  rw [Scalar.within, Scalar.within, lower, upper, le_add_finite, le_add_finite]

theorem within_finite {t v l u : Rat} :
    Scalar.within (.finite t) (.finite v) (.finite l) (Exact.finite u) = true ↔
      l - t ≤ v ∧ v ≤ u + t := by
  rw [Scalar.within, Bool.and_eq_true, finite_sub, finite_add, le_finite, le_finite]

theorem close_finite {t a b : Rat} :
    Scalar.close (.finite t) (.finite a) (Exact.finite b) = true ↔ |a - b| ≤ t := by
  rw [Scalar.close, finite_sub, abs_finite, le_finite]

/-- Without tolerance and with equal bounds the value is given. -/
theorem within_zero {v : Exact} {q : Rat} :
    Scalar.within (.finite 0) v (.finite q) (Exact.finite q) = true ↔ v = .finite q := by
  cases v with
  | finite x =>
    rw [within_finite, sub_zero, Rat.add_zero, Exact.finite.injEq]
    exact ⟨fun h => le_antisymm h.2 h.1, fun h => ⟨h.ge, h.le⟩⟩
  | _ => exact ⟨nofun, nofun⟩

/-- Without tolerance only a rational number itself is close to it. -/
theorem close_zero {q : Rat} {a : Exact} :
    Scalar.close (.finite 0) (.finite q) a = true ↔ a = .finite q := by
  cases a with
  | finite x =>
    rw [close_finite, Exact.finite.injEq, abs_nonpos_iff, sub_eq_zero]
    exact eq_comm
  | _ => exact ⟨nofun, nofun⟩

end Arithmetic

namespace Exact.SquareOnly

/-- Functions without values, but for the second power. -/
scoped instance : SquareLaw where
  exp _ := .nan
  log _ := .nan
  sin _ := .nan
  cos _ := .nan
  tan _ := .nan
  pow a b := if b = .finite 2 then a.mul a else .nan
  pow_two _ := if_pos rfl

end Exact.SquareOnly

end SolverBridge
