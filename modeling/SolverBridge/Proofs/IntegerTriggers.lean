import SolverBridge.Proofs.Classification

/-! Indicators whose trigger is an integer. A test of a variable is a comparison with zero or one,
or a negation, which compares with zero, and an indicator makes the same comparison; the variable
alone is also a test, and it is true at every number but zero, while its indicator asks for one.
So an implication with the variable alone for its condition is stronger than its indicator at
the integers that are neither zero nor one, where the indicator asks for nothing. -/

namespace SolverBridge

namespace Constraint

/-- The constraint is an implication whose condition is a variable, compared with nothing. -/
def HasBareTrigger {α : Type} : Constraint α → Prop
  | .logical (.implies (.var _) _) => True
  | _ => False

theorem hasBareTrigger_implies {α : Type} {condition consequence : Expr α} :
    (logical (.implies condition consequence)).HasBareTrigger ↔ ∃ v, condition = .var v := by
  cases condition with
  | var v => exact iff_of_true trivial ⟨v, rfl⟩
  | _ => exact iff_of_false id nofun

end Constraint

theorem quadraticOrGeneral_ne_indicator {α : Type} [Scalar α] {source : Constraint α}
    {f : LinearForm α} {residual : List (α × Expr α)} {l u : α} {i : Indicator α} :
    quadraticOrGeneral source f residual l u ≠ .indicator i := by
  rw [quadraticOrGeneral]
  intro h
  split at h
  · cases h
  · dsimp only at h
    split at h <;> cases h

variable {p : Point Exact}

/-- Only implications become indicators. -/
theorem exists_logical_of_indicator [Exact.SquareLaw] {c : Constraint Exact} {i : Indicator Exact}
    (h : classifyConstraint c = .indicator i) :
    ∃ e, c = .logical e ∧ Indicator.ofExpr? e = some i := by
  cases c with
  | range b l u =>
    rw [classifyConstraint] at h
    dsimp only [classifyRange] at h
    split at h
    · cases h
    · split at h
      · rename_i function
        obtain ⟨f, g, rfl⟩ := functionOfRange?_isFunction function
        cases h
      · exact absurd h quadraticOrGeneral_ne_indicator
  | defining r b =>
    rw [classifyConstraint, classifyDefinition] at h
    split at h
    · cases h
    · split at h
      · rename_i function
        obtain ⟨f, g, rfl⟩ := functionOfDefinition?_isFunction function
        cases h
      · exact absurd h quadraticOrGeneral_ne_indicator
  | logical e =>
    rw [classifyConstraint] at h
    split at h
    · rename_i found
      cases h
      exact ⟨e, rfl, found⟩
    · cases h

/-! ### Integers -/

/-- An integer is the nearest integer to itself. -/
theorem exact_round_intCast [Transcendental] (z : Int) :
    Scalar.round (.finite z : Exact) = .finite z := by
  have nearest (y : Int) : ((y : Rat) + 1 / 2).floor = y := by
    have half : (1 / 2 : Rat).floor = 0 := by decide +kernel
    rw [add_comm, Rat.floor_add_intCast, half, zero_add]
  show Exact.round (.finite z) = .finite z
  rw [Exact.round, Exact.finite.injEq]
  split
  · rw [← Int.cast_neg z, nearest, Int.cast_neg, neg_neg]
  · rw [nearest]

theorem Indicator.isTriggered_int [Transcendental] {i : Indicator Exact} {z : Int}
    (h : i.trigger.value p = .finite z) :
    i.isTriggered p = (i.trigger.value p == .finite i.value) := by
  rw [Indicator.isTriggered, h, exact_round_intCast, finite_ofInt]

section

variable [Exact.SquareLaw]

/-- An implication that becomes an indicator says at every integer what the indicator says, and an
implication whose condition is a variable alone says at zero and one what it says. -/
theorem isTrue_evaluate_indicator (hp : p.IsRational) {e : Expr Exact} {i : Indicator Exact}
    (hr : e.IsRational) (hd : e.DefinedAt p) (h : Indicator.ofExpr? e = some i) {z : Int}
    (hz : i.trigger.value p = .finite z) :
    (Constraint.logical e).HasBareTrigger ∧ i.value = 1 ∧ Scalar.isTrue (e.evaluate p) =
        (decide (z = 0) || Scalar.le (i.form.evaluate p) i.rhs) ∨
      ¬(Constraint.logical e).HasBareTrigger ∧ Scalar.isTrue (e.evaluate p) =
        (!i.isTriggered p || Scalar.le (i.form.evaluate p) i.rhs) := by
  obtain ⟨condition, consequence, rfl, hr', trigger, -, -, -, holds⟩ :=
    Indicator.exists_of_ofExpr? hp hr hd h
  rw [Constraint.hasBareTrigger_implies, Expr.evaluate, isTrue_truth, holds]
  rcases trigger?_cases (p := p) hr' trigger with ⟨rfl, one⟩ | ⟨other, -, value⟩
  · refine .inl ⟨⟨_, rfl⟩, one, ?_⟩
    have zero : (Exact.finite z == .finite 0) = decide (z = 0) := by
      rw [Bool.eq_iff_iff, exact_beq_finite, Exact.finite.injEq, decide_eq_true_iff]
      exact Int.cast_eq_zero
    rw [Expr.evaluate, hz, ← zero]
    rfl
  · refine .inr ⟨not_exists.2 other, ?_⟩
    rw [value, Indicator.isTriggered_int hz]

/-- Let an implication be classified as an indicator, at a point where its trigger is an integer.
Then the indicator holds wherever the implication does, and the other way around unless the
condition is a variable alone, its value is neither zero nor one, and the consequence is false. -/
theorem isSatisfied_indicator_int (hp : p.IsRational) {c : Constraint Exact} {i : Indicator Exact}
    (hr : c.IsRational) (hd : c.DefinedAt p) (h : classifyConstraint c = .indicator i) {z : Int}
    (hz : i.trigger.value p = .finite z) :
    (c.isSatisfied p (.finite 0) = true →
      (classifyConstraint c).isSatisfied p (.finite 0) = true) ∧
    ((classifyConstraint c).isSatisfied p (.finite 0) = c.isSatisfied p (.finite 0) ↔
      (c.HasBareTrigger → z = 0 ∨ z = 1 ∨ Scalar.le (i.form.evaluate p) i.rhs = true)) := by
  obtain ⟨e, rfl, found⟩ := exists_logical_of_indicator h
  rw [h, Indicator.isSatisfied_zero, Constraint.isSatisfied]
  rcases isTrue_evaluate_indicator hp hr hd found hz with ⟨bare, one, value⟩ | ⟨compared, value⟩
  · have triggered : i.isTriggered p = decide (z = 1) := by
      rw [Indicator.isTriggered_int hz, hz, one, Bool.eq_iff_iff, exact_beq_finite,
        Exact.finite.injEq, Int.cast_inj, decide_eq_true_iff]
    rw [value, triggered]
    by_cases zero : z = 0
    · simp [zero]
    · by_cases one : z = 1
      · simp [one]
      · simp [zero, one, bare]
  · simp [value, compared]

end

/-! ### A trigger that is two or three -/

open Exact.SquareOnly in
/-- Where the trigger is three, a comparison of it with one and its indicator agree. -/
theorem isSatisfied_indicator_three :
    let p : Point Exact := [.finite 3, .finite 6]
    let c : Constraint Exact := .logical (.implies (.compare .eq (.const (.finite 1)) (.var ⟨0⟩))
      (.compare .le (.var ⟨1⟩) (.const (.finite 5))))
    (classifyConstraint c).isSatisfied p (.finite 0) = c.isSatisfied p (.finite 0) := by
  intro p c
  have rational : p.IsRational := by
    intro x hx
    simp only [p, List.mem_cons, List.not_mem_nil, or_false] at hx
    rcases hx with rfl | rfl <;> exact Exact.isRational_finite _
  have numbers : c.IsRational := by
    unfold Constraint.IsRational
    decide +kernel
  have defined : c.DefinedAt p := by
    unfold Constraint.DefinedAt Expr.DefinedAt Exact.IsDefined
    decide +kernel
  obtain ⟨f, k, h⟩ : ∃ f k, classifyConstraint c = .indicator ⟨⟨0⟩, 1, f, k⟩ := by
    have linear : (Split.ofExpr (.var ⟨1⟩ : Expr Exact)).isLinear = true ∧
        (Split.ofExpr (.const (.finite 5) : Expr Exact)).isLinear = true := by decide +kernel
    have tested : trigger? (.compare .eq (.const (.finite 1)) (.var ⟨0⟩) : Expr Exact) =
        some (⟨0⟩, 1) := by decide +kernel
    simp [c, classifyConstraint, Indicator.ofExpr?, tested, linear, inequality?]
  exact (isSatisfied_indicator_int rational numbers defined h (z := 3) rfl).2.2 False.elim

open Exact.SquareOnly in
/-- Where the trigger is two, the variable alone is true, and its indicator asks for nothing. -/
theorem isSatisfied_indicator_bare_two :
    let p : Point Exact := [.finite 2, .finite 6]
    let c : Constraint Exact :=
      .logical (.implies (.var ⟨0⟩) (.compare .le (.var ⟨1⟩) (.const (.finite 5))))
    (∃ f k, classifyConstraint c = .indicator ⟨⟨0⟩, 1, f, k⟩) ∧ p.IsRational ∧ c.IsRational ∧
      c.DefinedAt p ∧
      (classifyConstraint c).isSatisfied p (.finite 0) ≠ c.isSatisfied p (.finite 0) := by
  intro p c
  refine ⟨?_, ?_, ?_, ?_, by decide +kernel⟩
  · have linear : (Split.ofExpr (.var ⟨1⟩ : Expr Exact)).isLinear = true ∧
        (Split.ofExpr (.const (.finite 5) : Expr Exact)).isLinear = true := by decide +kernel
    simp [c, classifyConstraint, Indicator.ofExpr?, trigger?, linear, inequality?]
  · intro x hx
    simp only [p, List.mem_cons, List.not_mem_nil, or_false] at hx
    rcases hx with rfl | rfl <;> exact Exact.isRational_finite _
  · unfold Constraint.IsRational
    decide +kernel
  · unfold Constraint.DefinedAt Expr.DefinedAt Exact.IsDefined
    decide +kernel

end SolverBridge
