import SolverBridge.Proofs.Objectives

/-! What is left when a body is split. A residual term is one that reading stopped at, so its
outermost operation is none of those that are seen through, and it has a scale other than zero,
because below a scale of zero nothing is reached. Put together again the parts of a split are
an expression with the value of the three parts, whatever they are: leaving out a coefficient of
one or a constant of zero changes no sum. -/

namespace SolverBridge

/-! ### Where reading stops -/

section Reading

variable {α : Type} [Scalar α]

namespace Expr

/-- Reading goes on below the outermost operation, or the expression is read to its end. -/
inductive SeenThrough : Expr α → Prop
  | const (c : α) : SeenThrough (.const c)
  | var (v : Var) : SeenThrough (.var v)
  | neg (a : Expr α) : SeenThrough (.neg a)
  | sum (es : List (Expr α)) : SeenThrough (.sum es)
  | factorLeft {a b : Expr α} {k : α} (ha : a.asConstant? = some k) : SeenThrough (.mul a b)
  | factorRight {a b : Expr α} {k : α} (hb : b.asConstant? = some k) : SeenThrough (.mul a b)
  | divisor {a b : Expr α} {k : α} (hb : b.asConstant? = some k) (nonzero : (k != 0) = true) :
      SeenThrough (.div a b)

theorem not_seenThrough {e : Expr α} (h : e.isIrreducible = true) : ¬e.SeenThrough := by
  intro seen
  cases seen with
  | const | var | neg | sum => cases h
  | factorLeft constant | factorRight constant => simp [isIrreducible, constant] at h
  | divisor constant nonzero => simp [isIrreducible, constant, nonzero] at h

/-- What is left of an expression has a scale, and reading stops at it. -/
theorem mem_residual_spec (s : α) (e : Expr α) :
    ∀ t ∈ e.residual s, (t.1 == 0) = false ∧ t.2.isIrreducible = true := by
  unfold residual
  induction s, e using pieces_induction with
  | zero | const | var => exact List.forall_mem_nil _
  | neg s a _ ih => exact ih
  | sum s es _ ih =>
    intro t ht
    rw [List.filterMap_flatMap] at ht
    obtain ⟨e, he, ht⟩ := List.mem_flatMap.1 ht
    exact ih e he t ht
  | mulLeft s a b k _ _ ih | mulRight s a b k _ _ ih => exact ih
  | div s a b k _ _ _ ih => exact ih
  | residual s e scale irreducible =>
    exact List.forall_mem_singleton.2 ⟨Bool.eq_false_of_not_eq_true scale, irreducible⟩

end Expr

theorem Split.mem_residual_ofBody {b : Body α} {t : α × Expr α} (h : t ∈ (ofBody b).residual) :
    (t.1 == 0) = false ∧ ¬t.2.SeenThrough := by
  rw [residual_ofBody] at h
  cases hb : b.expr with
  | none =>
    rw [hb] at h
    cases h
  | some e =>
    rw [hb] at h
    obtain ⟨scale, irreducible⟩ := e.mem_residual_spec 1 t h
    exact ⟨scale, Expr.not_seenThrough irreducible⟩

end Reading

/-! ### Put together again -/

section Value

variable [Transcendental] (p : Point Exact)

theorem Expr.evaluate_sum (es : List (Expr Exact)) :
    (Expr.sum es).evaluate p = Scalar.sum (es.map (Expr.evaluate p)) := by
  rw [evaluate, evaluateEach_eq_map]

theorem LinearForm.evaluate_termExpr (t : Exact × Var) :
    (termExpr t).evaluate p = t.1 * t.2.value p := by
  rw [termExpr]
  split
  · rename_i one
    rw [(exact_beq.1 one).1, exact_one_mul]
    rfl
  · rfl

theorem exact_sum_singleton (x : Exact) : Scalar.sum [x] = x := by
  rw [exact_sum_cons]
  exact add_zero _

/-- A form and a constant as an expression have the value of both. -/
theorem LinearForm.evaluate_toExpr (f : LinearForm Exact) (k : Exact) :
    (f.toExpr k).evaluate p = f.evaluate p + k := by
  have terms : Scalar.sum ((f.terms.map termExpr).map (Expr.evaluate p)) = f.evaluate p := by
    rw [List.map_map, LinearForm.evaluate, linearValue]
    exact congrArg _ (List.map_congr_left fun t _ => evaluate_termExpr p t)
  -- the constant is left out only where it adds nothing
  have items : Scalar.sum ((if k != 0 || (f.terms.map termExpr).isEmpty then
      f.terms.map termExpr ++ [.const k] else f.terms.map termExpr).map (Expr.evaluate p)) =
        f.evaluate p + k := by
    split
    · rw [List.map_append, exact_sum_append, terms]
      exact congrArg _ (exact_sum_singleton k)
    · rename_i without
      have zero : k = 0 := by
        by_contra other
        exact without (Bool.or_eq_true_iff.2 (.inl (exact_bne_finite.2 other)))
      rw [terms, zero, add_zero]
  rw [toExpr]
  split
  · rename_i single
    rw [← items, single, List.map_singleton, exact_sum_singleton]
  · rw [Expr.evaluate_sum, items]

namespace Split

theorem evaluate_residualTerm (t : Exact × Expr Exact) :
    (residualTerm t).evaluate p = t.1 * t.2.evaluate p := by
  rw [residualTerm]
  split
  · rename_i one
    rw [(exact_beq.1 one).1, exact_one_mul]
  · rfl

/-- The residual terms as one expression have the value of their sum. -/
theorem evaluate_residualExpr? (s : Split Exact) :
    (s.residualExpr?.map (Expr.evaluate p)).getD 0 = residualValue p s.residual := by
  have terms : Scalar.sum ((s.residual.map residualTerm).map (Expr.evaluate p)) =
      residualValue p s.residual := by
    rw [List.map_map, residualValue]
    exact congrArg _ (List.map_congr_left fun t _ => evaluate_residualTerm p t)
  rw [← terms, residualExpr?]
  cases s.residual.map residualTerm with
  | nil => rfl
  | cons e rest =>
    cases rest with
    | nil => exact (exact_sum_singleton _).symm
    | cons => exact Expr.evaluate_sum p _

/-- The parts put together have the value of the parts. -/
theorem evaluate_toExpr (s : Split Exact) : s.toExpr.evaluate p = s.value p := by
  have residual := evaluate_residualExpr? p s
  rw [value, ← residual, toExpr, ← LinearForm.evaluate_toExpr]
  cases s.residualExpr? with
  | none => exact (add_zero _).symm
  | some e =>
    dsimp only
    rw [Expr.evaluate_sum, List.map_cons, exact_sum_cons, List.map_singleton, exact_sum_singleton]
    rfl

end Split

end Value

/-! ### Splitting -/

/-- Splitting a body keeps its value at every point where each part of it is defined, and the
parts put together again have that value as well. The residual terms are scaled by numbers other
than zero and nothing in them is seen through, and the linear form is canonical. -/
theorem Split.ofBody_exact [Transcendental] (b : Body Exact) :
    (∀ p : Point Exact, p.IsRational → b.IsRational → b.DefinedAt p →
      (ofBody b).form.evaluate p + (ofBody b).constant +
          Scalar.sum ((ofBody b).residual.map fun t => t.1 * t.2.evaluate p) =
        b.affine.evaluate p + (b.expr.map (Expr.evaluate p)).getD 0 ∧
      (ofBody b).toExpr.evaluate p =
        b.affine.evaluate p + (b.expr.map (Expr.evaluate p)).getD 0) ∧
    (∀ t ∈ (ofBody b).residual, t.1 ≠ 0 ∧ ¬t.2.SeenThrough) ∧
    (ofBody b).form.Canonical := by
  refine ⟨fun p hp hr hd => ?_, fun t ht => ?_, canonical_form b⟩
  · obtain ⟨-, value⟩ := ofBody_spec hp hr (hd.value hp hr)
    exact ⟨value, (evaluate_toExpr p _).trans value⟩
  · obtain ⟨scale, stopped⟩ := mem_residual_ofBody ht
    refine ⟨fun zero => ?_, stopped⟩
    rw [zero] at scale
    exact Bool.false_ne_true (scale.symm.trans (exact_beq_finite.2 rfl))

open Exact.SquareOnly in
/-- Twice the difference of a variable and a quarter of a product: one term of
`3 * x - y + 2 * (y - x * y / 4)` is left, the product, with the scale `-1 / 2`. -/
theorem Split.ofBody_exact_quarter :
    let p : Point Exact := [.finite 5, .finite 2]
    let product : Expr Exact := .mul (.var ⟨0⟩) (.var ⟨1⟩)
    let b : Body Exact := ⟨⟨[(.finite 3, ⟨0⟩), (.finite (-1), ⟨1⟩)], .finite 0⟩,
      some (.mul (.const (.finite 2)) (.sum [.var ⟨1⟩, .neg (.div product (.const (.finite 4)))]))⟩
    (ofBody b).residual.map (·.1) = [.finite (-1 / 2)] ∧
      (∀ t ∈ (ofBody b).residual, ¬t.2.SeenThrough) ∧
      (ofBody b).toExpr.evaluate p = .finite 12 := by
  intro p product b
  have rational : p.IsRational :=
    List.forall_mem_cons.2 ⟨⟨5, rfl⟩, List.forall_mem_singleton.2 ⟨2, rfl⟩⟩
  have numbers : b.IsRational := by
    refine ⟨List.forall_mem_cons.2 ⟨⟨3, rfl⟩, List.forall_mem_singleton.2 ⟨-1, rfl⟩⟩, ⟨0, rfl⟩,
      fun e h => ?_⟩
    cases h
    exact List.forall_mem_cons.2 ⟨⟨2, rfl⟩, List.forall_mem_singleton.2 ⟨4, rfl⟩⟩
  have defined : b.DefinedAt p := by
    constructor
    · unfold Exact.IsDefined
      decide +kernel
    · intro e h
      cases h
      unfold Expr.DefinedAt Exact.IsDefined
      decide +kernel
  obtain ⟨value, residual, -⟩ := Split.ofBody_exact b
  refine ⟨by decide +kernel, fun t ht => (residual t ht).2, ?_⟩
  exact (value p rational numbers defined).2.trans (by decide +kernel)

end SolverBridge
