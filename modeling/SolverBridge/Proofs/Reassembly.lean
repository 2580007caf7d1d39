import SolverBridge.Proofs.Irreducible
import SolverBridge.Proofs.Spelling

/-! Splitting what was put together. A split whose form is canonical and whose residual terms are
out of reach of a second reading is recovered from its expression, part by part and in order. The
spelling varies: a coefficient or a scale of one is left out, a constant of zero is written only
where nothing else stands, and one residual term stands without a sum. None of this is seen after
reading, because a scale goes into the terms below it, a sum is read item by item, and a constant
that is not written counts as zero. Every split of a body is of this kind. -/

namespace SolverBridge

/-! ### Out of reach -/

section Reading

variable {α : Type} [Scalar α]

namespace Split

/-- The form is canonical, and a second reading goes through no residual term. -/
structure Reduced (s : Split α) : Prop where
  form : s.form.Canonical
  residual : ∀ t ∈ s.residual, (t.1 == 0) = false ∧ t.2.isIrreducible = true

theorem reduced_ofBody (b : Body α) : (ofBody b).Reduced := by
  refine ⟨canonical_form b, ?_⟩
  rw [residual_ofBody]
  cases b.expr with
  | none => exact List.forall_mem_nil _
  | some e => exact e.mem_residual_spec 1

end Split

end Reading

/-! ### The pieces of the expression -/

namespace Split

variable [Transcendental]

theorem pieces_residualTerm {t : Exact × Expr Exact} (scale : (t.1 == 0) = false)
    (h : t.2.isIrreducible = true) : (residualTerm t).pieces 1 = [.residual t.1 t.2] := by
  rw [residualTerm]
  split
  · rename_i one
    have one : t.1 = 1 := exact_beq_finite.1 one
    rw [one] at scale ⊢
    exact Expr.pieces_of_isIrreducible h scale
  · rw [Expr.pieces_const_mul]
    exact Expr.pieces_of_isIrreducible h scale

/-- One residual term or a sum of them, each is read as it was left. -/
theorem Reduced.pieces_residualExpr? {s : Split Exact} (h : s.Reduced) :
    (s.residualExpr?.map (Expr.pieces 1)).getD [] =
      s.residual.map fun t => .residual t.1 t.2 := by
  have each : (s.residual.map residualTerm).flatMap (Expr.pieces 1) =
      s.residual.map fun t => .residual t.1 t.2 := by
    rw [List.flatMap_map, List.map_eq_flatMap]
    exact List.flatMap_congr fun t ht =>
      pieces_residualTerm (h.residual t ht).1 (h.residual t ht).2
  rw [← each, residualExpr?]
  cases s.residual.map residualTerm with
  | nil => rfl
  | cons e rest =>
    cases rest with
    | nil => exact (List.flatMap_singleton _ _).symm
    | cons => exact Expr.pieces_sum _

theorem pieces_toExpr (s : Split Exact) : s.toExpr.pieces 1 =
    (s.form.toExpr s.constant).pieces 1 ++ (s.residualExpr?.map (Expr.pieces 1)).getD [] := by
  rw [toExpr]
  cases s.residualExpr? with
  | none => exact (List.append_nil _).symm
  | some e =>
    dsimp only
    rw [Expr.pieces_sum, List.flatMap_cons, List.flatMap_singleton]
    rfl

/-! ### Splitting again -/

/-- The form, the constant and the residual terms stand in the expression in this order. -/
theorem Reduced.ofExpr_toExpr {s : Split Exact} (h : s.Reduced) : ofExpr s.toExpr = s := by
  have pieces : s.toExpr.pieces 1 = s.form.terms.map (fun t => .term t.1 t.2) ++
      (s.form.writtenConstant s.constant).map .constant ++
        s.residual.map fun t => .residual t.1 t.2 := by
    rw [pieces_toExpr, LinearForm.pieces_toExpr h.form, h.pieces_residualExpr?]
  have sorted := ofPieces_in_order h.form (s.form.writtenConstant s.constant) s.residual
  rwa [← pieces, s.form.sum_writtenConstant] at sorted

/-- Splitting the expression that a split is put together to gives the same variables and
coefficients, the same constant and the same scaled residual terms, all in the same order. So
splitting and putting together again changes an expression at most once. -/
theorem ofExpr_toExpr_ofBody (b : Body Exact) :
    ofExpr (ofBody b).toExpr = ofBody b ∧
      (ofExpr (ofBody b).toExpr).toExpr = (ofBody b).toExpr := by
  have again : ofExpr (ofBody b).toExpr = ofBody b := (reduced_ofBody b).ofExpr_toExpr
  exact ⟨again, congrArg toExpr again⟩

end Split

end SolverBridge
