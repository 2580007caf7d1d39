import SolverBridge.Proofs.Classification

/-! Objectives. A classified objective has the sense of its source and its value wherever the
source is defined. How far it is classified can be told from its spelling: signs, sums and
constant factors are seen through, so that an expression that is put together from linear factors,
products of two of them and squares of one is multiplied out. What is multiplied out is quadratic
only when a product is left over after all terms with the same pair of variables are added up. -/

namespace SolverBridge

/-! ### Spelling -/

section Spelling

variable {α : Type} [Scalar α]

namespace Expr

/-- Put together from basic expressions with signs, sums, constant factors and constant
divisors. -/
inductive Combined (basic : Expr α → Prop) : Expr α → Prop
  | basic {e : Expr α} (he : basic e) : Combined basic e
  | neg {e : Expr α} (he : Combined basic e) : Combined basic (.neg e)
  | sum {es : List (Expr α)} (hes : ∀ e ∈ es, Combined basic e) : Combined basic (.sum es)
  | factorLeft {a b : Expr α} {k : α} (ha : a.asConstant? = some k) (hb : Combined basic b) :
      Combined basic (.mul a b)
  | factorRight {a b : Expr α} {k : α} (ha : Combined basic a) (hb : b.asConstant? = some k) :
      Combined basic (.mul a b)
  | divisor {a b : Expr α} {k : α} (ha : Combined basic a) (hb : b.asConstant? = some k)
      (nonzero : (k != 0) = true) : Combined basic (.div a b)

def IsAtom : Expr α → Prop
  | .const _ | .var _ => True
  | _ => False

/-- A linear form with a constant. -/
def IsAffine : Expr α → Prop := Combined IsAtom

/-- A product of two linear factors, or the square of one. -/
inductive IsProduct : Expr α → Prop
  | mul {a b : Expr α} (ha : a.IsAffine) (hb : b.IsAffine) : IsProduct (.mul a b)
  | square {a b : Expr α} {k : α} (ha : a.IsAffine) (hb : b.asConstant? = some k)
      (two : (k == Scalar.ofInt 2) = true) : IsProduct (.pow a b)

/-- Linear factors, their products and their squares, put together. -/
def IsQuadratic : Expr α → Prop := Combined fun e => e.IsAffine ∨ e.IsProduct

/-- The terms of a body that are left as they are when the expression is read. -/
def residual (s : α) (e : Expr α) : List (α × Expr α) := (e.pieces s).filterMap Piece.residual?

theorem residual_of_zero {s : α} {e : Expr α} (h : (s == 0) = true) : e.residual s = [] := by
  rw [residual]
  unfold pieces
  rw [if_pos h]
  rfl

/-- Under a scale of zero there is nothing to show. -/
theorem forall_mem_residual {P : α × Expr α → Prop} {s : α} {e : Expr α}
    (h : ¬(s == 0) = true → ∀ t ∈ e.residual s, P t) : ∀ t ∈ e.residual s, P t := by
  by_cases zero : (s == 0) = true
  · rw [residual_of_zero zero]
    exact List.forall_mem_nil _
  · exact h zero

/-- A constant is read to the end, signs and all. -/
theorem residual_of_asConstant? {e : Expr α} {k : α} (h : e.asConstant? = some k) (s : α) :
    e.residual s = [] := by
  refine List.eq_nil_iff_forall_not_mem.2 (forall_mem_residual fun zero => ?_)
  induction e using Expr.induction generalizing k s with
  | const c =>
    rw [residual, pieces, if_neg zero]
    exact List.forall_mem_nil _
  | neg a ih =>
    obtain ⟨c, hc, -⟩ := Option.map_eq_some_iff.1 h
    rw [residual, pieces, if_neg zero]
    exact forall_mem_residual (ih hc (-s))
  | _ => cases h

/-- What is put together leaves only terms that its basic expressions leave. -/
theorem Combined.mem_residual {basic : Expr α → Prop} {P : α × Expr α → Prop}
    (hbasic : ∀ e, basic e → ∀ s, ∀ t ∈ e.residual s, P t) {e : Expr α} (h : e.Combined basic)
    (s : α) : ∀ t ∈ e.residual s, P t := by
  induction h generalizing s with
  | basic he => exact hbasic _ he s
  | neg _ ih =>
    refine forall_mem_residual fun zero => ?_
    rw [residual, pieces, if_neg zero]
    exact ih (-s)
  | sum _ ih =>
    refine forall_mem_residual fun zero => ?_
    rw [residual, pieces, if_neg zero, piecesEach_eq_flatMap, List.filterMap_flatMap]
    intro t ht
    obtain ⟨e, he, ht⟩ := List.mem_flatMap.1 ht
    exact ih e he s t ht
  | @factorLeft _ _ k ha _ ih =>
    refine forall_mem_residual fun zero => ?_
    rw [residual, pieces, if_neg zero, ha]
    exact ih (s * k)
  | @factorRight a b k _ hb ih =>
    refine forall_mem_residual fun zero => ?_
    rw [residual, pieces, if_neg zero, hb]
    -- the left factor is tried first, and may be constant too
    cases a.asConstant? with
    | none => exact ih (s * k)
    | some k' =>
      have nothing := residual_of_asConstant? hb (s * k')
      rw [residual] at nothing
      dsimp only
      rw [nothing]
      exact List.forall_mem_nil _
  | @divisor _ _ k _ hb nonzero ih =>
    refine forall_mem_residual fun zero => ?_
    rw [residual, pieces, if_neg zero, hb]
    dsimp only
    rw [if_pos nonzero]
    exact ih (s / k)

theorem IsAffine.residual_eq_nil {e : Expr α} (h : e.IsAffine) (s : α) : e.residual s = [] := by
  refine List.eq_nil_iff_forall_not_mem.2 (Combined.mem_residual (fun e he s => ?_) h s)
  refine forall_mem_residual fun zero => ?_
  cases e with
  | const | var =>
    rw [residual, pieces, if_neg zero]
    exact List.forall_mem_nil _
  | _ => exact he.elim

end Expr

theorem Split.residual_ofBody (b : Body α) :
    (Split.ofBody b).residual = (b.expr.map (Expr.residual 1)).getD [] := by
  have affine : (affinePieces b.affine).filterMap Piece.residual? = [] := by
    rw [affinePieces, List.filterMap_append, List.filterMap_map]
    simp [Function.comp_def, Piece.residual?]
  rw [ofBody, ofPieces]
  dsimp only
  rw [List.filterMap_append, affine, List.nil_append]
  cases b.expr <;> rfl

namespace Polynomial

theorem linearFactor?_of_isAffine {e : Expr α} (h : e.IsAffine) :
    linearFactor? e = some (Split.ofExpr e) := by
  have linear : (Split.ofExpr e).isLinear = true := by
    rw [Split.isLinear, Split.ofExpr, Split.residual_ofBody]
    exact List.isEmpty_iff.2 (h.residual_eq_nil 1)
  rw [linearFactor?, if_pos linear]

theorem ofTerm?_isSome_of_isProduct {e : Expr α} (h : e.IsProduct) (s : α) :
    (ofTerm? s e).isSome = true := by
  cases h with
  | mul ha hb =>
    rw [ofTerm?, linearFactor?_of_isAffine ha, linearFactor?_of_isAffine hb]
    rfl
  | square ha hb two =>
    rw [ofTerm?, hb, Option.map_some, Option.getD_some, if_pos two, linearFactor?_of_isAffine ha]
    rfl

/-- A product is left as it is, unless a factor is constant. -/
theorem isProduct_of_mem_residual {e : Expr α} (h : e.IsProduct) (s : α) :
    ∀ t ∈ e.residual s, t.2.IsProduct := by
  refine Expr.forall_mem_residual fun zero => ?_
  cases h with
  | @mul a b ha hb =>
    rw [Expr.residual, Expr.pieces, if_neg zero]
    cases a.asConstant? with
    | some k =>
      have nothing := hb.residual_eq_nil (s * k)
      rw [Expr.residual] at nothing
      dsimp only
      rw [nothing]
      exact List.forall_mem_nil _
    | none =>
      cases b.asConstant? with
      | some k =>
        have nothing := ha.residual_eq_nil (s * k)
        rw [Expr.residual] at nothing
        dsimp only
        rw [nothing]
        exact List.forall_mem_nil _
      | none => exact List.forall_mem_singleton.2 (.mul ha hb)
  | square ha hb two =>
    unfold Expr.residual Expr.pieces
    rw [if_neg zero]
    exact List.forall_mem_singleton.2 (.square ha hb two)

/-- A residual is multiplied out when each of its terms is. -/
theorem ofResidual?_isSome {terms : List (α × Expr α)}
    (h : ∀ t ∈ terms, (ofTerm? t.1 t.2).isSome = true) : (ofResidual? terms).isSome = true := by
  induction terms with
  | nil => rfl
  | cons t rest ih =>
    rw [List.forall_mem_cons] at h
    obtain ⟨q, hq⟩ := Option.isSome_iff_exists.1 h.1
    obtain ⟨r, hr⟩ := Option.isSome_iff_exists.1 (ih h.2)
    rw [ofResidual?, hq, hr]
    rfl

/-- What is put together from linear factors, products and squares is multiplied out. -/
theorem ofResidual?_ofBody_isSome {b : Body α} (h : ∀ e, b.expr = some e → e.IsQuadratic) :
    (ofResidual? (Split.ofBody b).residual).isSome = true := by
  rw [Split.residual_ofBody]
  cases hb : b.expr with
  | none => rfl
  | some e =>
    refine ofResidual?_isSome (Expr.Combined.mem_residual ?_ (h e hb) 1)
    rintro e (affine | product) s
    · rw [affine.residual_eq_nil s]
      exact List.forall_mem_nil _
    · exact fun t ht => ofTerm?_isSome_of_isProduct (isProduct_of_mem_residual product s t ht) t.1

end Polynomial

/-! ### What is left over -/

namespace QuadForm

theorem mem_pairs_mergeTerm {terms : List (QuadTerm α)} {t : QuadTerm α} {x : Var × Var} :
    x ∈ (mergeTerm terms t).map (fun t => (t.first, t.second)) ↔
      x ∈ terms.map (fun t => (t.first, t.second)) ∨ x = (t.first, t.second) := by
  induction terms with
  | nil => simp [mergeTerm]
  | cons s rest ih =>
    rw [mergeTerm]
    split <;> grind

theorem Merged.addTerm {q : QuadForm α} (h : q.Merged) (c : α) (v w : Var) :
    (q.addTerm c v w).Merged := by
  obtain ⟨terms⟩ := q
  have ordered := orderedTerm_le c v w
  rw [QuadForm.addTerm]
  generalize orderedTerm c v w = t at ordered
  obtain ⟨le, nodup⟩ := h
  induction terms with
  | nil => exact ⟨List.forall_mem_singleton.2 ordered, List.pairwise_singleton _ _⟩
  | cons s rest ih =>
    rw [List.forall_mem_cons] at le
    rw [List.map_cons, List.nodup_cons] at nodup
    rw [mergeTerm]
    split
    · exact ⟨List.forall_mem_cons.2 le, List.nodup_cons.2 nodup⟩
    · rename_i other
      obtain ⟨le', nodup'⟩ := ih le.2 nodup.2
      refine ⟨List.forall_mem_cons.2 ⟨le.1, le'⟩, List.nodup_cons.2 ⟨fun h => ?_, nodup'⟩⟩
      rcases mem_pairs_mergeTerm.1 h with h | h
      · exact nodup.1 h
      · exact other (Prod.mk.inj h)

theorem Merged.addTerms {q : QuadForm α} (h : q.Merged) (terms : List (α × Var × Var)) :
    (q.addTerms terms).Merged := by
  induction terms generalizing q with
  | nil => exact h
  | cons t rest ih => exact ih (h.addTerm t.1 t.2.1 t.2.2)

theorem canonical_ofTerms (terms : List (α × Var × Var)) : (ofTerms terms).Canonical := by
  have merged : (empty.addTerms terms).Merged :=
    Merged.addTerms ⟨List.forall_mem_nil _, List.nodup_nil⟩ terms
  refine ⟨⟨fun t ht => merged.1 t (List.mem_filter.1 ht).1, ?_⟩,
    fun t ht => (List.mem_filter.1 ht).2⟩
  exact (List.filter_sublist.map _).nodup merged.2

end QuadForm

/-- An objective that is put together from linear factors, products and squares does not stay
as it is. -/
theorem kind_classifyObjective_of_isQuadratic {o : Objective α}
    (h : ∀ e, o.body.expr = some e → e.IsQuadratic) : (classifyObjective o).kind ≠ .general := by
  obtain ⟨q, hq⟩ := Option.isSome_iff_exists.1 (Polynomial.ofResidual?_ofBody_isSome h)
  rw [classifyObjective, hq]
  dsimp only
  split
  · intro general
    cases general
  · split <;> intro general <;> cases general

/-- A quadratic objective has a product left over: each pair of variables is there once, and its
coefficient is not zero. -/
theorem quadForm_classifyObjective {o : Objective α} {l : LinearObjective α} {q : QuadForm α}
    (h : classifyObjective o = .quadratic l q) : q.Canonical ∧ q.terms ≠ [] := by
  rw [classifyObjective] at h
  dsimp only at h
  split at h
  · cases h
  · split at h
    · cases h
    · split at h
      · cases h
      · rename_i r _ left
        cases h
        exact ⟨QuadForm.canonical_ofTerms r.quad, fun nothing => left (List.isEmpty_iff.2 nothing)⟩

end Spelling

/-- Classification keeps an objective's sense and its value at every point where the objective is
defined. An objective that is put together from linear factors, products and squares is linear or
quadratic afterwards, and it is quadratic only if the products do not cancel. -/
theorem classifyObjective_exact [Exact.SquareLaw] (o : Objective Exact) :
    (classifyObjective o).sense = o.sense ∧
    (∀ p : Point Exact, p.IsRational → o.body.IsRational → o.body.DefinedAt p →
      (classifyObjective o).evaluate p = o.evaluate p) ∧
    ((∀ e, o.body.expr = some e → e.IsQuadratic) → (classifyObjective o).kind ≠ .general) ∧
    ∀ l q, classifyObjective o = .quadratic l q → q.Canonical ∧ q.terms ≠ [] :=
  ⟨sense_classifyObjective o, fun _ hp hr hd => evaluate_classifyObjective_eq hp hr hd,
    kind_classifyObjective_of_isQuadratic, fun _ _ => quadForm_classifyObjective⟩

open Exact.SquareOnly in
/-- Twice the product of a sum and a difference less a square that cancels it: what is left of
`3 * x + 2 * (x + 1) * (x - 1) - x ^ 2 / (1 / 2)` is linear. -/
theorem classifyObjective_exact_cancelling :
    let p : Point Exact := [.finite 5]
    let product : Expr Exact := .mul (.const (.finite 2))
      (.mul (.sum [.var ⟨0⟩, .const (.finite 1)]) (.sum [.var ⟨0⟩, .neg (.const (.finite 1))]))
    let square : Expr Exact :=
      .neg (.div (.pow (.var ⟨0⟩) (.const (.finite 2))) (.const (.finite (1 / 2))))
    let o : Objective Exact :=
      ⟨.maximize, ⟨⟨[(.finite 3, ⟨0⟩)], .finite 0⟩, some (.sum [product, square])⟩⟩
    (classifyObjective o).evaluate p = o.evaluate p ∧ (classifyObjective o).kind ≠ .general ∧
      (classifyObjective o).kind = .linear := by
  intro p product square o
  have rational : p.IsRational := List.forall_mem_singleton.2 ⟨5, rfl⟩
  have numbers : o.body.IsRational := by
    refine ⟨List.forall_mem_singleton.2 ⟨3, rfl⟩, ⟨0, rfl⟩, fun e h => ?_⟩
    cases h
    intro x hx
    have listed : x ∈ [Exact.finite 2, .finite 1, .finite 1, .finite 2, .finite (1 / 2)] := hx
    simp only [List.mem_cons, List.not_mem_nil, or_false] at listed
    rcases listed with rfl | rfl | rfl | rfl | rfl <;> exact Exact.isRational_finite _
  have defined : o.body.DefinedAt p := by
    refine ⟨List.forall_mem_singleton.2 (by unfold Exact.IsDefined; decide +kernel),
      fun e h => ?_⟩
    cases h
    unfold Expr.DefinedAt Exact.IsDefined
    decide +kernel
  have affine : (Expr.var ⟨0⟩ : Expr Exact).IsAffine := .basic trivial
  have one : (Expr.const (.finite 1) : Expr Exact).IsAffine := .basic trivial
  have factor (e : Expr Exact) (he : e.IsAffine) : (Expr.sum [.var ⟨0⟩, e]).IsAffine :=
    .sum (List.forall_mem_cons.2 ⟨affine, List.forall_mem_singleton.2 he⟩)
  have shape : ∀ e, o.body.expr = some e → e.IsQuadratic := by
    intro e h
    cases h
    refine .sum (List.forall_mem_cons.2 ⟨?_, List.forall_mem_singleton.2 ?_⟩)
    · exact .factorLeft rfl (.basic (.inr (.mul (factor _ one) (factor _ (.neg one)))))
    · exact .neg (.divisor (.basic (.inr (.square affine rfl (by decide +kernel)))) rfl
        (by decide +kernel))
  obtain ⟨-, value, kind, -⟩ := classifyObjective_exact o
  exact ⟨value p rational numbers defined, kind shape, by decide +kernel⟩

end SolverBridge
