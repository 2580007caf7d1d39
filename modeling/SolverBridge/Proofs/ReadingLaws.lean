import SolverBridge.Proofs.SplitValue

/-! Laws of reading. Under a rational scale an expression is read as its operation says: a sign and
a constant factor or divisor go into the scale, and a sum is read item by item. A scale of zero
makes no exception, since nothing is read on either side. A constant factor on the right is the
one place where this holds only up to the constants: when the left factor is constant as well, it
is the one that goes into the scale. So two readings are compared by their parts, which are
the terms, the residual terms and the sum of the constants. -/

namespace SolverBridge

/-! ### The parts of a reading -/

/-- The same terms and the same residual terms in the same order, and constants with the same
sum. -/
structure SameParts (ps qs : List (Piece Exact)) : Prop where
  terms : ps.filterMap Piece.term? = qs.filterMap Piece.term?
  constants : (ps.filterMap Piece.constant?).sum = (qs.filterMap Piece.constant?).sum
  residual : ps.filterMap Piece.residual? = qs.filterMap Piece.residual?

namespace SameParts

variable {ps qs rs ps' qs' : List (Piece Exact)}

theorem refl (ps : List (Piece Exact)) : SameParts ps ps := ⟨rfl, rfl, rfl⟩

theorem of_eq (h : ps = qs) : SameParts ps qs := h ▸ refl ps

theorem symm (h : SameParts ps qs) : SameParts qs ps :=
  ⟨h.terms.symm, h.constants.symm, h.residual.symm⟩

theorem trans (h : SameParts ps qs) (h' : SameParts qs rs) : SameParts ps rs :=
  ⟨h.terms.trans h'.terms, h.constants.trans h'.constants, h.residual.trans h'.residual⟩

theorem append (h : SameParts ps qs) (h' : SameParts ps' qs') :
    SameParts (ps ++ ps') (qs ++ qs') where
  terms := by rw [List.filterMap_append, List.filterMap_append, h.terms, h'.terms]
  constants := by
    rw [List.filterMap_append, List.filterMap_append, List.sum_append, List.sum_append,
      h.constants, h'.constants]
  residual := by rw [List.filterMap_append, List.filterMap_append, h.residual, h'.residual]

theorem flatMap {β : Type} {xs : List β} {f g : β → List (Piece Exact)}
    (h : ∀ x ∈ xs, SameParts (f x) (g x)) : SameParts (xs.flatMap f) (xs.flatMap g) := by
  induction xs with
  | nil => exact refl []
  | cons x xs ih =>
    rw [List.forall_mem_cons] at h
    exact h.1.append (ih h.2)

/-- A constant of zero does not count. -/
theorem zero_cons (ps : List (Piece Exact)) : SameParts (.constant 0 :: ps) ps :=
  ⟨rfl, zero_add _, rfl⟩

variable [Transcendental]

theorem ofPieces_eq (h : SameParts ps qs) : Split.ofPieces ps = Split.ofPieces qs := by
  have constant (ps : List (Piece Exact)) : (Split.ofPieces ps).constant =
      (ps.filterMap Piece.constant?).sum := exact_sum_eq _
  have parts (s : Split Exact) : s = ⟨s.form, s.constant, s.residual⟩ := rfl
  rw [parts (.ofPieces ps), parts (.ofPieces qs), constant, constant, h.constants, Split.ofPieces,
    h.terms, h.residual]
  rfl

end SameParts

/-! ### Scales -/

theorem one_beq_zero [Transcendental] : ¬((1 : Exact) == 0) = true := nofun

theorem finite_beq_zero [Transcendental] {q : Rat} : (Exact.finite q == 0) = true ↔ q = 0 :=
  exact_beq_finite.trans (Exact.finite.injEq q 0).to_iff

theorem finite_bne_zero [Transcendental] {q : Rat} : (Exact.finite q != 0) = true ↔ q ≠ 0 :=
  exact_bne_finite.trans (not_congr (Exact.finite.injEq q 0).to_iff)

namespace Expr

section Items

variable {α : Type} [Scalar α] {s : α}

theorem pieces_of_zero (h : (s == 0) = true) (e : Expr α) : e.pieces s = [] := by
  unfold pieces
  rw [if_pos h]

/-- A sum is read item by item, under every scale. -/
theorem pieces_sum (es : List (Expr α)) : (Expr.sum es).pieces s = es.flatMap (pieces s) := by
  by_cases zero : (s == 0) = true
  · rw [pieces_of_zero zero]
    exact (List.flatMap_eq_nil_iff.2 fun e _ => pieces_of_zero zero e).symm
  · rw [pieces, if_neg zero, piecesEach_eq_flatMap]

/-- Reading stops at the expression, whatever the scale. -/
theorem pieces_of_isIrreducible {e : Expr α} (h : e.isIrreducible = true)
    (scale : (s == 0) = false) : e.pieces s = [.residual s e] := by
  have other : ¬(s == 0) = true := Bool.eq_false_iff.1 scale
  cases e with
  | const | var | neg | sum => cases h
  | mul a b =>
    rw [isIrreducible, Bool.and_eq_true, Option.isNone_iff_eq_none, Option.isNone_iff_eq_none] at h
    rw [pieces, if_neg other, h.1, h.2]
  | div a b =>
    rw [isIrreducible] at h
    rw [pieces, if_neg other]
    cases hb : b.asConstant? with
    | none => rfl
    | some k =>
      rw [hb, Option.all_some, Bool.not_eq_true'] at h
      dsimp only
      rw [if_neg (Bool.eq_false_iff.1 h)]
  | _ =>
    unfold pieces
    rw [if_neg other]

end Items

variable [Transcendental] {a b e : Expr Exact} {k : Rat}

theorem pieces_const (c : Exact) : (Expr.const c).pieces 1 = [.constant c] := by
  rw [pieces, if_neg one_beq_zero, exact_one_mul]

theorem pieces_const_mul (c : Exact) (e : Expr Exact) :
    (Expr.mul (.const c) e).pieces 1 = e.pieces c := by
  rw [pieces, if_neg one_beq_zero]
  exact congrArg (e.pieces ·) (exact_one_mul c)

theorem pieces_var {c : Exact} (h : (c != 0) = true) (v : Var) :
    (Expr.var v).pieces c = [.term c v] := by
  rw [pieces, if_neg (by simpa [bne] using h)]

theorem pieces_zero (e : Expr Exact) : e.pieces (.finite 0) = [] :=
  e.pieces_of_zero (finite_beq_zero.2 rfl)

theorem pieces_neg (s : Rat) (a : Expr Exact) :
    (Expr.neg a).pieces (.finite s) = a.pieces (.finite (-s)) := by
  by_cases zero : s = 0
  · rw [zero, neg_zero, pieces_zero, pieces_zero]
  · rw [pieces, if_neg (zero ∘ finite_beq_zero.1)]
    rfl

/-- A constant on the left goes into the scale. -/
theorem pieces_mul_left (ha : a.asConstant? = some (.finite k)) (s : Rat) :
    (Expr.mul a b).pieces (.finite s) = b.pieces (.finite (s * k)) := by
  by_cases zero : s = 0
  · rw [zero, zero_mul, pieces_zero, pieces_zero]
  · rw [pieces, if_neg (zero ∘ finite_beq_zero.1), ha]
    rfl

theorem pieces_div (hb : b.asConstant? = some (.finite k)) (hk : k ≠ 0) (s : Rat) :
    (Expr.div a b).pieces (.finite s) = a.pieces (.finite (s / k)) := by
  by_cases zero : s = 0
  · rw [zero, zero_div, pieces_zero, pieces_zero]
  · rw [pieces, if_neg (zero ∘ finite_beq_zero.1), hb]
    dsimp only
    rw [if_pos (finite_bne_zero.2 hk), finite_div s hk]

theorem IsRational.constant {c : Exact} (h : e.IsRational) (hc : e.asConstant? = some c) :
    c.IsRational := (asConstant?_spec (p := []) h hc).1

/-- A constant is read as one number, signs and all. -/
theorem pieces_constant (h : e.asConstant? = some (.finite k)) (s : Rat) :
    SameParts (e.pieces (.finite s)) [.constant (.finite (s * k))] := by
  induction e using Expr.induction generalizing k s with
  | const c =>
    cases h
    by_cases zero : s = 0
    · rw [zero, zero_mul, pieces_zero]
      exact (SameParts.zero_cons []).symm
    · rw [pieces, if_neg (zero ∘ finite_beq_zero.1)]
      exact .refl _
  | neg a ih =>
    obtain ⟨c, hc, e⟩ := Option.map_eq_some_iff.1 h
    obtain ⟨c, rfl⟩ : c.IsRational := by
      rw [← Exact.neg_neg c]
      exact Exact.IsRational.neg ⟨k, e⟩
    rw [finite_neg, Exact.finite.injEq] at e
    rw [pieces_neg, ← e, mul_neg, ← neg_mul]
    exact ih hc (-s)
  | _ => cases h

theorem pieces_factor (ha : a.asConstant? = none) (hb : b.asConstant? = some (.finite k))
    (s : Rat) : (Expr.mul a b).pieces (.finite s) = a.pieces (.finite (s * k)) := by
  by_cases zero : s = 0
  · rw [zero, zero_mul, pieces_zero, pieces_zero]
  · rw [pieces, if_neg (zero ∘ finite_beq_zero.1), ha, hb]
    rfl

/-- A constant on the right goes into the scale, up to what is then read of a constant on the
left. -/
theorem pieces_mul_right (ha : a.IsRational) (hb : b.asConstant? = some (.finite k)) (s : Rat) :
    SameParts ((Expr.mul a b).pieces (.finite s)) (a.pieces (.finite (s * k))) := by
  cases hc : a.asConstant? with
  | some c =>
    obtain ⟨c, rfl⟩ := ha.constant hc
    rw [pieces_mul_left hc]
    have left := pieces_constant hc (s * k)
    have right := pieces_constant hb (s * c)
    rw [mul_right_comm] at left
    exact right.trans left.symm
  | none => exact .of_eq (pieces_factor hc hb s)

end Expr

end SolverBridge
