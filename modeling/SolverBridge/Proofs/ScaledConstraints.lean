import SolverBridge.Proofs.Multiples
import SolverBridge.Proofs.Respelling

/-! Scaled constraints. A range may be multiplied by a rational number other than zero: the number
stands before or behind the body or its inverse below it, and a negative number exchanges the
bounds. The kind of the range stays, a function keeps its graph, and a row becomes its multiple,
term by term. Each test on the way asks for something that a factor cannot change: what is left
over, whether a number is zero, or the ratio of two numbers. -/

namespace SolverBridge

section Multiples

variable [Transcendental] {k : Rat}

/-! ### Bodies -/

/-- The expression times a number, spelled as a product or as a quotient. -/
inductive Expr.IsMultiple (k : Rat) (e : Expr Exact) : Expr Exact → Prop
  | left : IsMultiple k e (.mul (.const (.finite k)) e)
  | right : IsMultiple k e (.mul e (.const (.finite k)))
  | divisor : IsMultiple k e (.div e (.const (.finite (1 / k))))

/-- The list of terms times a number. -/
def Affine.times (a : Affine Exact) (k : Rat) : Affine Exact :=
  ⟨timesTerms k a.terms, .finite k * a.constant⟩

/-- The whole body as one sum. -/
def Body.toSum (b : Body Exact) : Expr Exact := b.affine.toSum (b.expr.getD (.sum []))

/-- The body times a number: the whole of it as one expression, or the list of terms and the
expression each. -/
inductive Body.IsMultiple (k : Rat) (b : Body Exact) : Body Exact → Prop
  | whole {e : Expr Exact} (h : b.toSum.IsMultiple k e) : IsMultiple k b (.ofExpr e)
  | listed (h : b.expr = none) : IsMultiple k b ⟨b.affine.times k, none⟩
  | both {e e' : Expr Exact} (he : b.expr = some e) (h : e.IsMultiple k e') :
      IsMultiple k b ⟨b.affine.times k, some e'⟩

/-- A body that is an expression alone is multiplied as the expression is. -/
theorem Expr.IsMultiple.body {e e' : Expr Exact} (h : e.IsMultiple k e') :
    (Body.ofExpr e).IsMultiple k (.ofExpr e') := by
  have empty : (Body.ofExpr e).affine.times k = .empty :=
    congrArg (Affine.mk []) (finite_mul_zero k)
  have both := Body.IsMultiple.both (k := k) (b := .ofExpr e) rfl h
  rw [empty] at both
  exact both

/-- However a multiple is spelled, each piece is multiplied. -/
theorem Expr.IsMultiple.sameParts (hk : k ≠ 0) {e e' : Expr Exact} (hr : e.IsRational)
    (h : e.IsMultiple k e') : SameParts (e'.pieces 1) ((e.pieces 1).map (Piece.times k)) := by
  have multiplied : e.pieces (.finite k) = (e.pieces 1).map (Piece.times k) := by
    rw [exact_one, ← pieces_times hk hr, mul_one]
  rw [← multiplied, exact_one]
  cases h with
  | left =>
    apply SameParts.of_eq
    rw [pieces_mul_left (k := k) rfl, one_mul]
  | right =>
    have moved := pieces_mul_right (b := .const (.finite k)) (k := k) hr rfl 1
    rwa [one_mul] at moved
  | divisor =>
    apply SameParts.of_eq
    rw [pieces_div (k := 1 / k) rfl (one_div_ne_zero hk), one_div_one_div]

theorem Split.affinePieces_times (hk : k ≠ 0) (a : Affine Exact) :
    affinePieces (a.times k) = (affinePieces a).map (Piece.times k) := by
  rw [affinePieces, Affine.times, filter_timesTerms hk]
  simp [affinePieces, timesTerms, Piece.times]

namespace Body

theorem pieces_toSum (b : Body Exact) :
    b.toSum.pieces 1 = Split.affinePieces b.affine ++ (b.expr.map (Expr.pieces 1)).getD [] := by
  rw [toSum, Split.pieces_toSum]
  cases b.expr with
  | none => rfl
  | some e => rfl

omit [Transcendental] in
theorem isRational_toSum {b : Body Exact} (hr : b.IsRational) : b.toSum.IsRational := by
  intro x hx
  rw [toSum, Affine.toSum, Expr.numbers_sum, List.mem_flatMap] at hx
  obtain ⟨e, he, hx⟩ := hx
  rcases List.mem_append.1 he with he | he
  · obtain ⟨t, ht, rfl⟩ := List.mem_map.1 he
    obtain rfl : x = t.1 := List.mem_singleton.1 hx
    exact hr.terms t ht
  rcases List.mem_cons.1 he with rfl | he
  · obtain rfl : x = b.affine.constant := List.mem_singleton.1 hx
    exact hr.constant
  · obtain rfl := List.mem_singleton.1 he
    cases expr : b.expr with
    | none =>
      rw [expr] at hx
      cases hx
    | some e =>
      rw [expr] at hx
      exact hr.expr e expr x hx

/-- Splitting a multiple multiplies the split. -/
theorem IsMultiple.split_eq (hk : k ≠ 0) {b b' : Body Exact} (hr : b.IsRational)
    (h : b.IsMultiple k b') : Split.ofBody b' = (Split.ofBody b).times k := by
  have split : Split.ofBody b = .ofPieces (b.toSum.pieces 1) := by
    rw [pieces_toSum]
    rfl
  cases h with
  | whole h =>
    rw [split, ← Split.ofPieces_times hk, ← (h.sameParts hk (isRational_toSum hr)).ofPieces_eq]
    exact Split.ofExpr_eq _
  | listed h =>
    rw [Split.ofBody, Split.ofBody, ← Split.ofPieces_times hk, h, Split.affinePieces_times hk,
      List.map_append]
    rfl
  | both he h =>
    have rational := hr.expr _ he
    rw [Split.ofBody, Split.ofBody, ← Split.ofPieces_times hk, he, Split.affinePieces_times hk,
      List.map_append]
    exact ((SameParts.refl _).append (h.sameParts hk rational)).ofPieces_eq

end Body

/-! ### Bounds -/

/-- Both bounds times a number; a negative number exchanges them. -/
def timesBounds (k : Rat) (l u : Exact) : Exact × Exact :=
  if 0 < k then (.finite k * l, .finite k * u) else (.finite k * u, .finite k * l)

theorem timesBounds_sub (k : Rat) (l u c : Exact) :
    timesBounds k (l - c) (u - c) =
      ((timesBounds k l u).1 - .finite k * c, (timesBounds k l u).2 - .finite k * c) := by
  unfold timesBounds
  split <;> simp only [finite_mul_sub]

/-- The row times a number. -/
def LinearRow.times (r : LinearRow Exact) (k : Rat) : LinearRow Exact where
  form := r.form.times k
  lower := (timesBounds k r.lower r.upper).1
  upper := (timesBounds k r.lower r.upper).2

/-! ### Classification -/

/-- The same kind; a row is multiplied and a graph stays. -/
inductive FlatConstraint.IsMultiple (k : Rat) : FlatConstraint Exact → FlatConstraint Exact → Prop
  | linear (r : LinearRow Exact) : IsMultiple k (.linear r) (.linear (r.times k))
  | quadratic (r : LinearRow Exact) (q : QuadForm Exact) :
      IsMultiple k (.quadratic r q) (.quadratic (r.times k) (q.times k))
  | function (f : Func) (g : FuncGraph Exact) : IsMultiple k (.function f g) (.function f g)
  | general (c d : Constraint Exact) : IsMultiple k (.general c) (.general d)

theorem FlatConstraint.IsMultiple.kind_eq {c d : FlatConstraint Exact} (h : c.IsMultiple k d) :
    c.kind = d.kind := by
  cases h <;> rfl

/-- A factor of both numbers does not change their ratio. -/
theorem ratio_times (hk : k ≠ 0) {s c : Exact} (hs : s.IsRational) (hc : c.IsRational) :
    -(.finite k * s) / (.finite k * c) = -s / c := by
  obtain ⟨s, rfl⟩ := hs
  obtain ⟨c, rfl⟩ := hc
  by_cases zero : c = 0
  · rw [zero, finite_mul, finite_mul, mul_zero]
    rfl
  · rw [finite_mul, finite_mul, finite_neg, finite_neg, finite_div _ (mul_ne_zero hk zero),
      finite_div _ zero, ← mul_neg, mul_div_mul_left _ _ hk]

theorem functionOfRange?_swap (s : Split Exact) (l u : Exact) :
    functionOfRange? s u l = functionOfRange? s l u := by
  rw [functionOfRange?, functionOfRange?, Bool.and_comm (u == 0)]

theorem functionOfRange?_times (hk : k ≠ 0) {s : Split Exact} (hr : s.IsRational) (l u : Exact) :
    functionOfRange? (s.times k) (.finite k * l) (.finite k * u) = functionOfRange? s l u := by
  obtain ⟨⟨terms⟩, constant, residual⟩ := s
  match terms, residual with
  | [(c, v)], [(scale, e)] =>
    have ratio := ratio_times hk (hr.residual _ List.mem_cons_self).1
      (hr.terms _ List.mem_cons_self)
    simp only [functionOfRange?, Split.times, LinearForm.times, timesTerms, List.map_cons,
      List.map_nil, finite_mul_beq_zero hk, ratio]
  | [], _ | _ :: _ :: _, _ | [_], [] | [_], _ :: _ :: _ => rfl

/-- A function is seen between the multiplied bounds as well. -/
theorem functionOfRange?_timesBounds (hk : k ≠ 0) {s : Split Exact} (hr : s.IsRational)
    (l u : Exact) :
    functionOfRange? (s.times k) (timesBounds k l u).1 (timesBounds k l u).2 =
      functionOfRange? s l u := by
  rw [timesBounds]
  split
  · exact functionOfRange?_times hk hr l u
  · rw [functionOfRange?_times hk hr, functionOfRange?_swap]

theorem isMultiple_function {c : FlatConstraint Exact} {r : Var} {e : Expr Exact}
    (h : functionOf? r e = some c) : c.IsMultiple k c := by
  obtain ⟨t, -, rfl⟩ := Option.map_eq_some_iff.1 h
  exact .function _ _

theorem isMultiple_functionOfRange {c : FlatConstraint Exact} {s : Split Exact} {l u : Exact}
    (h : functionOfRange? s l u = some c) : c.IsMultiple k c := by
  unfold functionOfRange? at h
  split at h
  · rw [Option.ite_none_right_eq_some] at h
    exact isMultiple_function h.2
  · cases h

theorem isMultiple_quadraticOrGeneral (hk : k ≠ 0) (c d : Constraint Exact) (f : LinearForm Exact)
    {residual : List (Exact × Expr Exact)}
    (hr : ∀ t ∈ residual, t.1.IsRational ∧ t.2.IsRational) (l u : Exact) :
    (quadraticOrGeneral c f residual l u).IsMultiple k
      (quadraticOrGeneral d (f.times k) (timesTerms k residual) (timesBounds k l u).1
        (timesBounds k l u).2) := by
  rw [quadraticOrGeneral, quadraticOrGeneral, Polynomial.ofResidual?_times k hr]
  cases Polynomial.ofResidual? residual with
  | none => exact .general c d
  | some p =>
    have row : LinearRow.mk ((f.times k).extended (p.times k).linear)
        ((timesBounds k l u).1 - (p.times k).offset) ((timesBounds k l u).2 - (p.times k).offset) =
          LinearRow.times ⟨f.extended p.linear, l - p.offset, u - p.offset⟩ k := by
      rw [LinearRow.times, timesBounds_sub, ← LinearForm.extended_times hk, p.offset_times]
      rfl
    dsimp only [Option.map_some]
    rw [row, Polynomial.quadForm_times hk, QuadForm.isEmpty_times]
    split
    · exact .linear _
    · exact .quadratic _ _

theorem isMultiple_classifyRange (hk : k ≠ 0) (c d : Constraint Exact) {s : Split Exact}
    (hr : s.IsRational) (l u : Exact) :
    (classifyRange c s l u).IsMultiple k
      (classifyRange d (s.times k) (timesBounds k l u).1 (timesBounds k l u).2) := by
  have linear : (s.times k).isLinear = s.isLinear := List.isEmpty_map
  rw [classifyRange, classifyRange, linear, functionOfRange?_timesBounds hk hr]
  split
  · exact .linear ⟨s.form, l, u⟩
  · cases h : functionOfRange? s l u with
    | some f => exact isMultiple_functionOfRange h
    | none => exact isMultiple_quadraticOrGeneral hk c d s.form hr.residual l u

/-- The multiple of a range by a number other than zero has the kind of the range. It says the same
function of the same variables, or it has the row and the products of the range, all multiplied
and each term in its place. -/
theorem classifyConstraint_multiple (hk : k ≠ 0) {b b' : Body Exact} (hr : b.IsRational)
    (h : b.IsMultiple k b') (l u : Exact) :
    (classifyConstraint (.range b l u)).kind =
        (classifyConstraint (.range b' (timesBounds k l u).1 (timesBounds k l u).2)).kind ∧
      (classifyConstraint (.range b l u)).IsMultiple k
        (classifyConstraint (.range b' (timesBounds k l u).1 (timesBounds k l u).2)) := by
  have multiple : (classifyConstraint (.range b l u)).IsMultiple k
      (classifyConstraint (.range b' (timesBounds k l u).1 (timesBounds k l u).2)) := by
    have bounds := timesBounds_sub k l u (Split.ofBody b).constant
    have classified := isMultiple_classifyRange hk (.range b l u)
      (.range b' (timesBounds k l u).1 (timesBounds k l u).2) (Split.isRational_ofBody hr)
      (l - (Split.ofBody b).constant) (u - (Split.ofBody b).constant)
    rw [bounds] at classified
    rw [classifyConstraint, classifyConstraint, h.split_eq hk hr]
    exact classified
  exact ⟨multiple.kind_eq, multiple⟩

end Multiples

open Exact.SquareOnly in
/-- A quadratic row with one bound: `x * y + 3 * x + 1 <= 4`, times minus two, becomes
`(x * y + 3 * x + 1) * -2 >= -8`. -/
theorem classifyConstraint_multiple_negative :
    let e : Expr Exact := .sum [.mul (.var ⟨0⟩) (.var ⟨1⟩),
      .mul (.const (.finite 3)) (.var ⟨0⟩), .const (.finite 1)]
    let e' : Expr Exact := .mul e (.const (.finite (-2)))
    (-2 : Rat) ≠ 0 ∧ (Body.ofExpr e).IsRational ∧ (Body.ofExpr e).IsMultiple (-2) (.ofExpr e') ∧
      (classifyConstraint (.range (.ofExpr e) .negInf (.finite 4))).kind = .quadratic ∧
      (classifyConstraint (.range (.ofExpr e') (.finite (-8)) .posInf)).kind = .quadratic ∧
      (classifyConstraint (.range (.ofExpr e) .negInf (.finite 4))).IsMultiple (-2)
        (classifyConstraint (.range (.ofExpr e') (.finite (-8)) .posInf)) := by
  intro e e'
  have nonzero : (-2 : Rat) ≠ 0 := by decide
  have rational : (Body.ofExpr e).IsRational :=
    ⟨List.forall_mem_nil _, .zero, fun _ h => by cases h; decide⟩
  have multiple : (Body.ofExpr e).IsMultiple (-2) (.ofExpr e') := Expr.IsMultiple.right.body
  have bounds : timesBounds (-2) .negInf (.finite 4) = (.finite (-8), .posInf) := by decide +kernel
  have classified := classifyConstraint_multiple nonzero rational multiple .negInf (.finite 4)
  rw [bounds] at classified
  have quadratic : (classifyConstraint (.range (.ofExpr e) .negInf (.finite 4))).kind =
      .quadratic := by decide +kernel
  exact ⟨nonzero, rational, multiple, quadratic, classified.1.symm.trans quadratic, classified.2⟩

end SolverBridge
