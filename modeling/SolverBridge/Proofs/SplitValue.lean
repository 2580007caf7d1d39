import SolverBridge.Proofs.Defined
import SolverBridge.Split

/-! The value of a split. The pieces of an expression add up to its scaled value wherever that
is defined, and then every piece is. That is needed: a scale of zero hides what is below it, and
zero times an expression is zero only where the expression is rational. Values of residual
terms may be infinite, because the pieces are only added. The three parts of a split are
the pieces sorted, and sorting a sum changes nothing. -/

namespace SolverBridge

/-! ### Reading -/

namespace Expr

section Reading

variable {α : Type} [Scalar α]

/-- Nothing below the outermost operation is reached. -/
def isIrreducible : Expr α → Bool
  | .const _ | .var _ | .neg _ | .sum _ => false
  | .mul a b => a.asConstant?.isNone && b.asConstant?.isNone
  | .div _ b => b.asConstant?.all fun k => !(k != 0)
  | _ => true

/-- Induction over the reading of an expression, by what is seen through. -/
theorem pieces_induction {motive : α → Expr α → List (Piece α) → Prop}
    (zero : ∀ s e, (s == 0) = true → motive s e [])
    (const : ∀ s c, ¬(s == 0) = true → motive s (.const c) [.constant (s * c)])
    (var : ∀ s v, ¬(s == 0) = true → motive s (.var v) [.term s v])
    (neg : ∀ s a, ¬(s == 0) = true → motive (-s) a (pieces (-s) a) →
      motive s (.neg a) (pieces (-s) a))
    (sum : ∀ s es, ¬(s == 0) = true → (∀ e ∈ es, motive s e (pieces s e)) →
      motive s (.sum es) (es.flatMap (pieces s)))
    (mulLeft : ∀ s a b k, ¬(s == 0) = true → a.asConstant? = some k →
      motive (s * k) b (pieces (s * k) b) → motive s (.mul a b) (pieces (s * k) b))
    (mulRight : ∀ s a b k, ¬(s == 0) = true → b.asConstant? = some k →
      motive (s * k) a (pieces (s * k) a) → motive s (.mul a b) (pieces (s * k) a))
    (div : ∀ s a b k, ¬(s == 0) = true → b.asConstant? = some k → (k != 0) = true →
      motive (s / k) a (pieces (s / k) a) → motive s (.div a b) (pieces (s / k) a))
    (residual : ∀ s e, ¬(s == 0) = true → e.isIrreducible = true → motive s e [.residual s e])
    (s : α) (e : Expr α) : motive s e (pieces s e) := by
  induction e using Expr.induction generalizing s with
  | const c =>
    unfold pieces
    split
    · exact zero s _ ‹_›
    · exact const s c ‹_›
  | var v =>
    unfold pieces
    split
    · exact zero s _ ‹_›
    · exact var s v ‹_›
  | neg a ih =>
    unfold pieces
    split
    · exact zero s _ ‹_›
    · exact neg s a ‹_› (ih _)
  | sum es ih =>
    unfold pieces
    split
    · exact zero s _ ‹_›
    · dsimp only
      rw [piecesEach_eq_flatMap]
      exact sum s es ‹_› fun e he => ih e he s
  | mul a b iha ihb =>
    unfold pieces
    split
    · exact zero s _ ‹_›
    · dsimp only
      split
      · exact mulLeft s a b _ ‹_› ‹_› (ihb _)
      · exact mulRight s a b _ ‹_› ‹_› (iha _)
      · refine residual s _ ‹_› ?_
        simp [isIrreducible, *]
  | div a b iha ihb =>
    unfold pieces
    split
    · exact zero s _ ‹_›
    · dsimp only
      split
      · split
        · exact div s a b _ ‹_› ‹_› ‹_› (iha _)
        · refine residual s _ ‹_› ?_
          simp_all [isIrreducible]
      · refine residual s _ ‹_› ?_
        simp [isIrreducible, *]
  | _ =>
    unfold pieces
    split
    · exact zero s _ ‹_›
    · exact residual s _ ‹_› rfl

end Reading

end Expr

/-! ### Constants -/

variable [Transcendental] {p : Point Exact}

theorem Expr.asConstant?_spec {e : Expr Exact} {k : Exact} (hr : e.IsRational)
    (h : e.asConstant? = some k) : k.IsRational ∧ e.evaluate p = k := by
  induction e using Expr.induction generalizing k with
  | const c =>
    cases h
    exact ⟨hr.number rfl, rfl⟩
  | neg a ih =>
    obtain ⟨c, hc, rfl⟩ := Option.map_eq_some_iff.1 h
    obtain ⟨rational, value⟩ := ih (hr.child List.mem_cons_self) hc
    exact ⟨rational.neg, congrArg _ value⟩
  | _ => cases h

/-! ### Pieces -/

namespace Piece

/-- What a piece adds. -/
def value (p : Point Exact) : Piece Exact → Exact
  | .term c v => c * v.value p
  | .constant c => c
  | .residual s e => s * e.evaluate p

/-- The numbers of the piece are rational, and it has a value. -/
def Sound (p : Point Exact) : Piece Exact → Prop
  | .term c v => c.IsRational ∧ (v.value p).IsRational
  | .constant c => c.IsRational
  | .residual s e => s.IsRational ∧ e.IsRational ∧ (e.evaluate p).IsDefined

end Piece

/-- The sum of the values of pieces. -/
def piecesValue (p : Point Exact) (pieces : List (Piece Exact)) : Exact :=
  Scalar.sum (pieces.map (Piece.value p))

theorem piecesValue_cons (a : Piece Exact) (pieces : List (Piece Exact)) :
    piecesValue p (a :: pieces) = a.value p + piecesValue p pieces := exact_sum_cons _ _

theorem piecesValue_singleton (a : Piece Exact) : piecesValue p [a] = a.value p := by
  rw [piecesValue_cons]
  exact add_zero _

theorem piecesValue_append (pieces more : List (Piece Exact)) :
    piecesValue p (pieces ++ more) = piecesValue p pieces + piecesValue p more := by
  rw [piecesValue, List.map_append, exact_sum_append]
  rfl

theorem piecesValue_flatMap {β : Type} (xs : List β) (f : β → List (Piece Exact)) :
    piecesValue p (xs.flatMap f) = Scalar.sum (xs.map fun x => piecesValue p (f x)) := by
  induction xs with
  | nil => rfl
  | cons x xs ih =>
    rw [List.flatMap_cons, piecesValue_append, ih, List.map_cons, exact_sum_cons]

namespace Expr

/-- The pieces add up to the scaled value, as long as that is defined. -/
theorem pieces_spec (hp : p.IsRational) {s : Exact} {e : Expr Exact} (hs : s.IsRational)
    (hr : e.IsRational) (h : (s * e.evaluate p).IsDefined) :
    piecesValue p (e.pieces s) = s * e.evaluate p ∧ ∀ a ∈ e.pieces s, a.Sound p := by
  induction s, e using pieces_induction with
  | zero s e zero =>
    have : s = .finite 0 := exact_beq_finite.1 zero
    subst this
    exact ⟨(finite_zero_mul h).symm, fun _ hm => absurd hm List.not_mem_nil⟩
  | const s c hz =>
    rw [piecesValue_singleton, List.forall_mem_singleton]
    exact ⟨rfl, hs.mul (hr.number rfl)⟩
  | var s v hz =>
    rw [piecesValue_singleton, List.forall_mem_singleton]
    exact ⟨rfl, hs, hp.value_of_isDefined (isDefined_of_mul h)⟩
  | neg s a hz ih =>
    have value : -s * a.evaluate p = s * -a.evaluate p := by
      obtain ⟨q, rfl⟩ := hs
      rw [finite_neg, exact_neg_eq (a.evaluate p), finite_mul_assoc, mul_neg_one]
    obtain ⟨sum, sound⟩ := ih hs.neg (hr.child List.mem_cons_self) (value ▸ h)
    exact ⟨sum.trans value, sound⟩
  | sum s es hz ih =>
    obtain ⟨q, rfl⟩ := hs
    have value : .finite q * (sum es).evaluate p =
        Scalar.sum (es.map fun e => .finite q * e.evaluate p) := by
      rw [evaluate, evaluateEach_eq_map, finite_mul_sum, List.map_map]
      rfl
    rw [value] at h ⊢
    have each : ∀ e ∈ es, piecesValue p (e.pieces (.finite q)) = .finite q * e.evaluate p ∧
        ∀ a ∈ e.pieces (.finite q), a.Sound p := fun e he =>
      ih e he ⟨q, rfl⟩ (hr.child he) (isDefined_of_mem_sum h (List.mem_map_of_mem he))
    constructor
    · rw [piecesValue_flatMap, List.map_congr_left fun e he => (each e he).1]
    · intro a ha
      obtain ⟨e, he, hm⟩ := List.mem_flatMap.1 ha
      exact (each e he).2 a hm
  | mulLeft s a b k hz hk ih =>
    obtain ⟨rational, constant⟩ := asConstant?_spec (p := p) (hr.child (.head _)) hk
    have value : s * k * b.evaluate p = s * (a.mul b).evaluate p := by
      obtain ⟨q, rfl⟩ := hs
      obtain ⟨r, rfl⟩ := rational
      rw [evaluate, constant, finite_mul_assoc, finite_mul]
    obtain ⟨sum, sound⟩ := ih (hs.mul rational) (hr.child (.tail _ (.head _))) (value ▸ h)
    exact ⟨sum.trans value, sound⟩
  | mulRight s a b k hz hk ih =>
    obtain ⟨rational, constant⟩ := asConstant?_spec (p := p) (hr.child (.tail _ (.head _))) hk
    have value : s * k * a.evaluate p = s * (a.mul b).evaluate p := by
      obtain ⟨q, rfl⟩ := hs
      obtain ⟨r, rfl⟩ := rational
      rw [evaluate, constant, exact_mul_comm (a.evaluate p), finite_mul_assoc, finite_mul]
    obtain ⟨sum, sound⟩ := ih (hs.mul rational) (hr.child (.head _)) (value ▸ h)
    exact ⟨sum.trans value, sound⟩
  | div s a b k hz hk hk0 ih =>
    obtain ⟨rational, constant⟩ := asConstant?_spec (p := p) (hr.child (.tail _ (.head _))) hk
    obtain ⟨q, rfl⟩ := hs
    obtain ⟨r, rfl⟩ := rational
    have hr0 : r ≠ 0 := fun e => exact_bne_finite.1 hk0 (congrArg _ e)
    have value : Exact.finite q / .finite r * a.evaluate p = .finite q * (a.div b).evaluate p := by
      rw [evaluate, constant, exact_div_eq (a.evaluate p) hr0, finite_mul_assoc, finite_div q hr0,
        div_eq_mul_inv]
    obtain ⟨sum, sound⟩ := ih ⟨q / r, finite_div q hr0⟩ (hr.child (.head _)) (value ▸ h)
    exact ⟨sum.trans value, sound⟩
  | residual s e hz he =>
    rw [piecesValue_singleton, List.forall_mem_singleton]
    exact ⟨rfl, hs, hr, isDefined_of_mul h⟩

end Expr

/-! ### The parts of a split -/

/-- The sum of scaled expressions. -/
def residualValue (p : Point Exact) (residual : List (Exact × Expr Exact)) : Exact :=
  Scalar.sum (residual.map fun t => t.1 * t.2.evaluate p)

theorem residualValue_cons (t : Exact × Expr Exact) (residual : List (Exact × Expr Exact)) :
    residualValue p (t :: residual) = t.1 * t.2.evaluate p + residualValue p residual :=
  exact_sum_cons _ _

/-- Numbers are rational in a list of scaled expressions, and each has a value. -/
def ResidualSound (p : Point Exact) (residual : List (Exact × Expr Exact)) : Prop :=
  ∀ t ∈ residual, t.1.IsRational ∧ t.2.IsRational ∧ (t.2.evaluate p).IsDefined

/-- A sum of pieces may be taken sort by sort. -/
theorem piecesValue_sorted (pieces : List (Piece Exact)) :
    piecesValue p pieces = linearValue p (pieces.filterMap Piece.term?) +
      Scalar.sum (pieces.filterMap Piece.constant?) +
        residualValue p (pieces.filterMap Piece.residual?) := by
  induction pieces with
  | nil =>
    have : (0 : Exact) = 0 + 0 + 0 := by rw [add_zero, add_zero]
    exact this
  | cons a pieces ih =>
    rw [piecesValue_cons, ih]
    cases a <;> simp only [List.filterMap_cons, Piece.term?, Piece.constant?, Piece.residual?,
      Piece.value]
    · rw [linearValue_cons]
      ac_rfl
    · rw [exact_sum_cons]
      ac_rfl
    · rw [residualValue_cons]
      ac_rfl

namespace Split

/-- The value of the three parts together. -/
def value (p : Point Exact) (s : Split Exact) : Exact :=
  s.form.evaluate p + s.constant + residualValue p s.residual

/-- All numbers of the split are rational, and its variables and residual terms are defined. -/
structure Sound (p : Point Exact) (s : Split Exact) : Prop where
  rational : TermsRational s.form.terms
  defined : TermsDefined p s.form.terms
  constant : s.constant.IsRational
  residual : ResidualSound p s.residual

theorem Sound.form {s : Split Exact} (h : s.Sound p) : (s.form.evaluate p).IsRational :=
  LinearForm.isRational_evaluate h.rational h.defined

theorem sound_ofPieces {pieces : List (Piece Exact)} (h : ∀ a ∈ pieces, a.Sound p) :
    (ofPieces pieces).Sound p := by
  have terms : ∀ t ∈ pieces.filterMap Piece.term?, t.1.IsRational ∧ (t.2.value p).IsRational := by
    intro t ht
    obtain ⟨a, ha, e⟩ := List.mem_filterMap.1 ht
    cases a <;> cases e
    exact h _ ha
  constructor
  · exact LinearForm.termsRational_ofTerms fun t ht => (terms t ht).1
  · exact LinearForm.termsDefined_ofTerms fun t ht => (terms t ht).2
  · apply isRational_sum
    intro c hc
    obtain ⟨a, ha, e⟩ := List.mem_filterMap.1 hc
    cases a <;> cases e
    exact h _ ha
  · intro t ht
    obtain ⟨a, ha, e⟩ := List.mem_filterMap.1 ht
    cases a <;> cases e
    exact h _ ha

theorem value_ofPieces {pieces : List (Piece Exact)} (h : ∀ a ∈ pieces, a.Sound p) :
    (ofPieces pieces).value p = piecesValue p pieces := by
  have defined : TermsDefined p (pieces.filterMap Piece.term?) := by
    intro t ht
    obtain ⟨a, ha, e⟩ := List.mem_filterMap.1 ht
    cases a <;> cases e
    exact (h _ ha).2
  rw [value, ofPieces, LinearForm.evaluate_ofTerms defined, piecesValue_sorted]
  rfl

theorem affinePieces_spec {a : Affine Exact} (hr : TermsRational a.terms)
    (hd : TermsDefined p a.terms) (hc : a.constant.IsRational) :
    piecesValue p (affinePieces a) = a.evaluate p ∧ ∀ b ∈ affinePieces a, b.Sound p := by
  constructor
  · have terms (ts : List (Exact × Var)) :
        piecesValue p (ts.map fun t => .term t.1 t.2) = linearValue p ts := by
      rw [piecesValue, List.map_map]
      rfl
    rw [affinePieces, piecesValue_append, terms, linearValue_filter hd, piecesValue_singleton]
    rfl
  · intro b hb
    rw [affinePieces, List.mem_append, List.mem_singleton] at hb
    rcases hb with hb | rfl
    · obtain ⟨t, ht, rfl⟩ := List.mem_map.1 hb
      have := (List.mem_filter.1 ht).1
      exact ⟨hr t this, hd t this⟩
    · exact hc

/-- The pieces of the expression of a body. -/
theorem exprPieces_spec (hp : p.IsRational) {b : Body Exact} (hr : b.IsRational)
    (hd : ((b.expr.map (Expr.evaluate p)).getD 0).IsDefined) :
    piecesValue p ((b.expr.map (Expr.pieces 1)).getD []) = (b.expr.map (Expr.evaluate p)).getD 0 ∧
      ∀ a ∈ (b.expr.map (Expr.pieces 1)).getD [], a.Sound p := by
  cases e : b.expr with
  | none => exact ⟨rfl, fun _ h => absurd h List.not_mem_nil⟩
  | some e' =>
    rw [e] at hd
    have := Expr.pieces_spec hp .one (hr.expr e' e) (by rwa [exact_one_mul])
    rwa [exact_one_mul] at this

/-- A body that has a value splits into rational and defined parts that have its value. -/
theorem ofBody_spec (hp : p.IsRational) {b : Body Exact} (hr : b.IsRational)
    (hd : (b.evaluate p).IsDefined) : (ofBody b).Sound p ∧ (ofBody b).value p = b.evaluate p := by
  have affine : (linearValue p b.affine.terms).IsDefined := hd.of_add.1.of_add.1
  have terms : TermsDefined p b.affine.terms := fun t ht =>
    hp.value_of_isDefined (isDefined_of_mul (isDefined_of_mem_sum affine (List.mem_map_of_mem ht)))
  obtain ⟨affineValue, affineSound⟩ := affinePieces_spec hr.terms terms hr.constant
  obtain ⟨exprValue, exprSound⟩ := exprPieces_spec hp hr hd.of_add.2
  have sound : ∀ a ∈ affinePieces b.affine ++ (b.expr.map (Expr.pieces 1)).getD [],
      a.Sound p := fun a ha => (List.mem_append.1 ha).elim (affineSound a) (exprSound a)
  refine ⟨sound_ofPieces sound, ?_⟩
  rw [ofBody, value_ofPieces sound, piecesValue_append, affineValue, exprValue]
  rfl

theorem ofExpr_spec (hp : p.IsRational) {e : Expr Exact} (hr : e.IsRational)
    (hd : (e.evaluate p).IsDefined) : (ofExpr e).Sound p ∧ (ofExpr e).value p = e.evaluate p := by
  have rational : (Body.ofExpr e).IsRational :=
    ⟨fun _ h => absurd h List.not_mem_nil, .zero, fun _ h => by cases h; exact hr⟩
  have value : (Body.ofExpr e).evaluate p = e.evaluate p := by
    have : (0 : Exact) + 0 + e.evaluate p = e.evaluate p := by rw [add_zero, zero_add]
    exact this
  rw [← value] at hd ⊢
  exact ofBody_spec hp rational hd

/-- The constant moves into the bounds. -/
theorem within_value {s : Split Exact} (h : s.Sound p) (t : Rat) (l u : Exact) :
    Scalar.within (.finite t) (s.value p) l u =
      Scalar.within (.finite t) (s.form.evaluate p + residualValue p s.residual)
        (l - s.constant) (u - s.constant) := by
  obtain ⟨c, hc⟩ := h.constant
  rw [value, add_right_comm, hc, within_add_finite]

/-- Without residual terms only the form and the constant remain. -/
theorem value_of_isLinear {s : Split Exact} (h : s.isLinear = true) :
    s.value p = s.form.evaluate p + s.constant := by
  rw [value, List.isEmpty_iff.1 h]
  exact add_zero _

end Split

end SolverBridge
