import SolverBridge.Proofs.Classification

/-! Squares spelled as products. Where a square of an expression is replaced by the product of the
expression with itself, nothing that reading looks at changes: no expression becomes a constant or
a variable, and none stops being one. So the same terms and the same constants are read, and the
residual terms differ at most in how squares are spelled in them. They are multiplied out alike.
What tells the two spellings apart is the list of known functions alone, which has the power of a
variable in it and no product. -/

namespace SolverBridge

variable {α : Type}

/-! ### One place -/

/-- An expression with one place left open, directly below its outermost operation. -/
inductive Frame (α : Type)
  | neg
  | sum (before after : List (Expr α))
  | mulLeft (rhs : Expr α)
  | mulRight (lhs : Expr α)
  | divLeft (rhs : Expr α)
  | divRight (lhs : Expr α)
  | base (exponent : Expr α)
  | exponent (base : Expr α)
  | unary (f : Unary)
  | logBase (base : α)
  | max (before after : List (Expr α))
  | min (before after : List (Expr α))
  | and (before after : List (Expr α))
  | or (before after : List (Expr α))
  | not
  | compareLeft (r : Relation) (rhs : Expr α)
  | compareRight (r : Relation) (lhs : Expr α)
  | condition (consequence : Expr α)
  | consequence (condition : Expr α)
  | call (function : String) (before after : List (Expr α))

def Frame.fill : Frame α → Expr α → Expr α
  | neg, e => .neg e
  | sum before after, e => .sum (before ++ e :: after)
  | mulLeft b, e => .mul e b
  | mulRight a, e => .mul a e
  | divLeft b, e => .div e b
  | divRight a, e => .div a e
  | base b, e => .pow e b
  | exponent a, e => .pow a e
  | unary f, e => .unary f e
  | logBase c, e => .logBase c e
  | max before after, e => .max (before ++ e :: after)
  | min before after, e => .min (before ++ e :: after)
  | and before after, e => .and (before ++ e :: after)
  | or before after, e => .or (before ++ e :: after)
  | not, e => .not e
  | compareLeft r b, e => .compare r e b
  | compareRight r a, e => .compare r a e
  | condition b, e => .implies e b
  | consequence a, e => .implies a e
  | call f before after, e => .call f (before ++ e :: after)

variable [Scalar α]

namespace Expr

/-- The exponent of a square. -/
def IsTwo (e : Expr α) : Prop := ∃ k, e.asConstant? = some k ∧ (k == Scalar.ofInt 2) = true

/-- In one place the first expression has the square of an expression that is no constant, and the
second has the product of that expression with itself. -/
inductive Unsquares : Expr α → Expr α → Prop
  | square {b e : Expr α} (two : e.IsTwo) (hb : b.asConstant? = none) :
      Unsquares (.pow b e) (.mul b b)
  | under (f : Frame α) {e e' : Expr α} (h : Unsquares e e') : Unsquares (f.fill e) (f.fill e')

variable {e e' : Expr α}

theorem Unsquares.asVar?_eq (h : e.Unsquares e') : e.asVar? = none ∧ e'.asVar? = none := by
  cases h with
  | square => exact ⟨rfl, rfl⟩
  | under f => cases f <;> exact ⟨rfl, rfl⟩

theorem Unsquares.asConstant?_eq (h : e.Unsquares e') : e.asConstant? = e'.asConstant? := by
  induction h with
  | square => rfl
  | under f h ih =>
    cases f with
    | neg => simp only [Frame.fill, asConstant?, ih]
    | _ => rfl

end Expr

/-! ### Reading -/

/-- The same pieces, but for a square in a residual term. -/
inductive Piece.Unsquares : Piece α → Piece α → Prop
  | same (q : Piece α) : Unsquares q q
  | residual (s : α) {e e' : Expr α} (h : e.Unsquares e') :
      Unsquares (.residual s e) (.residual s e')

theorem Piece.Unsquares.term?_eq {q q' : Piece α} (h : q.Unsquares q') : q.term? = q'.term? := by
  cases h <;> rfl

theorem Piece.Unsquares.constant?_eq {q q' : Piece α} (h : q.Unsquares q') :
    q.constant? = q'.constant? := by
  cases h <;> rfl

namespace Expr

theorem forall₂_same (ps : List (Piece α)) : List.Forall₂ Piece.Unsquares ps ps :=
  List.forall₂_same.2 fun q _ => .same q

theorem Unsquares.pieces {e e' : Expr α} (h : e.Unsquares e') (s : α) :
    List.Forall₂ Piece.Unsquares (e.pieces s) (e'.pieces s) := by
  -- the scale changes on the way down to the square
  induction h generalizing s with
  | @square b e two hb =>
    unfold Expr.pieces
    split
    · exact .nil
    · simp only [hb]
      exact .cons (.residual s (.square two hb)) .nil
  | @under f e e' h ih =>
    by_cases zero : (s == 0) = true
    · unfold Expr.pieces
      simp [zero]
    · have kept (s : α) : Piece.Unsquares (.residual s (f.fill e)) (.residual s (f.fill e')) :=
        .residual s (.under f h)
      cases f with
      | neg =>
        simp only [Frame.fill, Expr.pieces, if_neg zero]
        exact ih (-s)
      | sum before after =>
        simp only [Frame.fill, Expr.pieces, if_neg zero, piecesEach_eq_flatMap,
          List.flatMap_append, List.flatMap_cons]
        exact List.rel_append (forall₂_same _) (List.rel_append (ih s) (forall₂_same _))
      | mulLeft b =>
        simp only [Frame.fill, Expr.pieces, if_neg zero, h.asConstant?_eq]
        split
        · exact forall₂_same _
        · exact ih _
        · exact .cons (kept s) .nil
      | mulRight a =>
        simp only [Frame.fill, Expr.pieces, if_neg zero, h.asConstant?_eq]
        split
        · exact ih _
        · exact forall₂_same _
        · exact .cons (kept s) .nil
      | divLeft b =>
        simp only [Frame.fill, Expr.pieces, if_neg zero]
        split
        · split
          · exact ih _
          · exact .cons (kept s) .nil
        · exact .cons (kept s) .nil
      | divRight a =>
        simp only [Frame.fill, Expr.pieces, if_neg zero, h.asConstant?_eq]
        split
        · split
          · exact forall₂_same _
          · exact .cons (kept s) .nil
        · exact .cons (kept s) .nil
      | _ =>
        simp only [Frame.fill, Expr.pieces, if_neg zero]
        exact .cons (kept s) .nil

end Expr

/-- The same form and the same constant, and the same residual terms but for squares in them. -/
structure Split.Unsquares (s s' : Split α) : Prop where
  form : s.form = s'.form
  constant : s.constant = s'.constant
  residual : List.Forall₂ (fun t t' => t.1 = t'.1 ∧ (t.2 = t'.2 ∨ t.2.Unsquares t'.2))
    s.residual s'.residual

namespace Split

variable {s s' : Split α}

theorem filterMap_unsquared {β : Type} {f : Piece α → Option β}
    (hf : ∀ {q q' : Piece α}, q.Unsquares q' → f q = f q') {ps qs : List (Piece α)}
    (h : List.Forall₂ Piece.Unsquares ps qs) : ps.filterMap f = qs.filterMap f := by
  induction h with
  | nil => rfl
  | cons h _ ih => rw [List.filterMap_cons, List.filterMap_cons, hf h, ih]

theorem unsquares_ofPieces {ps qs : List (Piece α)} (h : List.Forall₂ Piece.Unsquares ps qs) :
    (ofPieces ps).Unsquares (ofPieces qs) := by
  have terms := filterMap_unsquared Piece.Unsquares.term?_eq h
  have constants := filterMap_unsquared Piece.Unsquares.constant?_eq h
  refine ⟨by rw [ofPieces, ofPieces, terms], by rw [ofPieces, ofPieces, constants], ?_⟩
  clear terms constants
  show List.Forall₂ _ (ps.filterMap Piece.residual?) (qs.filterMap Piece.residual?)
  induction h with
  | nil => exact .nil
  | @cons q q' ps qs h _ ih =>
    cases h with
    | same =>
      cases q with
      | residual s e => exact .cons ⟨rfl, .inl rfl⟩ ih
      | _ => exact ih
    | residual s h => exact .cons ⟨rfl, .inr h⟩ ih

theorem Unsquares.refl (s : Split α) : s.Unsquares s :=
  ⟨rfl, rfl, List.forall₂_same.2 fun _ _ => ⟨rfl, .inl rfl⟩⟩

theorem Unsquares.isLinear_eq (h : s.Unsquares s') : s.isLinear = s'.isLinear := by
  rw [isLinear, isLinear, Bool.eq_iff_iff, List.isEmpty_iff_length_eq_zero,
    List.isEmpty_iff_length_eq_zero, h.residual.length_eq]

/-- Without residual terms there is no difference. -/
theorem Unsquares.eq_of_isLinear (h : s.Unsquares s') (linear : s.isLinear = true) : s = s' := by
  obtain ⟨form, constant, residual⟩ := s
  obtain ⟨form', constant', residual'⟩ := s'
  obtain ⟨rfl, rfl, rest⟩ := h
  cases List.isEmpty_iff.1 linear
  cases rest
  rfl

end Split

/-- The expression of the second body has a product where that of the first has a square. -/
inductive Body.Unsquares : Body α → Body α → Prop
  | expr (a : Affine α) {e e' : Expr α} (h : e.Unsquares e') : Unsquares ⟨a, some e⟩ ⟨a, some e'⟩

theorem Body.Unsquares.split {b b' : Body α} (h : b.Unsquares b') :
    (Split.ofBody b).Unsquares (Split.ofBody b') := by
  cases h with
  | expr a h =>
    exact Split.unsquares_ofPieces (List.rel_append (Expr.forall₂_same _) (h.pieces 1))

theorem Expr.Unsquares.split {e e' : Expr α} (h : e.Unsquares e') :
    (Split.ofExpr e).Unsquares (Split.ofExpr e') := Body.Unsquares.split (.expr _ h)

/-! ### Products -/

namespace Polynomial

theorem linearFactor?_unsquared {e e' : Expr α} (h : e.Unsquares e') :
    linearFactor? e = linearFactor? e' := by
  rw [linearFactor?, linearFactor?, h.split.isLinear_eq]
  by_cases linear : (Split.ofExpr e).isLinear = true
  · rw [h.split.eq_of_isLinear linear]
  · rw [← h.split.isLinear_eq, if_neg linear, if_neg linear]

/-- A square and the product that it is are multiplied out to the same terms. -/
theorem ofTerm?_unsquared {e e' : Expr α} (h : e.Unsquares e') (s : α) :
    ofTerm? s e = ofTerm? s e' := by
  induction h generalizing s with
  | @square b e two hb =>
    obtain ⟨k, he, two⟩ := two
    rw [ofTerm?, ofTerm?, he, Option.map_some, Option.getD_some, if_pos two]
    cases linearFactor? b <;> rfl
  | @under f e e' h ih =>
    cases f with
    | neg => simp only [Frame.fill, ofTerm?, ih]
    | sum before after =>
      simp only [Frame.fill, ofTerm?]
      induction before with
      | nil => simp only [List.nil_append, ofTerms?, ih]
      | cons d before ih' => simp only [List.cons_append, ofTerms?, ih']
    | mulLeft b | mulRight b => simp only [Frame.fill, ofTerm?, linearFactor?_unsquared h]
    | base b => simp only [Frame.fill, ofTerm?, linearFactor?_unsquared h]
    | exponent b => simp only [Frame.fill, ofTerm?, h.asConstant?_eq]
    | _ => rfl

theorem ofResidual?_unsquared {ts ts' : List (α × Expr α)}
    (h : List.Forall₂ (fun t t' => t.1 = t'.1 ∧ (t.2 = t'.2 ∨ t.2.Unsquares t'.2)) ts ts') :
    ofResidual? ts = ofResidual? ts' := by
  induction h with
  | nil => rfl
  | @cons t t' ts ts' h _ ih =>
    obtain ⟨s, e⟩ := t
    obtain ⟨s', e'⟩ := t'
    obtain ⟨rfl, rfl | h⟩ := h
    · rw [ofResidual?, ofResidual?, ih]
    · rw [ofResidual?, ofResidual?, ofTerm?_unsquared h, ih]

end Polynomial

/-! ### Known functions -/

namespace Expr

variable {e e' : Expr α}

/-- The square of a variable, and the product of the variable with itself. -/
def UnsquaresVar (e e' : Expr α) : Prop :=
  ∃ v n, n.IsTwo ∧ e = .pow (.var v) n ∧ e' = .mul (.var v) (.var v)

/-- The list of an operation is neither empty nor made of variables only. -/
theorem Unsquares.variables?_eq (h : e.Unsquares e') (before after : List (Expr α)) :
    variables? (before ++ e :: after) = none ∧ variables? (before ++ e' :: after) = none := by
  have noVariables {d : Expr α} (hd : d.asVar? = none) :
      variables? (before ++ d :: after) = none := by
    rw [variables?, if_neg (by simp), List.mapM_append, List.mapM_cons, hd]
    cases before.mapM asVar? <;> rfl
  exact ⟨noVariables h.asVar?_eq.1, noVariables h.asVar?_eq.2⟩

/-- The same function is known, unless it is the square of a variable. -/
theorem Unsquares.func_eq (h : e.Unsquares e') :
    Func.ofExpr? e = Func.ofExpr? e' ∨ e.UnsquaresVar e' := by
  cases h with
  | @square b n two hb =>
    cases hv : b.asVar? with
    | some v =>
      rw [asVar?_eq_some hv]
      exact .inr ⟨v, n, two, rfl, rfl⟩
    | none => exact .inl (by simp [Func.ofExpr?, hv, hb])
  | @under f e e' h =>
    obtain ⟨noVar, noVar'⟩ := h.asVar?_eq
    left
    cases f with
    | max before after | min before after | and before after | or before after =>
      obtain ⟨items, items'⟩ := h.variables?_eq before after
      simp only [Frame.fill, Func.ofExpr?, items, items']
    | base n | exponent b =>
      simp only [Frame.fill, Func.ofExpr?, noVar, noVar', h.asConstant?_eq]
    | unary g | logBase c => simp only [Frame.fill, Func.ofExpr?, noVar, noVar']
    | _ => rfl

/-- The same variable is tested. -/
theorem Unsquares.trigger?_eq (h : e.Unsquares e') : trigger? e = trigger? e' := by
  cases h with
  | square => rfl
  | @under f e e' h =>
    obtain ⟨noVar, noVar'⟩ := h.asVar?_eq
    cases f with
    | not => simp only [Frame.fill, trigger?, noVar, noVar']
    | compareLeft r b | compareRight r b =>
      cases r <;> simp only [Frame.fill, trigger?, noVar, noVar', h.asConstant?_eq]
    | _ => rfl

theorem Unsquares.indicator_eq (h : e.Unsquares e') :
    Indicator.ofExpr? e = Indicator.ofExpr? e' := by
  have sides (r : Relation) {a a' b b' : Expr α} (ha : (Split.ofExpr a).Unsquares (Split.ofExpr a'))
      (hb : (Split.ofExpr b).Unsquares (Split.ofExpr b')) (condition : Expr α) :
      Indicator.ofExpr? (.implies condition (.compare r a b)) =
        Indicator.ofExpr? (.implies condition (.compare r a' b')) := by
    simp only [Indicator.ofExpr?, ha.isLinear_eq, hb.isLinear_eq]
    by_cases linear : ((Split.ofExpr a').isLinear && (Split.ofExpr b').isLinear) = true
    · rw [Bool.and_eq_true] at linear
      rw [ha.eq_of_isLinear (ha.isLinear_eq.trans linear.1),
        hb.eq_of_isLinear (hb.isLinear_eq.trans linear.2)]
    · simp only [if_neg linear]
  cases h with
  | square => rfl
  | @under f e e' h =>
    cases f with
    | condition b => cases b <;> simp only [Frame.fill, Indicator.ofExpr?, h.trigger?_eq]
    | consequence a =>
      cases h with
      | square => rfl
      | @under g e e' h =>
        cases g with
        | compareLeft r b => exact sides r h.split (.refl _) a
        | compareRight r b => exact sides r (.refl _) h.split a
        | _ => rfl
    | _ => rfl

end Expr

end SolverBridge
