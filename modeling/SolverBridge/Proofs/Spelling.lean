import SolverBridge.Proofs.Columns
import SolverBridge.Proofs.ReadingLaws
import SolverBridge.Classify

/-! Spelling a classified constraint. Each kind but the general one has a spelling in the language
of problems: a row bounds the expression of its form and its products, a definition or a function
is the graph of an expression, an indicator is an implication. Classification undoes the spelling
and returns the very constraint, terms in their order: a canonical form is not changed by merging
its terms, terms of coefficient zero leave no trace, and no pattern takes what is meant for
another. -/

namespace SolverBridge

/-! ### Spellings -/

section Spelling

variable {α : Type} [Scalar α]

/-- The function of variables as an expression. A function of one argument reads the first. -/
def Func.toExpr (f : Func) (args : List Var) (param : α) : Expr α :=
  let items := args.map Expr.var
  let first := items.head?.getD (.const Scalar.nan)
  match f with
  | .max => .max items
  | .min => .min items
  | .abs => .unary .abs first
  | .conjunction => .and items
  | .disjunction => .or items
  | .exp => .unary .exp first
  | .expBase => .pow (.const param) first
  | .log => .unary .log first
  | .logBase => .logBase param first
  | .pow => .pow first (.const param)
  | .sin => .unary .sin first
  | .cos => .unary .cos first
  | .tan => .unary .tan first

/-- The arguments and constants that go with the function: some variables, or one, or one and a
constant. -/
def Func.Takes (f : Func) (args : List Var) (params : List α) : Prop :=
  match f with
  | .max | .min | .conjunction | .disjunction => args ≠ [] ∧ params = []
  | .abs | .exp | .log | .sin | .cos | .tan => ∃ v, args = [v] ∧ params = []
  | .expBase | .logBase | .pow => ∃ v k, args = [v] ∧ params = [k]

/-- The product of a coefficient and two variables as an expression. -/
def QuadTerm.toExpr (t : QuadTerm α) : Expr α :=
  .mul (.const t.coefficient) (.mul (.var t.first) (.var t.second))

/-- If the variable equals the value, then the form is at most the bound. -/
def Indicator.toExpr (i : Indicator α) : Expr α :=
  .implies (.compare .eq (.var i.trigger) (.const (Scalar.ofInt i.value)))
    (.compare .le (i.form.toExpr 0) (.const i.rhs))

namespace FlatConstraint

/-- The constraint in the language of problems. -/
def spelling : FlatConstraint α → Constraint α
  | .linear r => .range (.ofExpr (r.form.toExpr 0)) r.lower r.upper
  | .quadratic r q =>
    .range (.ofExpr (.sum (r.form.toExpr 0 :: q.terms.map QuadTerm.toExpr))) r.lower r.upper
  | .linearDefining r f c => .defining r (.ofExpr (f.toExpr c))
  | .function f g => .defining g.result (.ofExpr (f.toExpr g.args g.param))
  | .indicator i => .logical i.toExpr
  | .general c => c

end FlatConstraint

end Spelling

section Recovery

variable [Transcendental]

/-- Forms are canonical, a quadratic form is not empty and has rational coefficients, a function
has the arguments that it takes, and a trigger is compared with zero or one. -/
def FlatConstraint.Spellable : FlatConstraint Exact → Prop
  | .linear r => r.form.Canonical
  | .quadratic r q => r.form.Canonical ∧ q.Canonical ∧ q.terms ≠ [] ∧
    ∀ t ∈ q.terms, t.coefficient.IsRational
  | .linearDefining _ f _ => f.Canonical
  | .function f g => f.Takes g.args g.params
  | .indicator i => i.form.Canonical ∧ (i.value = 0 ∨ i.value = 1)
  | .general _ => False

/-! ### Canonical forms -/

omit [Transcendental] in
/-- Without a variable that occurs twice there is nothing to merge. -/
theorem mergedInto_of_nodup {acc terms : List (Exact × Var)}
    (h : ((acc ++ terms).map (·.2)).Nodup) : mergedInto acc terms = acc ++ terms := by
  induction terms generalizing acc with
  | nil => exact (List.append_nil acc).symm
  | cons t rest ih =>
    have absent : t.2 ∉ acc.map (·.2) := by
      rw [List.map_append, List.map_cons, List.nodup_append] at h
      exact fun ht => h.2.2 _ ht _ List.mem_cons_self rfl
    have first : mergedInto acc (t :: rest) = mergedInto (acc ++ [t]) rest :=
      congrArg (mergedInto · rest) (mergeTerm_of_notMem absent _)
    rw [List.append_cons] at h
    rw [first, ih h, ← List.append_cons]

theorem filter_mergeTerm_zero (terms : List (Exact × Var)) (v : Var) :
    (mergeTerm terms 0 v).filter (·.1 != 0) = terms.filter (·.1 != 0) := by
  induction terms with
  | nil =>
    have zero : ((0 : Exact) != 0) = false := rfl
    simp [mergeTerm, zero]
  | cons t rest ih =>
    rw [mergeTerm]
    split
    · rename_i h
      rw [add_zero, ← h]
    · rw [List.filter_cons, List.filter_cons, ih]

/-- Terms of coefficient zero leave no trace. -/
theorem filter_mergedInto_zeros {zeros : List (Exact × Var)} (h : ∀ t ∈ zeros, t.1 = 0)
    (acc : List (Exact × Var)) :
    (mergedInto acc zeros).filter (·.1 != 0) = acc.filter (·.1 != 0) := by
  induction zeros generalizing acc with
  | nil => rfl
  | cons t rest ih =>
    rw [List.forall_mem_cons] at h
    rw [mergedInto, List.foldl_cons, ← mergedInto, ih h.2, h.1, filter_mergeTerm_zero]

namespace LinearForm

theorem Canonical.extended_zeros {f : LinearForm Exact} (hf : f.Canonical)
    {zeros : List (Exact × Var)} (h : ∀ t ∈ zeros, t.1 = 0) : f.extended zeros = f := by
  have merged : mergedInto [] f.terms = f.terms := mergedInto_of_nodup hf.1
  have terms : (f.extended zeros).terms = f.terms := by
    rw [extended, terms_ofTerms, mergedInto, List.foldl_append, ← mergedInto, ← mergedInto, merged,
      filter_mergedInto_zeros h]
    exact List.filter_eq_self.2 hf.2
  exact congrArg LinearForm.mk terms

theorem Canonical.ofTerms_terms {f : LinearForm Exact} (hf : f.Canonical) :
    ofTerms f.terms = f := by
  have := hf.extended_zeros (List.forall_mem_nil _)
  rwa [extended, List.append_nil] at this

theorem canonical_singleton (v : Var) : (⟨[(1, v)]⟩ : LinearForm Exact).Canonical :=
  ⟨List.pairwise_singleton _ _, List.forall_mem_singleton.2 rfl⟩

end LinearForm

namespace QuadForm

/-- The terms of a form as products to be added up. -/
def products (q : QuadForm Exact) : List (Exact × Var × Var) :=
  q.terms.map fun t => (t.coefficient, t.first, t.second)

theorem addTerms_of_merged {acc terms : List (QuadTerm Exact)} (h : Merged ⟨acc ++ terms⟩) :
    addTerms ⟨acc⟩ (products ⟨terms⟩) = ⟨acc ++ terms⟩ := by
  induction terms generalizing acc with
  | nil => rw [List.append_nil]; rfl
  | cons t rest ih =>
    have ordered : orderedTerm t.coefficient t.first t.second = t :=
      if_pos (decide_eq_true (h.1 t (List.mem_append_right _ List.mem_cons_self)))
    have absent : (t.first, t.second) ∉ acc.map fun t => (t.first, t.second) := by
      have nodup := h.2
      rw [List.map_append, List.map_cons, List.nodup_append] at nodup
      exact fun ht => nodup.2.2 _ ht _ List.mem_cons_self rfl
    rw [List.append_cons] at h ⊢
    rw [← ih h, products, List.map_cons, addTerms, List.foldl_cons, addTerm, ordered,
      mergeTerm_of_notMem absent]
    rfl

theorem Canonical.ofTerms_products {q : QuadForm Exact} (hq : q.Canonical) :
    ofTerms q.products = q := by
  have added : empty.addTerms q.products = q := addTerms_of_merged hq.1
  rw [ofTerms, added, canonicalize]
  exact congrArg QuadForm.mk (List.filter_eq_self.2 hq.2)

end QuadForm

/-! ### Reading -/

theorem exact_sub_zero (a : Exact) : a - 0 = a := by
  cases a with
  | finite q => rw [exact_zero, finite_sub, sub_zero]
  | _ => rfl

theorem exact_neg_neg (a : Exact) : - -a = a := Exact.neg_neg a

theorem exact_eq_zero {a : Exact} (h : ¬(a != 0) = true) : a = 0 := by
  rwa [exact_zero, exact_bne_finite, not_not] at h

theorem LinearForm.pieces_termExpr {t : Exact × Var} (h : (t.1 != 0) = true) :
    (termExpr t).pieces 1 = [.term t.1 t.2] := by
  rw [termExpr]
  split
  · rename_i one
    have one : t.1 = 1 := exact_beq_finite.1 one
    rw [one, Expr.pieces_var rfl]
  · rw [Expr.pieces_const_mul, Expr.pieces_var h]

/-- The constant, if it is written next to the terms. -/
def LinearForm.writtenConstant (f : LinearForm Exact) (k : Exact) : List Exact :=
  if k != 0 || f.terms.isEmpty then [k] else []

theorem LinearForm.sum_writtenConstant (f : LinearForm Exact) (k : Exact) :
    Scalar.sum (f.writtenConstant k) = k := by
  rw [writtenConstant, exact_sum_eq]
  split
  · rw [List.sum_singleton]
  · rename_i h
    rw [Bool.or_eq_true, not_or] at h
    exact (exact_eq_zero h.1).symm

/-- What is read is the terms in their order, and the constant if it is written. -/
theorem LinearForm.pieces_toExpr {f : LinearForm Exact} (hf : f.Canonical) (k : Exact) :
    (f.toExpr k).pieces 1 =
      f.terms.map (fun t => .term t.1 t.2) ++ (f.writtenConstant k).map .constant := by
  have terms : (f.terms.map termExpr).flatMap (Expr.pieces 1) =
      f.terms.map fun t => .term t.1 t.2 := by
    rw [List.flatMap_map, List.map_eq_flatMap]
    exact List.flatMap_congr fun t ht => pieces_termExpr (hf.2 t ht)
  have read : (f.toExpr k).pieces 1 =
      (f.terms.map termExpr ++ (f.writtenConstant k).map Expr.const).flatMap (Expr.pieces 1) := by
    have items : (f.terms.map termExpr ++ (f.writtenConstant k).map Expr.const) =
        if k != 0 || (f.terms.map termExpr).isEmpty then f.terms.map termExpr ++ [.const k]
        else f.terms.map termExpr := by
      rw [writtenConstant, List.isEmpty_map]
      split
      · rfl
      · exact List.append_nil _
    rw [items, toExpr]
    split
    · rename_i e single
      rw [single, List.flatMap_singleton]
    · exact Expr.pieces_sum _
  have constant : ((f.writtenConstant k).map Expr.const).flatMap (Expr.pieces 1) =
      (f.writtenConstant k).map .constant := by
    rw [List.flatMap_map, List.map_eq_flatMap]
    exact List.flatMap_congr fun c _ => Expr.pieces_const c
  rw [read, List.flatMap_append, terms, constant]

namespace Split

omit [Transcendental] in
theorem isLinear_nil (f : LinearForm Exact) (k : Exact) : isLinear ⟨f, k, []⟩ = true := rfl

/-- Terms, constants and residual terms in this order are sorted as they stand. -/
theorem ofPieces_in_order {f : LinearForm Exact} (hf : f.Canonical) (ks : List Exact)
    (residual : List (Exact × Expr Exact)) :
    ofPieces (.constant 0 :: (f.terms.map (fun t => .term t.1 t.2) ++ ks.map .constant ++
      residual.map fun t => .residual t.1 t.2)) = ⟨f, Scalar.sum ks, residual⟩ := by
  have constant : (0 :: ks).foldl (· + ·) 0 = Scalar.sum ks :=
    (exact_sum_cons 0 ks).trans (zero_add _)
  have sorted := hf.ofTerms_terms
  simp [ofPieces, List.filterMap_cons, List.filterMap_map, Function.comp_def, Piece.term?,
    Piece.constant?, Piece.residual?, sorted, ← constant]

/-- A canonical form and a constant are read as they are. -/
theorem ofExpr_toExpr {f : LinearForm Exact} (hf : f.Canonical) (k : Exact) :
    ofExpr (f.toExpr k) = ⟨f, k, []⟩ := by
  have sorted := ofPieces_in_order hf (f.writtenConstant k) []
  rwa [List.map_nil, List.append_nil, ← LinearForm.pieces_toExpr hf, f.sum_writtenConstant]
    at sorted

theorem ofExpr_var (v : Var) : ofExpr (.var v) = ⟨(⟨[(1, v)]⟩ : LinearForm Exact), 0, []⟩ := by
  have spelled : (⟨[(1, v)]⟩ : LinearForm Exact).toExpr 0 = .var v := rfl
  rw [← spelled, ofExpr_toExpr (LinearForm.canonical_singleton v)]

theorem ofExpr_const (k : Exact) : ofExpr (.const k) = ⟨.empty, k, []⟩ := by
  have spelled : LinearForm.empty.toExpr k = .const k := by
    simp [LinearForm.toExpr, LinearForm.empty]
  rw [← spelled, ofExpr_toExpr LinearForm.canonical_empty]

/-- The products behind a form are its residual terms. -/
theorem ofExpr_sum_products {f : LinearForm Exact} (hf : f.Canonical) {q : QuadForm Exact}
    (hq : q.Canonical) : ofExpr (.sum (f.toExpr 0 :: q.terms.map QuadTerm.toExpr)) =
      ⟨f, 0, q.terms.map fun t => (t.coefficient, .mul (.var t.first) (.var t.second))⟩ := by
  have product {t : QuadTerm Exact} (ht : t ∈ q.terms) : t.toExpr.pieces 1 =
      [.residual t.coefficient (.mul (.var t.first) (.var t.second))] := by
    have nonzero := hq.2 t ht
    rw [QuadTerm.toExpr, Expr.pieces_const_mul, Expr.pieces, if_neg (by simpa [bne] using nonzero)]
    rfl
  have products : (q.terms.map QuadTerm.toExpr).flatMap (Expr.pieces 1) =
      (q.terms.map fun t => (t.coefficient, .mul (.var t.first) (.var t.second))).map
        fun t => .residual t.1 t.2 := by
    rw [List.flatMap_map, List.map_map, List.map_eq_flatMap]
    exact List.flatMap_congr fun t ht => product ht
  have sorted := ofPieces_in_order hf (f.writtenConstant 0)
    (q.terms.map fun t => (t.coefficient, .mul (.var t.first) (.var t.second)))
  rwa [← products, ← LinearForm.pieces_toExpr hf, ← List.flatMap_cons, ← Expr.pieces_sum,
    f.sum_writtenConstant] at sorted

end Split

/-! ### Recognition -/

/-! The residual terms of a quadratic row are multiplied out to the products themselves. -/

namespace Polynomial

theorem linearFactor?_var (v : Var) :
    linearFactor? (.var v) = some ⟨(⟨[(1, v)]⟩ : LinearForm Exact), 0, []⟩ := by
  rw [linearFactor?, Split.ofExpr_var]
  rfl

theorem ofTerm?_var_mul_var {c : Exact} (hc : c.IsRational) (v w : Var) :
    ofTerm? c (.mul (.var v) (.var w)) = some ⟨[(c, v, w)], [(0, v), (0, w)], [0]⟩ := by
  obtain ⟨k, rfl⟩ := hc
  rw [ofTerm?, linearFactor?_var, linearFactor?_var]
  simp [product, exact_zero, exact_one, finite_mul]

theorem ofResidual?_products {terms : List (QuadTerm Exact)}
    (h : ∀ t ∈ terms, t.coefficient.IsRational) :
    ∃ r, ofResidual? (terms.map fun t => (t.coefficient, .mul (.var t.first) (.var t.second))) =
        some r ∧
      r.quad = QuadForm.products ⟨terms⟩ ∧ (∀ t ∈ r.linear, t.1 = 0) ∧ ∀ c ∈ r.constant, c = 0 := by
  induction terms with
  | nil => exact ⟨.empty, rfl, rfl, List.forall_mem_nil _, List.forall_mem_nil _⟩
  | cons t rest ih =>
    rw [List.forall_mem_cons] at h
    obtain ⟨r, hr, quad, linear, constant⟩ := ih h.2
    have head := ofTerm?_var_mul_var h.1 t.first t.second
    refine ⟨_, by rw [List.map_cons, ofResidual?, head, hr], ?_, ?_, ?_⟩
    · exact congrArg ((t.coefficient, t.first, t.second) :: ·) quad
    · exact List.forall_mem_cons.2 ⟨rfl, List.forall_mem_cons.2 ⟨rfl, linear⟩⟩
    · exact List.forall_mem_cons.2 ⟨rfl, constant⟩

theorem offset_eq_zero {r : Polynomial Exact} (h : ∀ c ∈ r.constant, c = 0) : r.offset = 0 := by
  have sum : r.offset = Scalar.sum r.constant := rfl
  rw [sum, exact_sum_eq]
  exact List.sum_eq_zero h

end Polynomial

/-- A product is not a known function. -/
theorem functionOfRange?_products (f : LinearForm Exact) (k l u : Exact)
    (terms : List (QuadTerm Exact)) : functionOfRange? ⟨f, k, terms.map fun t =>
      (t.coefficient, .mul (.var t.first) (.var t.second))⟩ l u = none := by
  rw [functionOfRange?]
  split
  · rename_i single
    obtain ⟨t, -, e⟩ := List.mem_map.1 (single ▸ List.mem_singleton_self _)
    cases e
    exact ite_eq_right_iff.2 fun _ => rfl
  · rfl

omit [Transcendental] in
theorem variables?_map_var {vs : List Var} (h : vs ≠ []) :
    variables? (vs.map (Expr.var (α := Exact))) = some vs := by
  have each (vs : List Var) : (vs.map (Expr.var (α := Exact))).mapM Expr.asVar? = some vs := by
    induction vs with
    | nil => rfl
    | cons v vs ih =>
      rw [List.map_cons, List.mapM_cons, ih]
      rfl
  rw [variables?, List.isEmpty_map, if_neg (by simpa using h), each]

/-- Each function is recognized by its own pattern. -/
theorem Func.ofExpr?_toExpr {f : Func} {g : FuncGraph Exact} (h : f.Takes g.args g.params) :
    Func.ofExpr? (f.toExpr g.args g.param) = some (f, g.args, g.params) := by
  obtain ⟨result, args, params⟩ := g
  cases f with
  | max | min | conjunction | disjunction =>
    obtain ⟨some, rfl⟩ := h
    simp [toExpr, ofExpr?, variables?_map_var some]
  | abs | exp | log | sin | cos | tan =>
    obtain ⟨v, rfl, rfl⟩ := h
    rfl
  | expBase | logBase | pow =>
    obtain ⟨v, k, rfl, rfl⟩ := h
    rfl

theorem Split.ofExpr_func (f : Func) (args : List Var) (param : Exact) :
    Split.ofExpr (f.toExpr args param) = ⟨.empty, 0, [(1, f.toExpr args param)]⟩ := by
  have left : (f.toExpr args param).pieces 1 = [.residual 1 (f.toExpr args param)] := by
    cases f <;> exact if_neg one_beq_zero
  have sorted := Split.ofPieces_in_order LinearForm.canonical_empty [] [(1, f.toExpr args param)]
  rw [List.map_singleton, ← left] at sorted
  exact sorted

theorem functionOfDefinition?_toExpr {f : Func} {g : FuncGraph Exact}
    (h : f.Takes g.args g.params) :
    functionOfDefinition? g.result ⟨.empty, 0, [(1, f.toExpr g.args g.param)]⟩ =
      some (.function f g) := by
  have found : functionOf? g.result (f.toExpr g.args g.param) = some (.function f g) := by
    rw [functionOf?, Func.ofExpr?_toExpr h]
    rfl
  rw [← found]
  exact if_pos (e := none) (show ((0 : Exact) == 0 && (1 : Exact) == 1) = true from rfl)

theorem trigger?_compare (v : Var) {k : Int} (h : k = 0 ∨ k = 1) :
    trigger? (.compare .eq (.var v) (.const (Scalar.ofInt k : Exact))) = some (v, k) := by
  rcases h with rfl | rfl <;> rfl

theorem Indicator.ofExpr?_toExpr {i : Indicator Exact} (hf : i.form.Canonical)
    (hv : i.value = 0 ∨ i.value = 1) : Indicator.ofExpr? i.toExpr = some i := by
  have form : i.form.extended [] = i.form := hf.extended_zeros (List.forall_mem_nil _)
  have bound : -(0 - i.rhs) = i.rhs := by
    rw [exact_sub, zero_add, exact_neg_neg]
  have stated : inequality? .le ⟨i.form, 0, []⟩ ⟨.empty, i.rhs, []⟩ = some (i.form, i.rhs) :=
    congrArg₂ (fun f k => some (f, k)) form bound
  rw [toExpr, ofExpr?, trigger?_compare i.trigger hv]
  dsimp only
  rw [Split.ofExpr_toExpr hf, Split.ofExpr_const, Split.isLinear_nil, Split.isLinear_nil, stated]
  rfl

/-! ### Classification of a spelling -/

/-- The row of a quadratic constraint. -/
theorem quadraticOrGeneral_products {source : Constraint Exact} {f : LinearForm Exact}
    (hf : f.Canonical) {q : QuadForm Exact} (hq : q.Canonical) (some : q.terms ≠ [])
    (hr : ∀ t ∈ q.terms, t.coefficient.IsRational) (l u : Exact) :
    quadraticOrGeneral source f
        (q.terms.map fun t => (t.coefficient, .mul (.var t.first) (.var t.second))) l u =
      .quadratic ⟨f, l, u⟩ q := by
  obtain ⟨r, expanded, quad, linear, constant⟩ := Polynomial.ofResidual?_products hr
  have form : r.quadForm = q := by
    rw [Polynomial.quadForm, quad, hq.ofTerms_products]
  have left : ¬q.isEmpty = true := fun h => some (List.isEmpty_iff.1 h)
  rw [quadraticOrGeneral, expanded]
  dsimp only
  rw [form, if_neg left, hf.extended_zeros linear, Polynomial.offset_eq_zero constant,
    exact_sub_zero, exact_sub_zero]

/-- Classification undoes the spelling of every constraint that has one: the result is the
constraint itself, with its terms in their order. -/
theorem classifyConstraint_spelling {c : FlatConstraint Exact} (h : c.Spellable) :
    classifyConstraint c.spelling = c := by
  cases c with
  | linear r =>
    have read := Split.ofExpr_toExpr h 0
    rw [Split.ofExpr] at read
    rw [FlatConstraint.spelling, classifyConstraint, read, classifyRange,
      if_pos (Split.isLinear_nil r.form 0), exact_sub_zero, exact_sub_zero]
  | quadratic r q =>
    obtain ⟨hf, hq, some, rational⟩ := h
    have read := Split.ofExpr_sum_products hf hq
    rw [Split.ofExpr] at read
    have residual : ¬Split.isLinear ⟨r.form, 0, q.terms.map fun t =>
        (t.coefficient, Expr.mul (.var t.first) (.var t.second))⟩ = true := by
      simpa [Split.isLinear] using some
    rw [FlatConstraint.spelling, classifyConstraint, read, classifyRange, if_neg residual,
      functionOfRange?_products]
    dsimp only
    rw [quadraticOrGeneral_products hf hq some rational, exact_sub_zero, exact_sub_zero]
  | linearDefining r f k =>
    have read := Split.ofExpr_toExpr h k
    rw [Split.ofExpr] at read
    rw [FlatConstraint.spelling, classifyConstraint, read, classifyDefinition,
      if_pos (Split.isLinear_nil f k)]
  | function f g =>
    have read := Split.ofExpr_func f g.args g.param
    rw [Split.ofExpr] at read
    rw [FlatConstraint.spelling, classifyConstraint, read, classifyDefinition,
      if_neg (by exact Bool.false_ne_true), functionOfDefinition?_toExpr h]
  | indicator i =>
    rw [FlatConstraint.spelling, classifyConstraint, Indicator.ofExpr?_toExpr h.1 h.2]
  | general => exact h.elim

end Recovery

open Exact.SquareOnly in
/-- A quadratic row with a unit coefficient and an open bound, a power and an indicator. -/
theorem classifyConstraint_spelling_kinds :
    let row : FlatConstraint Exact := .quadratic
      ⟨⟨[(.finite 3, ⟨1⟩), (.finite 1, ⟨0⟩)]⟩, .negInf, .finite 4⟩ ⟨[⟨.finite 2, ⟨0⟩, ⟨1⟩⟩]⟩
    let power : FlatConstraint Exact := .function .pow ⟨⟨2⟩, [⟨0⟩], [.finite 2]⟩
    let indicator : FlatConstraint Exact := .indicator ⟨⟨2⟩, 0, .empty, .finite 1⟩
    classifyConstraint row.spelling = row ∧ classifyConstraint power.spelling = power ∧
      classifyConstraint indicator.spelling = indicator := by
  intro row power indicator
  have spellable : row.Spellable := by
    refine ⟨⟨by decide, by decide +kernel⟩, ⟨⟨by decide, by decide⟩, by decide +kernel⟩, nofun, ?_⟩
    exact List.forall_mem_singleton.2 ⟨2, rfl⟩
  exact ⟨classifyConstraint_spelling spellable,
    classifyConstraint_spelling (c := power) ⟨_, _, rfl, rfl⟩,
    classifyConstraint_spelling (c := indicator) ⟨LinearForm.canonical_empty, .inl rfl⟩⟩

end SolverBridge
