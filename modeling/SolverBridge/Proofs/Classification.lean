import SolverBridge.Proofs.Expansion
import SolverBridge.Proofs.Satisfaction

/-! Classification keeps the meaning of an element. A row takes over the value of the body it
was made from: what the linear form lacks has moved into the bounds or the quadratic form.
An objective keeps its value, and a constraint holds at the same points. The slack that a
tolerance gives is kept too, unless the source measures it in another way: a function found in
a range has its row divided by a coefficient, and an implication has no slack at all. -/

namespace SolverBridge

section Classification

variable [Exact.SquareLaw] {p : Point Exact}

/-! ### Expansions -/

theorem QuadForm.evaluate_of_isEmpty {q : QuadForm Exact} (h : q.isEmpty = true) :
    q.evaluate p = 0 := by
  obtain ⟨terms⟩ := q
  cases List.isEmpty_iff.1 h
  rfl

/-- A form extended by an expansion, its quadratic form and its offset. -/
theorem Polynomial.evaluate_extended {q : Polynomial Exact} {f : LinearForm Exact}
    (hf : TermsDefined p f.terms) (hq : q.Sound p) :
    (f.extended q.linear).evaluate p + q.quadForm.evaluate p + q.offset =
      f.evaluate p + q.value p := by
  rw [LinearForm.evaluate_extended hf hq.linearDefined, Polynomial.quadForm,
    QuadForm.evaluate_ofTerms hq.quadDefined, Polynomial.value]
  have : q.offset = Scalar.sum q.constant := rfl
  rw [this]
  ac_rfl

/-! ### Objectives -/

theorem sense_classifyObjective (o : Objective Exact) : (classifyObjective o).sense = o.sense := by
  rw [classifyObjective]
  dsimp only
  split
  · rfl
  · split
    · rfl
    · split <;> rfl

/-- An objective keeps its value where it has one. -/
theorem evaluate_classifyObjective (hp : p.IsRational) {o : Objective Exact}
    (hr : o.body.IsRational) (hd : (o.evaluate p).IsDefined) :
    (classifyObjective o).evaluate p = o.evaluate p := by
  obtain ⟨sound, value⟩ := Split.ofBody_spec hp hr hd
  rw [classifyObjective, Objective.evaluate, ← value]
  dsimp only
  split
  · rename_i linear
    rw [Split.value_of_isLinear linear]
    rfl
  · split
    · rw [FlatObjective.evaluate, Objective.evaluate, value]
    · rename_i q hq
      obtain ⟨qSound, qValue⟩ := Polynomial.ofResidual?_sound hp sound.residual hq
      have total := Polynomial.evaluate_extended sound.defined qSound
      rw [qValue] at total
      have sum : ((Split.ofBody o.body).form.extended q.linear).evaluate p +
          ((Split.ofBody o.body).constant + q.offset) + q.quadForm.evaluate p =
            (Split.ofBody o.body).value p := by
        rw [Split.value, add_right_comm _ (Split.ofBody o.body).constant, ← total]
        ac_rfl
      split
      · rename_i empty
        rw [FlatObjective.evaluate, LinearObjective.evaluate, ← sum,
          QuadForm.evaluate_of_isEmpty empty]
        exact (add_zero _).symm
      · exact sum

theorem evaluate_classifyObjective_eq (hp : p.IsRational) {o : Objective Exact}
    (hr : o.body.IsRational) (hd : o.body.DefinedAt p) :
    (classifyObjective o).evaluate p = o.evaluate p :=
  evaluate_classifyObjective hp hr (hd.value hp hr)

/-! ### Rows -/

/-- The rows of an expansion hold where the source does, if the source bounds the value of the
form and the residual terms. -/
theorem isSatisfied_quadraticOrGeneral (hp : p.IsRational) {source : Constraint Exact}
    {f : LinearForm Exact} {residual : List (Exact × Expr Exact)} {l u : Exact} {t : Rat}
    (hf : TermsDefined p f.terms) (hr : ResidualSound p residual)
    (h : (residualValue p residual).IsRational → source.isSatisfied p (.finite t) =
      Scalar.within (.finite t) (f.evaluate p + residualValue p residual) l u) :
    (quadraticOrGeneral source f residual l u).isSatisfied p (.finite t) =
      source.isSatisfied p (.finite t) := by
  rw [quadraticOrGeneral]
  split
  · rfl
  · rename_i q hq
    obtain ⟨qSound, qValue⟩ := Polynomial.ofResidual?_sound hp hr hq
    have total := Polynomial.evaluate_extended hf qSound
    obtain ⟨k, hk⟩ : q.offset.IsRational := isRational_sum qSound.constant
    rw [qValue] at total
    rw [h (qValue ▸ qSound.isRational), ← total, hk, within_add_finite]
    dsimp only
    split
    · rename_i empty
      rw [FlatConstraint.isSatisfied, QuadForm.evaluate_of_isEmpty empty, add_zero]
    · rfl

/-! ### Functions -/

omit [Exact.SquareLaw] in
theorem asVar?_eq_some {α : Type} {e : Expr α} {v : Var} (h : e.asVar? = some v) : e = .var v := by
  cases e with
  | var w =>
    cases h
    rfl
  | _ => cases h

omit [Exact.SquareLaw] in
theorem variables?_eq_some {items : List (Expr Exact)} {vs : List Var}
    (h : variables? items = some vs) : items = vs.map .var := by
  have mapped : items.mapM Expr.asVar? = some vs := by
    rw [variables?] at h
    split at h
    · cases h
    · exact h
  clear h
  induction items generalizing vs with
  | nil =>
    cases mapped
    rfl
  | cons e items ih =>
    rw [List.mapM_cons] at mapped
    obtain ⟨v, hv, mapped⟩ := Option.bind_eq_some_iff.1 mapped
    obtain ⟨ws, hws, mapped⟩ := Option.bind_eq_some_iff.1 mapped
    cases mapped
    rw [asVar?_eq_some hv, ih hws, List.map_cons]

theorem evaluateEach_of_variables? {items : List (Expr Exact)} {vs : List Var}
    (h : variables? items = some vs) : Expr.evaluateEach p items = vs.map (Var.value p) := by
  rw [variables?_eq_some h, Expr.evaluateEach_eq_map, List.map_map]
  rfl

/-- A recognized expression has the value of the function. -/
theorem Func.value_of_ofExpr? {e : Expr Exact} {f : Func} {args : List Var} {params : List Exact}
    (hr : e.IsRational) (h : Func.ofExpr? e = some (f, args, params)) (r : Var) :
    (FuncGraph.mk r args params).value f p = e.evaluate p := by
  cases e with
  | max items | min items | and items | or items =>
    obtain ⟨vs, hvs, h⟩ := Option.map_eq_some_iff.1 h
    cases h
    rw [Expr.evaluate, evaluateEach_of_variables? hvs]
    rfl
  | unary g a =>
    obtain ⟨v, hv, h⟩ := Option.map_eq_some_iff.1 h
    cases h
    rw [asVar?_eq_some hv]
    cases g <;> rfl
  | logBase base a =>
    obtain ⟨v, hv, h⟩ := Option.map_eq_some_iff.1 h
    cases h
    rw [asVar?_eq_some hv]
    rfl
  | pow a b =>
    rw [Func.ofExpr?] at h
    split at h
    · rename_i v k hv hk
      cases h
      rw [asVar?_eq_some hv, Expr.evaluate,
        (Expr.asConstant?_spec (hr.child (.tail _ (.head _))) hk).2]
      rfl
    · split at h
      · rename_i k v hk hv
        cases h
        rw [asVar?_eq_some hv, Expr.evaluate, (Expr.asConstant?_spec (hr.child (.head _)) hk).2]
        rfl
      · cases h
  | _ => cases h

theorem functionOf?_spec {r : Var} {e : Expr Exact} {c : FlatConstraint Exact} (hr : e.IsRational)
    (h : functionOf? r e = some c) {t : Exact} :
    c.isSatisfied p t = Scalar.close t (r.value p) (e.evaluate p) := by
  obtain ⟨⟨f, args, params⟩, hf, rfl⟩ := Option.map_eq_some_iff.1 h
  rw [FlatConstraint.isSatisfied, Func.value_of_ofExpr? hr hf]

/-- The definition of a function of variables holds where the source does. -/
theorem isSatisfied_functionOfDefinition {r : Var} {s : Split Exact} {c : FlatConstraint Exact}
    (hs : s.Sound p) (h : functionOfDefinition? r s = some c) {t : Exact} :
    c.isSatisfied p t = Scalar.close t (r.value p) (s.value p) := by
  rw [functionOfDefinition?] at h
  split at h
  · rename_i scale e noTerms single
    rw [Option.ite_none_right_eq_some, Bool.and_eq_true] at h
    obtain ⟨⟨hc, hscale⟩, h⟩ := h
    have hc : s.constant = 0 := exact_beq_finite.1 hc
    have hscale : scale = 1 := exact_beq_finite.1 hscale
    have he := hs.residual (scale, e) (by rw [single]; exact .head _)
    have value : s.value p = e.evaluate p := by
      rw [Split.value, LinearForm.evaluate, noTerms, single, hc, hscale, residualValue_cons,
        exact_one_mul]
      have : (0 : Exact) + 0 + (e.evaluate p + 0) = e.evaluate p := by
        rw [add_zero, zero_add, add_zero]
      exact this
    rw [functionOf?_spec he.2.1 h, value]
  · cases h

/-- The ratio that a row's pattern tests is exactly one. -/
def Split.UnitRatio (s : Split Exact) : Prop :=
  ∀ c r k e, s.form.terms = [(c, r)] → s.residual = [(k, e)] → -k / c = 1

/-- A multiple other than zero vanishes only with what it is a multiple of. -/
theorem within_multiple {a x : Rat} (ha : a ≠ 0) (y : Exact) :
    Scalar.within (.finite 0) (.finite (a * x) + .finite (-a) * y) (.finite 0) (Exact.finite 0) =
      Scalar.close (.finite 0) (.finite x) y := by
  rw [Bool.eq_iff_iff, within_zero, close_zero]
  cases y with
  | finite y =>
    rw [finite_mul, finite_add, Exact.finite.injEq, Exact.finite.injEq, neg_mul, ← sub_eq_add_neg,
      sub_eq_zero, mul_right_inj' ha]
    exact eq_comm
  | nan => exact ⟨nofun, nofun⟩
  | posInf =>
    rw [finite_mul_posInf]
    split_ifs <;> exact ⟨nofun, nofun⟩
  | negInf =>
    rw [finite_mul_negInf]
    split_ifs <;> exact ⟨nofun, nofun⟩

/-- The row `c * r - c * f(args) = 0` holds where `r = f(args)` does. -/
theorem isSatisfied_functionOfRange {s : Split Exact} {l u : Exact}
    {c : FlatConstraint Exact} (hs : s.Sound p) (hcanonical : s.form.Canonical)
    (hunit : s.UnitRatio) (h : functionOfRange? s (l - s.constant) (u - s.constant) = some c) :
    c.isSatisfied p (.finite 0) = Scalar.within (.finite 0) (s.value p) l u := by
  rw [functionOfRange?] at h
  split at h
  · rename_i a r k e term single
    rw [Option.ite_none_right_eq_some, Bool.and_eq_true, Bool.and_eq_true] at h
    obtain ⟨⟨⟨hl, hu⟩, -⟩, h⟩ := h
    obtain ⟨⟨κ, rfl⟩, he, -⟩ := hs.residual (k, e) (by rw [single]; exact .head _)
    obtain ⟨α, rfl⟩ := hs.rational (a, r) (by rw [term]; exact .head _)
    obtain ⟨x, hx⟩ := hs.defined (.finite α, r) (by rw [term]; exact .head _)
    have nonzero := hcanonical.2 (.finite α, r) (by rw [term]; exact .head _)
    have hα : α ≠ 0 := fun e => exact_bne_finite.1 nonzero (congrArg _ e)
    have ratio : κ = -α := by
      have := hunit (.finite α) r (.finite κ) e term single
      rw [finite_neg, finite_div _ hα, exact_one, Exact.finite.injEq, div_eq_one_iff_eq hα] at this
      rw [← this, neg_neg]
    have value : s.form.evaluate p + residualValue p s.residual =
        .finite (α * x) + .finite (-α) * e.evaluate p := by
      rw [LinearForm.evaluate, term, single, linearValue_cons, residualValue_cons, hx, finite_mul,
        ratio]
      exact congrArg₂ _ (add_zero _) (add_zero _)
    rw [Split.within_value hs, value, exact_beq_finite.1 hl, exact_beq_finite.1 hu,
      within_multiple hα, functionOf?_spec he h, hx]
  · cases h

/-! ### Indicators -/

theorem truth_beq_zero {b : Bool} : ((Scalar.truth b : Exact) == 0) = !b := by cases b <;> rfl

theorem isTrue_truth (b : Bool) : Scalar.isTrue (Scalar.truth b : Exact) = b := by
  cases b <;> rfl

/-- The comparison of a variable with a constant, on either side. -/
theorem evaluate_compare_eq {a b : Expr Exact} {v : Var} {c : Exact} (ha : a.IsRational)
    (hb : b.IsRational)
    (h : (match a.asVar?, b.asVar? with
      | some v, _ => b.asConstant?.map fun k => (v, k)
      | none, some v => a.asConstant?.map fun k => (v, k)
      | none, none => none) = some (v, c)) :
    (Expr.compare .eq a b).evaluate p = Scalar.truth (v.value p == c) := by
  split at h
  · rename_i w hw
    obtain ⟨k, hk, h⟩ := Option.map_eq_some_iff.1 h
    cases h
    rw [Expr.evaluate, asVar?_eq_some hw, (Expr.asConstant?_spec hb hk).2]
    rfl
  · rename_i w _ hw
    obtain ⟨k, hk, h⟩ := Option.map_eq_some_iff.1 h
    cases h
    rw [Expr.evaluate, asVar?_eq_some hw, (Expr.asConstant?_spec ha hk).2, Relation.holds,
      exact_beq_comm]
    rfl
  · cases h

/-- A condition is false where its variable does not have the value that it tests for. The variable
alone is a condition that is false at zero only, although it tests for one. -/
theorem trigger?_cases {e : Expr Exact} {v : Var} {k : Int} (hr : e.IsRational)
    (h : trigger? e = some (v, k)) :
    e = .var v ∧ k = 1 ∨ (∀ w, e ≠ .var w) ∧ (k = 0 ∨ k = 1) ∧
      (e.evaluate p == 0) = !(v.value p == .finite k) := by
  cases e with
  | var w =>
    cases h
    exact .inl ⟨rfl, rfl⟩
  | not a =>
    obtain ⟨w, hw, h⟩ := Option.map_eq_some_iff.1 h
    cases h
    refine .inr ⟨by simp, .inl rfl, ?_⟩
    rw [asVar?_eq_some hw, Expr.evaluate, truth_beq_zero]
    rfl
  | compare r a b =>
    cases r with
    | eq =>
      rw [trigger?] at h
      obtain ⟨⟨w, c⟩, tested, h⟩ := Option.bind_eq_some_iff.1 h
      have value := evaluate_compare_eq (p := p) (hr.child (.head _)) (hr.child (.tail _ (.head _)))
        tested
      rw [value, truth_beq_zero]
      dsimp only at h
      split at h
      · rename_i zero
        cases h
        rw [exact_beq_finite.1 zero]
        exact .inr ⟨by simp, .inl rfl, rfl⟩
      · split at h
        · rename_i one
          cases h
          rw [exact_beq_finite.1 one]
          exact .inr ⟨by simp, .inr rfl, rfl⟩
        · cases h
    | _ => cases h
  | _ => cases h

theorem trigger?_spec {e : Expr Exact} {v : Var} {k : Int} (hr : e.IsRational)
    (h : trigger? e = some (v, k)) : (k = 0 ∨ k = 1) ∧
      ((v.value p).IsBit → (e.evaluate p == 0) = !(v.value p == .finite k)) := by
  rcases trigger?_cases (p := p) hr h with ⟨rfl, rfl⟩ | ⟨-, bit, value⟩
  · refine ⟨.inr rfl, fun hb => ?_⟩
    rw [Expr.evaluate]
    rcases hb with e | e <;> rw [e] <;> rfl
  · exact ⟨bit, fun _ => value⟩

theorem inequality?_spec {r : Relation} {a b : Split Exact} {f : LinearForm Exact} {k : Exact}
    (ha : a.Sound p) (hb : b.Sound p) (h : inequality? r a b = some (f, k)) :
    TermsRational f.terms ∧ TermsDefined p f.terms ∧ k.IsRational ∧
      Scalar.le (f.evaluate p) k =
        r.holds (a.form.evaluate p + a.constant) (b.form.evaluate p + b.constant) := by
  have defined : TermsDefined p (a.form.extended b.form.negatedTerms).terms :=
    LinearForm.termsDefined_extended ha.defined
      (LinearForm.termsDefined_negatedTerms hb.defined)
  have rational : TermsRational (a.form.extended b.form.negatedTerms).terms :=
    LinearForm.termsRational_extended ha.rational
      (LinearForm.termsRational_negatedTerms hb.rational)
  have difference : (a.form.extended b.form.negatedTerms).evaluate p =
      a.form.evaluate p - b.form.evaluate p := by
    rw [LinearForm.evaluate_extended ha.defined (LinearForm.termsDefined_negatedTerms hb.defined),
      LinearForm.linearValue_negatedTerms hb.defined, exact_sub]
  obtain ⟨x, hx⟩ := ha.form
  obtain ⟨y, hy⟩ := hb.form
  obtain ⟨c, hc⟩ := ha.constant
  obtain ⟨d, hd⟩ := hb.constant
  cases r with
  | le =>
    cases h
    refine ⟨rational, defined, (ha.constant.sub hb.constant).neg, ?_⟩
    rw [difference, hx, hy, hc, hd, Relation.holds, finite_sub, finite_sub, finite_neg, finite_add,
      finite_add, Bool.eq_iff_iff, le_finite, le_finite]
    constructor <;> intro h <;> linarith
  | ge =>
    cases h
    refine ⟨LinearForm.termsRational_scaled (-1) rational,
      LinearForm.termsDefined_scaled (-1) defined, ha.constant.sub hb.constant, ?_⟩
    have scaled := LinearForm.evaluate_scaled (-1) defined
    rw [show (-1 : Exact) = .finite (-1) from rfl, scaled, difference, hx, hy, hc, hd,
      Relation.holds, finite_sub, finite_sub, finite_mul, finite_add, finite_add,
      Bool.eq_iff_iff, le_finite, le_finite]
    constructor <;> intro h <;> linarith
  | eq => cases h

/-- An implication that becomes an indicator goes from a test to a linear inequality, which the
indicator asks for in another form. -/
theorem Indicator.exists_of_ofExpr? (hp : p.IsRational) {e : Expr Exact} {i : Indicator Exact}
    (hr : e.IsRational) (hd : e.DefinedAt p) (h : Indicator.ofExpr? e = some i) :
    ∃ condition consequence, e = .implies condition consequence ∧ condition.IsRational ∧
      trigger? condition = some (i.trigger, i.value) ∧ TermsRational i.form.terms ∧
      TermsDefined p i.form.terms ∧ i.rhs.IsRational ∧
      Scalar.isTrue (consequence.evaluate p) = Scalar.le (i.form.evaluate p) i.rhs := by
  cases e with
  | implies condition consequence =>
    cases consequence with
    | compare r a b =>
      rw [Indicator.ofExpr?] at h
      split at h
      · cases h
      · rename_i v k trigger
        rw [Option.ite_none_right_eq_some, Bool.and_eq_true] at h
        obtain ⟨⟨linearLhs, linearRhs⟩, h⟩ := h
        obtain ⟨⟨f, c⟩, inequality, h⟩ := Option.map_eq_some_iff.1 h
        cases h
        have hr' := hr.child (.tail _ (.head _))
        have hd' := hd.child (.tail _ (.head _))
        obtain ⟨lhsSound, lhsValue⟩ := Split.ofExpr_spec hp (hr'.child (.head _))
          (hd'.child (.head _)).value
        obtain ⟨rhsSound, rhsValue⟩ := Split.ofExpr_spec hp (hr'.child (.tail _ (.head _)))
          (hd'.child (.tail _ (.head _))).value
        obtain ⟨rational, defined, bound, holds⟩ := inequality?_spec lhsSound rhsSound inequality
        rw [← Split.value_of_isLinear linearLhs, ← Split.value_of_isLinear linearRhs, lhsValue,
          rhsValue] at holds
        refine ⟨_, _, rfl, hr.child (.head _), trigger, rational, defined, bound, ?_⟩
        rw [holds, Expr.evaluate, isTrue_truth]
    | _ => cases h
  | _ => cases h

theorem Indicator.isSatisfied_zero (i : Indicator Exact) :
    (FlatConstraint.indicator i).isSatisfied p (.finite 0) =
      (!i.isTriggered p || Scalar.le (i.form.evaluate p) i.rhs) := by
  have slack : i.rhs + .finite 0 = i.rhs := add_zero _
  rw [FlatConstraint.isSatisfied, slack]

/-- What an implication between a test and a linear inequality is turned into. -/
theorem Indicator.ofExpr?_spec (hp : p.IsRational) {e : Expr Exact} {i : Indicator Exact}
    (hr : e.IsRational) (hd : e.DefinedAt p) (h : Indicator.ofExpr? e = some i) :
    (i.value = 0 ∨ i.value = 1) ∧ TermsRational i.form.terms ∧ TermsDefined p i.form.terms ∧
      i.rhs.IsRational ∧ ((i.trigger.value p).IsBit →
        (FlatConstraint.indicator i).isSatisfied p (.finite 0) = Scalar.isTrue (e.evaluate p)) := by
  obtain ⟨condition, consequence, rfl, hr', trigger, rational, defined, bound, holds⟩ :=
    Indicator.exists_of_ofExpr? hp hr hd h
  obtain ⟨bits, value⟩ := trigger?_spec (p := p) hr' trigger
  refine ⟨bits, rational, defined, bound, fun hbit => ?_⟩
  rw [Indicator.isSatisfied_zero, ← holds, Expr.evaluate, isTrue_truth, value hbit,
    Indicator.isTriggered, hbit.round, finite_ofInt]

/-! ### Constraints -/

theorem functionOf?_isFunction {r : Var} {e : Expr Exact} {c : FlatConstraint Exact}
    (h : functionOf? r e = some c) : ∃ f g, c = .function f g := by
  obtain ⟨⟨f, args, params⟩, -, rfl⟩ := Option.map_eq_some_iff.1 h
  exact ⟨f, _, rfl⟩

theorem functionOfRange?_isFunction {s : Split Exact} {l u : Exact} {c : FlatConstraint Exact}
    (h : functionOfRange? s l u = some c) : ∃ f g, c = .function f g := by
  rw [functionOfRange?] at h
  split at h
  · rw [Option.ite_none_right_eq_some] at h
    exact functionOf?_isFunction h.2
  · cases h

theorem functionOfDefinition?_isFunction {r : Var} {s : Split Exact} {c : FlatConstraint Exact}
    (h : functionOfDefinition? r s = some c) : ∃ f g, c = .function f g := by
  rw [functionOfDefinition?] at h
  split at h
  · rw [Option.ite_none_right_eq_some] at h
    exact functionOf?_isFunction h.2
  · cases h

/-- A range keeps its points, and its slack unless it turns out to be a function. -/
theorem isSatisfied_classifyRange (hp : p.IsRational) {source : Constraint Exact}
    {s : Split Exact} {l u : Exact} {t : Rat} (hs : s.Sound p) (hcanonical : s.form.Canonical)
    (hsource : source.isSatisfied p (.finite t) = Scalar.within (.finite t) (s.value p) l u)
    (h : ∀ f g, classifyRange source s (l - s.constant) (u - s.constant) = .function f g →
      t = 0 ∧ s.UnitRatio) :
    (classifyRange source s (l - s.constant) (u - s.constant)).isSatisfied p (.finite t) =
      source.isSatisfied p (.finite t) := by
  rw [classifyRange] at h ⊢
  by_cases linear : s.isLinear = true
  · rw [if_pos linear, FlatConstraint.isSatisfied, hsource, Split.within_value hs,
      List.isEmpty_iff.1 linear]
    exact congrArg (Scalar.within _ · _ _) (add_zero _).symm
  · rw [if_neg linear] at h ⊢
    cases e : functionOfRange? s (l - s.constant) (u - s.constant) with
    | some c =>
      rw [e] at h
      obtain ⟨f, g, rfl⟩ := functionOfRange?_isFunction e
      obtain ⟨rfl, unit⟩ := h f g rfl
      rw [hsource]
      exact isSatisfied_functionOfRange hs hcanonical unit e
    | none =>
      refine isSatisfied_quadraticOrGeneral hp hs.defined hs.residual fun _ => ?_
      rw [hsource, Split.within_value hs]

/-- The result of a definition may be moved to the other side. -/
theorem close_eq_within (t x y k v : Rat) :
    Scalar.close (Exact.finite t) (.finite x) (.finite y + .finite k + .finite v) =
      Scalar.within (Exact.finite t) (.finite y + .finite (-1) * .finite x + .finite v)
        (-.finite k) (-.finite k) := by
  rw [finite_mul, finite_add, finite_add, finite_add, finite_add, finite_neg, Bool.eq_iff_iff,
    close_finite, within_finite, abs_le]
  constructor <;> rintro ⟨_, _⟩ <;> constructor <;> linarith

/-- A definition keeps its points and its slack. -/
theorem isSatisfied_classifyDefinition (hp : p.IsRational) {source : Constraint Exact} {r : Var}
    {s : Split Exact} {t : Rat} (hs : s.Sound p) (hr : (r.value p).IsRational)
    (hsource : source.isSatisfied p (.finite t) =
      Scalar.close (.finite t) (r.value p) (s.value p)) :
    (classifyDefinition source r s).isSatisfied p (.finite t) =
      source.isSatisfied p (.finite t) := by
  rw [classifyDefinition]
  by_cases linear : s.isLinear = true
  · rw [if_pos linear, FlatConstraint.isSatisfied, hsource, Split.value_of_isLinear linear]
  · rw [if_neg linear]
    cases e : functionOfDefinition? r s with
    | some c =>
      rw [hsource]
      exact isSatisfied_functionOfDefinition hs e
    | none =>
      have result : TermsDefined p [(-1, r)] := List.forall_mem_singleton.2 hr
      refine isSatisfied_quadraticOrGeneral hp
        (LinearForm.termsDefined_extended hs.defined result) hs.residual fun hv => ?_
      obtain ⟨x, hx⟩ := hr
      obtain ⟨y, hy⟩ := hs.form
      obtain ⟨k, hk⟩ := hs.constant
      obtain ⟨v, hv⟩ := hv
      have moved : (s.form.extended [(-1, r)]).evaluate p =
          .finite y + .finite (-1) * .finite x := by
        rw [LinearForm.evaluate_extended hs.defined result, hy, linearValue_cons, hx]
        exact congrArg (_ + ·) (add_zero _)
      rw [hsource, moved, Split.value, hx, hy, hk, hv, close_eq_within]

/-- Classification keeps the points of a constraint up to a tolerance, if a function found in a
range or an implication is only asked for without one. -/
theorem isSatisfied_classifyConstraint (hp : p.IsRational) {c : Constraint Exact} {t : Rat}
    (hr : c.IsRational) (hd : c.DefinedAt p)
    (hrange : ∀ b l u f g, c = .range b l u → classifyConstraint c = .function f g →
      t = 0 ∧ (Split.ofBody b).UnitRatio)
    (htrigger : ∀ i, classifyConstraint c = .indicator i →
      t = 0 ∧ (i.trigger.value p).IsBit) :
    (classifyConstraint c).isSatisfied p (.finite t) = c.isSatisfied p (.finite t) := by
  cases c with
  | range b l u =>
    obtain ⟨sound, value⟩ := Split.ofBody_spec hp hr (hd.value hp hr)
    exact isSatisfied_classifyRange hp sound (Split.canonical_form b)
      (by rw [Constraint.isSatisfied, value]) fun f g h => hrange b l u f g rfl h
  | defining r b =>
    obtain ⟨sound, value⟩ := Split.ofBody_spec hp hr (hd.2.value hp hr)
    exact isSatisfied_classifyDefinition hp sound (hp.value_of_isDefined hd.1)
      (by rw [Constraint.isSatisfied, value])
  | logical e =>
    rw [classifyConstraint] at htrigger ⊢
    cases h : Indicator.ofExpr? e with
    | none => rfl
    | some i =>
      rw [h] at htrigger
      obtain ⟨rfl, hbit⟩ := htrigger i rfl
      obtain ⟨-, -, -, -, agrees⟩ := Indicator.ofExpr?_spec hp hr hd h
      exact agrees hbit

/-- A reformulation of a classified constraint works with rational numbers only. -/
theorem sound_classifyConstraint (hp : p.IsRational) {c : Constraint Exact} (hr : c.IsRational)
    (hd : c.DefinedAt p) : (classifyConstraint c).Sound p := by
  have expanded (source : Constraint Exact) (f : LinearForm Exact)
      (residual : List (Exact × Expr Exact)) (l u : Exact) :
      (quadraticOrGeneral source f residual l u).Sound p := by
    rw [quadraticOrGeneral]
    split
    · trivial
    · dsimp only
      split <;> trivial
  cases c with
  | range b l u =>
    rw [classifyConstraint]
    dsimp only [classifyRange]
    split
    · trivial
    · split
      · rename_i h
        obtain ⟨f, g, rfl⟩ := functionOfRange?_isFunction h
        trivial
      · exact expanded _ _ _ _ _
  | defining r b =>
    obtain ⟨sound, -⟩ := Split.ofBody_spec hp hr (hd.2.value hp hr)
    rw [classifyConstraint, classifyDefinition]
    split
    · exact ⟨hp.value_of_isDefined hd.1, sound.rational, sound.defined, sound.constant⟩
    · split
      · rename_i h
        obtain ⟨f, g, rfl⟩ := functionOfDefinition?_isFunction h
        trivial
      · exact expanded _ _ _ _ _
  | logical e =>
    rw [classifyConstraint]
    split
    · rename_i h
      obtain ⟨value, rational, defined, -⟩ := Indicator.ofExpr?_spec hp hr hd h
      exact ⟨value, rational, defined⟩
    · trivial

namespace Constraint

/-- If a range turns out to be a function, the ratio that was tested is exactly one. -/
def UnitRatio (c : Constraint Exact) : Prop :=
  ∀ b l u f g, c = .range b l u → classifyConstraint c = .function f g →
    (Split.ofBody b).UnitRatio

/-- If the constraint turns out to be an indicator, its trigger is zero or one at the point. -/
def TriggerIsBit (p : Point Exact) (c : Constraint Exact) : Prop :=
  ∀ i, classifyConstraint c = .indicator i → (i.trigger.value p).IsBit

/-- Before and after classification a tolerance means the same: the constraint is neither a
range that turns out to be a function nor an implication that becomes an indicator. -/
def KeepsSlack (c : Constraint Exact) : Prop :=
  (∀ b l u f g, c = .range b l u → classifyConstraint c ≠ .function f g) ∧
    ∀ i, classifyConstraint c ≠ .indicator i

end Constraint

theorem isSatisfied_classifyConstraint_zero (hp : p.IsRational) {c : Constraint Exact}
    (hr : c.IsRational) (hd : c.DefinedAt p) (hunit : c.UnitRatio) (hbit : c.TriggerIsBit p) :
    (classifyConstraint c).isSatisfied p (.finite 0) = c.isSatisfied p (.finite 0) :=
  isSatisfied_classifyConstraint hp hr hd (fun b l u f g h h' => ⟨rfl, hunit b l u f g h h'⟩)
    fun i h => ⟨rfl, hbit i h⟩

/-- Classification keeps the points of a constraint, and it keeps them up to every tolerance
unless the source measures slack in another way. -/
theorem classifyConstraint_exact (hp : p.IsRational) {c : Constraint Exact} (hr : c.IsRational)
    (hd : c.DefinedAt p) :
    (c.UnitRatio → c.TriggerIsBit p →
      (classifyConstraint c).isSatisfied p (.finite 0) = c.isSatisfied p (.finite 0)) ∧
    (c.KeepsSlack → ∀ t : Rat, 0 ≤ t →
      (classifyConstraint c).isSatisfied p (.finite t) = c.isSatisfied p (.finite t)) := by
  constructor
  · exact isSatisfied_classifyConstraint_zero hp hr hd
  · intro keeps t _
    exact isSatisfied_classifyConstraint hp hr hd
      (fun b l u f g h h' => absurd h' (keeps.1 b l u f g h)) fun i h => absurd h (keeps.2 i)

end Classification

open Exact.SquareOnly in
/-- A function found in a range, and a definition that becomes quadratic. -/
theorem classifyConstraint_exact_patterns :
    let p : Point Exact := [.finite 2, .finite 1, .finite 2]
    let largest : Constraint Exact :=
      .range ⟨⟨[(.finite 1, ⟨0⟩)], .finite 0⟩, some (.neg (.max [.var ⟨1⟩, .var ⟨2⟩]))⟩
        (.finite 0) (.finite 0)
    let product : Constraint Exact := .defining ⟨0⟩ (.ofExpr (.mul (.var ⟨1⟩) (.var ⟨2⟩)))
    (classifyConstraint largest).isSatisfied p (.finite 0) =
        largest.isSatisfied p (.finite 0) ∧
      (classifyConstraint product).isSatisfied p (.finite (1 / 2)) =
        product.isSatisfied p (.finite (1 / 2)) := by
  intro p largest product
  have rational : p.IsRational := by
    intro x hx
    simp only [p, List.mem_cons, List.not_mem_nil, or_false] at hx
    rcases hx with rfl | rfl | rfl <;> exact Exact.isRational_finite _
  have largestKind : (classifyConstraint largest).kind = .function .max := by decide +kernel
  have productKind : (classifyConstraint product).kind = .quadratic := by decide +kernel
  have largestRational : largest.IsRational := by
    refine ⟨List.forall_mem_singleton.2 ⟨1, rfl⟩, ⟨0, rfl⟩, fun e h => ?_⟩
    cases h
    exact fun _ h => absurd h List.not_mem_nil
  have productRational : product.IsRational := by
    refine ⟨fun _ h => absurd h List.not_mem_nil, ⟨0, rfl⟩, fun e h => ?_⟩
    cases h
    exact fun _ h => absurd h List.not_mem_nil
  have largestDefined : largest.DefinedAt p := by
    refine ⟨fun t ht => ?_, fun e h => ?_⟩
    · rw [List.mem_singleton.1 ht]
      unfold Exact.IsDefined
      decide +kernel
    · cases h
      unfold Expr.DefinedAt Exact.IsDefined
      decide +kernel
  have productDefined : product.DefinedAt p := by
    refine ⟨by unfold Exact.IsDefined; decide +kernel, fun _ h => absurd h List.not_mem_nil,
      fun e h => ?_⟩
    cases h
    unfold Expr.DefinedAt Exact.IsDefined
    decide +kernel
  have unit : largest.UnitRatio := by
    intro b l u f g hb _ c r k e hterms hresidual
    obtain ⟨rfl, -, -⟩ := Constraint.range.inj hb
    have terms : (Split.ofBody (⟨⟨[(.finite 1, ⟨0⟩)], .finite 0⟩,
        some (.neg (.max [.var ⟨1⟩, .var ⟨2⟩]))⟩ : Body Exact)).form.terms =
          [(.finite 1, ⟨0⟩)] := by decide +kernel
    have scales : (Split.ofBody (⟨⟨[(.finite 1, ⟨0⟩)], .finite 0⟩,
        some (.neg (.max [.var ⟨1⟩, .var ⟨2⟩]))⟩ : Body Exact)).residual.map (·.1) =
          [.finite (-1)] := by decide +kernel
    rw [hterms] at terms
    rw [hresidual] at scales
    cases terms
    cases scales
    decide +kernel
  have noTrigger : largest.TriggerIsBit p := by
    intro i h
    rw [h] at largestKind
    cases largestKind
  have keeps : product.KeepsSlack := by
    constructor
    · intro b l u f g _ h
      rw [h] at productKind
      cases productKind
    · intro i h
      rw [h] at productKind
      cases productKind
  exact ⟨(classifyConstraint_exact rational largestRational largestDefined).1 unit noTrigger,
    (classifyConstraint_exact rational productRational productDefined).2 keeps _ (by norm_num)⟩

end SolverBridge
