import SolverBridge.Classify
import SolverBridge.Proofs.SplitValue

/-! The value of an expansion. The products that a residual term is made of are multiplied out
over the rational numbers, so that an expansion is rational and has the value of the
scaled term. A square is a power whose exponent is two; this is the one thing that must be
known of powers. -/

namespace SolverBridge

namespace Polynomial

section Values

variable [Transcendental] {p : Point Exact}

/-- The sum of the three parts. -/
def value (p : Point Exact) (q : Polynomial Exact) : Exact :=
  quadValue p q.quad + linearValue p q.linear + Scalar.sum q.constant

/-- All numbers are rational, and all variables are at the point. -/
structure Sound (p : Point Exact) (q : Polynomial Exact) : Prop where
  quadRational : PairsRational q.quad
  quadDefined : PairsDefined p q.quad
  linearRational : TermsRational q.linear
  linearDefined : TermsDefined p q.linear
  constant : ∀ c ∈ q.constant, c.IsRational

theorem sound_empty : (empty : Polynomial Exact).Sound p := by
  constructor <;> exact fun _ h => absurd h List.not_mem_nil

theorem value_empty : (empty : Polynomial Exact).value p = 0 := by
  have : (0 : Exact) + 0 + 0 = 0 := by rw [add_zero, add_zero]
  exact this

theorem Sound.append {a b : Polynomial Exact} (ha : a.Sound p) (hb : b.Sound p) :
    (a ++ b).Sound p where
  quadRational t ht := (List.mem_append.1 ht).elim (ha.quadRational t) (hb.quadRational t)
  quadDefined t ht := (List.mem_append.1 ht).elim (ha.quadDefined t) (hb.quadDefined t)
  linearRational t ht := (List.mem_append.1 ht).elim (ha.linearRational t) (hb.linearRational t)
  linearDefined t ht := (List.mem_append.1 ht).elim (ha.linearDefined t) (hb.linearDefined t)
  constant c hc := (List.mem_append.1 hc).elim (ha.constant c) (hb.constant c)

theorem value_append (a b : Polynomial Exact) : (a ++ b).value p = a.value p + b.value p := by
  have : (a ++ b).value p = quadValue p (a.quad ++ b.quad) + linearValue p (a.linear ++ b.linear) +
      Scalar.sum (a.constant ++ b.constant) := rfl
  rw [this, quadValue_append, linearValue_append, exact_sum_append, value, value]
  ac_rfl

theorem Sound.isRational {q : Polynomial Exact} (h : q.Sound p) : (q.value p).IsRational :=
  ((isRational_quadValue h.quadRational h.quadDefined).add
    (isRational_linearValue h.linearRational h.linearDefined)).add (isRational_sum h.constant)

/-! ### Products -/

/-- The products of one term with the terms of a list. -/
theorem quadValue_row (k : Rat) {s : Exact × Var} {b : List (Exact × Var)}
    (hs : s.1.IsRational ∧ (s.2.value p).IsRational) (hr : TermsRational b)
    (hd : TermsDefined p b) :
    quadValue p (b.map fun t => (.finite k * s.1 * t.1, s.2, t.2)) =
      .finite k * (s.1 * s.2.value p * linearValue p b) := by
  obtain ⟨⟨c, hc⟩, x, hx⟩ := hs
  induction b with
  | nil =>
    have : Exact.finite k * (s.1 * s.2.value p * 0) = 0 := by
      rw [hc, hx, finite_mul, finite_mul_zero, finite_mul_zero]
    exact this.symm
  | cons t rest ih =>
    rw [TermsRational, List.forall_mem_cons] at hr
    rw [TermsDefined, List.forall_mem_cons] at hd
    obtain ⟨d, hd1⟩ := hr.1
    obtain ⟨y, hy⟩ := hd.1
    have head : productValue p (.finite k * s.1 * t.1) s.2 t.2 =
        .finite k * (s.1 * s.2.value p * (t.1 * t.2.value p)) := by
      rw [productValue, hc, hx, hd1, hy]
      simp only [finite_mul]
      congr 1
      ring
    rw [List.map_cons, quadValue_cons, ih hr.2 hd.2, head, linearValue_cons, hc, hx, finite_mul,
      finite_mul_add, finite_mul_add]

/-- The products of all terms of one list with all terms of another. -/
theorem quadValue_products (k : Rat) {a b : List (Exact × Var)} (ha : TermsRational a)
    (ha' : TermsDefined p a) (hb : TermsRational b) (hb' : TermsDefined p b) :
    quadValue p (a.flatMap fun s => b.map fun t => (.finite k * s.1 * t.1, s.2, t.2)) =
      .finite k * (linearValue p a * linearValue p b) := by
  have hvalue := isRational_linearValue hb hb'
  induction a with
  | nil =>
    have : Exact.finite k * (0 * linearValue p b) = 0 := by
      rw [zero_mul_value hvalue, finite_mul_zero]
    exact this.symm
  | cons s rest ih =>
    rw [TermsRational, List.forall_mem_cons] at ha
    rw [TermsDefined, List.forall_mem_cons] at ha'
    rw [List.flatMap_cons, quadValue_append, quadValue_row k ⟨ha.1, ha'.1⟩ hb hb', ih ha.2 ha'.2,
      linearValue_cons, add_mul_value _ _ hvalue, finite_mul_add]

theorem linearValue_scaled (k d : Rat) {a : List (Exact × Var)} (ha : TermsDefined p a) :
    linearValue p (a.map fun s => (.finite k * s.1 * .finite d, s.2)) =
      .finite (k * d) * linearValue p a := by
  rw [← linearValue_map_mul _ ha]
  congr 1
  refine List.map_congr_left fun s _ => ?_
  rw [exact_mul_comm, finite_mul_assoc, mul_comm]

theorem sound_product {k : Exact} {a b : Split Exact} (hk : k.IsRational) (ha : a.Sound p)
    (hb : b.Sound p) : (product k a b).Sound p where
  quadRational t ht := by
    obtain ⟨s, hs, ht⟩ := List.mem_flatMap.1 ht
    obtain ⟨r, hr, rfl⟩ := List.mem_map.1 ht
    exact (hk.mul (ha.rational s hs)).mul (hb.rational r hr)
  quadDefined t ht := by
    obtain ⟨s, hs, ht⟩ := List.mem_flatMap.1 ht
    obtain ⟨r, hr, rfl⟩ := List.mem_map.1 ht
    exact ⟨ha.defined s hs, hb.defined r hr⟩
  linearRational t ht := by
    rcases List.mem_append.1 ht with ht | ht
    · obtain ⟨s, hs, rfl⟩ := List.mem_map.1 ht
      exact (hk.mul (ha.rational s hs)).mul hb.constant
    · obtain ⟨s, hs, rfl⟩ := List.mem_map.1 ht
      exact (hk.mul (hb.rational s hs)).mul ha.constant
  linearDefined t ht := by
    rcases List.mem_append.1 ht with ht | ht
    · obtain ⟨s, hs, rfl⟩ := List.mem_map.1 ht
      exact ha.defined s hs
    · obtain ⟨s, hs, rfl⟩ := List.mem_map.1 ht
      exact hb.defined s hs
  constant c hc := by
    rw [List.mem_singleton.1 hc]
    exact (hk.mul ha.constant).mul hb.constant

/-- The product of two linear forms with constants, multiplied out. -/
theorem value_product {k : Exact} {a b : Split Exact} (hk : k.IsRational) (ha : a.Sound p)
    (hb : b.Sound p) : (product k a b).value p =
      k * ((a.form.evaluate p + a.constant) * (b.form.evaluate p + b.constant)) := by
  obtain ⟨k, rfl⟩ := hk
  obtain ⟨c, hc⟩ := ha.constant
  obtain ⟨d, hd⟩ := hb.constant
  obtain ⟨x, hx⟩ := ha.form
  obtain ⟨y, hy⟩ := hb.form
  rw [LinearForm.evaluate] at hx hy
  have constant : Scalar.sum [.finite k * .finite c * .finite d] = Exact.finite (k * c * d) :=
    (exact_sum_cons _ _).trans (add_zero _)
  rw [value, product, quadValue_products k ha.rational ha.defined hb.rational hb.defined,
    linearValue_append, hc, hd, linearValue_scaled k d ha.defined,
    linearValue_scaled k c hb.defined, LinearForm.evaluate, LinearForm.evaluate, hx, hy, constant]
  simp only [finite_mul, finite_add]
  congr 1
  ring

end Values

section Expansions

variable [Exact.SquareLaw] {p : Point Exact}

theorem linearFactor?_spec (hp : p.IsRational) {e : Expr Exact} {s : Split Exact}
    (hr : e.IsRational) (hd : (e.evaluate p).IsDefined) (h : linearFactor? e = some s) :
    s.Sound p ∧ s.form.evaluate p + s.constant = e.evaluate p := by
  rw [linearFactor?, Option.ite_none_right_eq_some] at h
  obtain ⟨linear, h⟩ := h
  cases h
  obtain ⟨sound, value⟩ := Split.ofExpr_spec hp hr hd
  exact ⟨sound, by rw [← Split.value_of_isLinear linear, value]⟩

theorem ofTerms?_eq (k : Exact) (es : List (Expr Exact)) :
    ofTerms? k es = ofResidual? (es.map fun e => (k, e)) := by
  induction es with
  | nil => rfl
  | cons e es ih => rw [ofTerms?, ih, List.map_cons, ofResidual?]

theorem ofResidual?_spec {terms : List (Exact × Expr Exact)} {q : Polynomial Exact}
    (each : ∀ t ∈ terms, ∀ q, ofTerm? t.1 t.2 = some q →
      q.Sound p ∧ q.value p = t.1 * t.2.evaluate p)
    (h : ofResidual? terms = some q) : q.Sound p ∧ q.value p = residualValue p terms := by
  induction terms generalizing q with
  | nil =>
    cases h
    exact ⟨sound_empty, value_empty⟩
  | cons t rest ih =>
    rw [List.forall_mem_cons] at each
    rw [ofResidual?] at h
    split at h
    · rename_i a b ha hb
      cases h
      obtain ⟨headSound, headValue⟩ := each.1 a ha
      obtain ⟨restSound, restValue⟩ := ih each.2 hb
      exact ⟨headSound.append restSound, by
        rw [value_append, headValue, restValue, residualValue_cons]⟩
    · cases h

/-- The expansion of a scaled term is rational and has its value. -/
theorem ofTerm?_spec (hp : p.IsRational) {k : Exact} {e : Expr Exact} {q : Polynomial Exact}
    (hk : k.IsRational) (hr : e.IsRational) (hd : (e.evaluate p).IsDefined)
    (h : ofTerm? k e = some q) :
    q.Sound p ∧ q.value p = k * e.evaluate p := by
  induction e using Expr.induction generalizing k q with
  | neg a ih =>
    rw [Expr.evaluate, exact_neg_eq] at hd
    obtain ⟨sound, value⟩ := ih hk.neg (hr.child (.head _)) (isDefined_of_mul hd) h
    refine ⟨sound, value.trans ?_⟩
    obtain ⟨k, rfl⟩ := hk
    rw [Expr.evaluate, finite_neg, exact_neg_eq (a.evaluate p), finite_mul_assoc, mul_neg_one]
  | sum es ih =>
    have each : ∀ t ∈ es.map fun e => (k, e), ∀ q, ofTerm? t.1 t.2 = some q →
        q.Sound p ∧ q.value p = t.1 * t.2.evaluate p := by
      intro t ht q hq
      obtain ⟨e, he, rfl⟩ := List.mem_map.1 ht
      rw [Expr.evaluate, Expr.evaluateEach_eq_map] at hd
      exact ih e he hk (hr.child he) (isDefined_of_mem_sum hd (List.mem_map_of_mem he)) hq
    rw [ofTerm?, ofTerms?_eq] at h
    obtain ⟨sound, value⟩ := ofResidual?_spec each h
    refine ⟨sound, value.trans ?_⟩
    obtain ⟨k, rfl⟩ := hk
    rw [residualValue, Expr.evaluate, Expr.evaluateEach_eq_map, finite_mul_sum, List.map_map,
      List.map_map]
    rfl
  | mul a b =>
    rw [ofTerm?] at h
    split at h
    · rename_i s t hs ht
      cases h
      have hd : (b.evaluate p * a.evaluate p).IsDefined := by rwa [exact_mul_comm]
      obtain ⟨sound, value⟩ :=
        linearFactor?_spec hp (hr.child (.head _)) (isDefined_of_mul hd) hs
      rw [exact_mul_comm] at hd
      obtain ⟨sound', value'⟩ :=
        linearFactor?_spec hp (hr.child (.tail _ (.head _))) (isDefined_of_mul hd) ht
      exact ⟨sound_product hk sound sound', by
        rw [value_product hk sound sound', value, value', Expr.evaluate]⟩
    · cases h
  | pow a b =>
    rw [ofTerm?, Option.ite_none_right_eq_some] at h
    obtain ⟨square, h⟩ := h
    obtain ⟨s, hs, rfl⟩ := Option.map_eq_some_iff.1 h
    cases hb : b.asConstant? with
    | none => simp [hb] at square
    | some c =>
      have two : c = .finite 2 := by simpa [hb, finite_ofInt, exact_beq_finite] using square
      have exponent := (Expr.asConstant?_spec (p := p) (hr.child (.tail _ (.head _))) hb).2
      have law : Scalar.pow (a.evaluate p) (.finite 2) = a.evaluate p * a.evaluate p :=
        Exact.SquareLaw.pow_two _
      rw [Expr.evaluate, exponent, two, law] at hd ⊢
      obtain ⟨sound, value⟩ :=
        linearFactor?_spec hp (hr.child (.head _)) (isDefined_of_mul hd) hs
      refine ⟨sound_product hk sound sound, ?_⟩
      rw [value_product hk sound sound, value]
  | _ => cases h

/-- The expansion of residual terms is rational and has their value. -/
theorem ofResidual?_sound (hp : p.IsRational) {terms : List (Exact × Expr Exact)}
    {q : Polynomial Exact} (hs : ResidualSound p terms) (h : ofResidual? terms = some q) :
    q.Sound p ∧ q.value p = residualValue p terms :=
  ofResidual?_spec (fun t ht _ hq => ofTerm?_spec hp (hs t ht).1 (hs t ht).2.1 (hs t ht).2.2 hq) h

end Expansions

end Polynomial

end SolverBridge
