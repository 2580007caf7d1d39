import SolverBridge.Proofs.Coefficients
import SolverBridge.Proofs.Objectives

/-! The result of classifying an objective does not depend on how the objective is spelled. What is
linear or quadratic after classification is a polynomial with rational coefficients in canonical
form, so that the values of the objective determine it: its constant, the coefficient of each
variable and the coefficient of each pair. A quadratic objective has a coefficient of a pair that
is not zero, so its values are not those of a linear one. -/

namespace SolverBridge

/-! ### The same objective -/

section Sameness

variable [Transcendental]

/-- The same sense and constant, and the same terms but for their order. -/
structure LinearObjective.Same (o o' : LinearObjective Exact) : Prop where
  sense : o.sense = o'.sense
  constant : o.constant = o'.constant
  terms : o.form.sameTerms o'.form = true

namespace FlatObjective

/-- The same kind, the same linear part and the same coefficient for each pair of variables. -/
inductive Same : FlatObjective Exact → FlatObjective Exact → Prop
  | linear {l l' : LinearObjective Exact} (h : l.Same l') : Same (.linear l) (.linear l')
  | quadratic {l l' : LinearObjective Exact} {q q' : QuadForm Exact} (h : l.Same l')
      (hq : ∀ v w, q.coefficient v w = q'.coefficient v w) :
      Same (.quadratic l q) (.quadratic l' q')

theorem Same.kind_eq {o o' : FlatObjective Exact} (h : o.Same o') : o.kind = o'.kind := by
  cases h <;> rfl

/-- The linear and the quadratic part of an objective that is one or the other. -/
def parts? {α : Type} : FlatObjective α → Option (LinearObjective α × QuadForm α)
  | .linear l => some (l, .empty)
  | .quadratic l q => some (l, q)
  | .general _ => none

omit [Transcendental] in
theorem exists_parts {o : FlatObjective Exact} (h : o.kind ≠ .general) :
    ∃ l q, o.parts? = some (l, q) := by
  cases o with
  | linear l => exact ⟨l, .empty, rfl⟩
  | quadratic l q => exact ⟨l, q, rfl⟩
  | general => exact absurd rfl h

omit [Transcendental] in
theorem sense_of_parts {o : FlatObjective Exact} {l : LinearObjective Exact} {q : QuadForm Exact}
    (h : o.parts? = some (l, q)) : l.sense = o.sense := by
  cases o <;> cases h <;> rfl

theorem evaluate_of_parts {o : FlatObjective Exact} {l : LinearObjective Exact}
    {q : QuadForm Exact} (h : o.parts? = some (l, q)) (p : Point Exact) :
    o.evaluate p = l.evaluate p + q.evaluate p := by
  cases o with
  | linear =>
    cases h
    exact (add_zero _).symm
  | quadratic =>
    cases h
    rfl
  | general => cases h

end FlatObjective

end Sameness

/-! ### Canonical parts -/

/-- Both forms are canonical, and all numbers are rational. -/
structure CanonicalParts [Transcendental] (l : LinearObjective Exact) (q : QuadForm Exact) :
    Prop where
  form : l.form.Canonical
  quad : q.Canonical
  terms : TermsRational l.form.terms
  constant : l.constant.IsRational
  products : ∀ t ∈ q.terms, t.coefficient.IsRational

namespace QuadForm

variable [Transcendental]

theorem canonical_empty : (empty : QuadForm Exact).Canonical :=
  ⟨⟨List.forall_mem_nil _, List.nodup_nil⟩, List.forall_mem_nil _⟩

omit [Transcendental] in
theorem isRational_mergeTerm {terms : List (QuadTerm Exact)} {t : QuadTerm Exact}
    (h : ∀ s ∈ terms, s.coefficient.IsRational) (ht : t.coefficient.IsRational) :
    ∀ s ∈ mergeTerm terms t, s.coefficient.IsRational := by
  induction terms with
  | nil => exact List.forall_mem_singleton.2 ht
  | cons s rest ih =>
    rw [List.forall_mem_cons] at h
    rw [mergeTerm]
    split
    · exact List.forall_mem_cons.2 ⟨h.1.add ht, h.2⟩
    · exact List.forall_mem_cons.2 ⟨h.1, ih h.2⟩

theorem isRational_addTerms {q : QuadForm Exact} (hq : ∀ t ∈ q.terms, t.coefficient.IsRational)
    {terms : List (Exact × Var × Var)} (h : PairsRational terms) :
    ∀ t ∈ (q.addTerms terms).terms, t.coefficient.IsRational := by
  induction terms generalizing q with
  | nil => exact hq
  | cons t rest ih =>
    rw [PairsRational, List.forall_mem_cons] at h
    have ordered : (orderedTerm t.1 t.2.1 t.2.2).coefficient.IsRational := by
      rw [orderedTerm]
      split <;> exact h.1
    exact ih (isRational_mergeTerm hq ordered) h.2

theorem isRational_ofTerms {terms : List (Exact × Var × Var)} (h : PairsRational terms) :
    ∀ t ∈ (ofTerms terms).terms, t.coefficient.IsRational := fun t ht =>
  isRational_addTerms (List.forall_mem_nil _) h t (List.mem_filter.1 ht).1

end QuadForm

/-- A value at one point is enough to know that the numbers of a classified objective are
rational. -/
theorem canonicalParts_classifyObjective [Exact.SquareLaw] {p : Point Exact} (hp : p.IsRational)
    {o : Objective Exact} (hr : o.body.IsRational) (hd : (o.evaluate p).IsDefined)
    {l : LinearObjective Exact} {q : QuadForm Exact}
    (h : (classifyObjective o).parts? = some (l, q)) : CanonicalParts l q := by
  obtain ⟨sound, -⟩ := Split.ofBody_spec hp hr hd
  rw [classifyObjective] at h
  dsimp only at h
  split at h
  · cases h
    exact ⟨Split.canonical_form _, QuadForm.canonical_empty, sound.rational, sound.constant,
      List.forall_mem_nil _⟩
  · split at h
    · cases h
    · rename_i r hr
      obtain ⟨expanded, -⟩ := Polynomial.ofResidual?_sound hp sound.residual hr
      have terms := LinearForm.termsRational_extended sound.rational expanded.linearRational
      have constant : ((Split.ofBody o.body).constant + r.offset).IsRational :=
        sound.constant.add (isRational_sum expanded.constant)
      split at h
      · cases h
        exact ⟨LinearForm.canonical_ofTerms _, QuadForm.canonical_empty, terms, constant,
          List.forall_mem_nil _⟩
      · cases h
        exact ⟨LinearForm.canonical_ofTerms _, QuadForm.canonical_ofTerms _, terms, constant,
          QuadForm.isRational_ofTerms expanded.quadRational⟩

namespace CanonicalParts

variable [Transcendental] {l l' : LinearObjective Exact} {q q' : QuadForm Exact}

/-- All variables of the two parts. -/
def vars {α : Type} (l : LinearObjective α) (q : QuadForm α) : List Var :=
  l.form.vars ++ q.terms.flatMap fun t => [t.first, t.second]

theorem evaluate_ofValues (h : CanonicalParts l q) {n : Nat} (hn : ∀ v ∈ vars l q, v.index < n)
    (x : Var → Rat) : l.evaluate (Point.ofValues n x) + q.evaluate (Point.ofValues n x) =
      .finite (l.constant.toRat + weightedSum l.form.terms x + productSum q.terms x) := by
  have linear : ∀ v ∈ l.form.terms.map (·.2), v.index < n := fun v hv =>
    hn v (List.mem_append_left _ hv)
  have products : ∀ t ∈ q.terms, t.first.index < n ∧ t.second.index < n := by
    intro t ht
    have pair {v : Var} (hv : v ∈ [t.first, t.second]) : v.index < n :=
      hn v (List.mem_append_right _ (List.mem_flatMap.2 ⟨t, ht, hv⟩))
    exact ⟨pair (.head _), pair (.tail _ (.head _))⟩
  rw [LinearObjective.evaluate, LinearForm.evaluate, linearValue_ofValues h.terms linear,
    QuadForm.evaluate_ofValues h.products products, ← h.constant.finite_toRat, finite_add,
    finite_add, add_comm (weightedSum _ x)]
  rfl

/-- Canonical parts with the same values have the same coefficients. -/
theorem coefficients_eq (h : CanonicalParts l q) (h' : CanonicalParts l' q')
    (values : ∀ x, l.constant.toRat + weightedSum l.form.terms x + productSum q.terms x =
      l'.constant.toRat + weightedSum l'.form.terms x + productSum q'.terms x) :
    l.constant = l'.constant ∧ l.form.sameTerms l'.form = true ∧
      ∀ v w, q.coefficient v w = q'.coefficient v w := by
  obtain ⟨constant, linear, products⟩ :=
    coefficients_of_values h.form.1 h'.form.1 h.quad.1 h'.quad.1 values
  refine ⟨h.constant.eq_of_toRat h'.constant constant, ?_, fun v w => ?_⟩
  · refine LinearForm.sameTerms_of_coefficient h.form h'.form h.terms fun v => ?_
    exact (LinearForm.isRational_coefficient h.terms v).eq_of_toRat
      (LinearForm.isRational_coefficient h'.terms v) (linear v)
  · exact (QuadForm.isRational_coefficient h.products v w).eq_of_toRat
      (QuadForm.isRational_coefficient h'.products v w) (products v w)

end CanonicalParts

/-! ### Spellings of one objective -/

section Spellings

variable [Exact.SquareLaw]

/-- At every rational point that has the variables of both, the bodies are defined and equal. -/
def Body.Agrees (b b' : Body Exact) : Prop :=
  ∀ p : Point Exact, p.IsRational → p.Covers (b.vars ++ b'.vars) →
    (b.evaluate p).IsDefined ∧ b.evaluate p = b'.evaluate p

theorem FlatObjective.same_of_parts {o o' : FlatObjective Exact} {l l' : LinearObjective Exact}
    {q q' : QuadForm Exact} (h : o.parts? = some (l, q)) (h' : o'.parts? = some (l', q'))
    (left : ∀ l q, o = .quadratic l q → ∃ v w, q.coefficient v w ≠ 0)
    (left' : ∀ l q, o' = .quadratic l q → ∃ v w, q.coefficient v w ≠ 0) (linear : l.Same l')
    (products : ∀ v w, q.coefficient v w = q'.coefficient v w) : o.Same o' := by
  cases o with
  | linear =>
    cases h
    cases o' with
    | linear =>
      cases h'
      exact .linear linear
    | quadratic =>
      cases h'
      obtain ⟨v, w, nonzero⟩ := left' _ _ rfl
      exact absurd (products v w).symm nonzero
    | general => cases h'
  | quadratic =>
    cases h
    cases o' with
    | linear =>
      cases h'
      obtain ⟨v, w, nonzero⟩ := left _ _ rfl
      exact absurd (products v w) nonzero
    | quadratic =>
      cases h'
      exact .quadratic linear products
    | general => cases h'
  | general => cases h

/-- Objectives with the same values are the same after classification. -/
theorem same_of_agrees {o o' : Objective Exact} (hr : o.body.IsRational)
    (hr' : o'.body.IsRational) (sense : o.sense = o'.sense) (agrees : o.body.Agrees o'.body)
    (kind : (classifyObjective o).kind ≠ .general)
    (kind' : (classifyObjective o').kind ≠ .general) :
    (classifyObjective o).Same (classifyObjective o') := by
  obtain ⟨l, q, h⟩ := FlatObjective.exists_parts kind
  obtain ⟨l', q', h'⟩ := FlatObjective.exists_parts kind'
  -- points with `n` values have all variables of the bodies and of the results
  obtain ⟨n, hn⟩ := exists_index_lt ((o.body.vars ++ o'.body.vars) ++
    (CanonicalParts.vars l q ++ CanonicalParts.vars l' q'))
  obtain ⟨covered, parts⟩ := List.forall_mem_append.1 hn
  obtain ⟨below, below'⟩ := List.forall_mem_append.1 parts
  have rational (x : Var → Rat) := Point.isRational_ofValues n x
  have equal (x : Var → Rat) := agrees _ (rational x) (Point.covers_ofValues covered x)
  have defined (x : Var → Rat) : (o.evaluate (Point.ofValues n x)).IsDefined := (equal x).1
  have defined' (x : Var → Rat) : (o'.evaluate (Point.ofValues n x)).IsDefined := by
    rw [Objective.evaluate, ← (equal x).2]
    exact (equal x).1
  have canonical := canonicalParts_classifyObjective (rational fun _ => 0) hr (defined _) h
  have canonical' := canonicalParts_classifyObjective (rational fun _ => 0) hr' (defined' _) h'
  have values (x : Var → Rat) : l.constant.toRat + weightedSum l.form.terms x +
      productSum q.terms x = l'.constant.toRat + weightedSum l'.form.terms x +
        productSum q'.terms x := by
    refine Exact.finite.inj ?_
    rw [← canonical.evaluate_ofValues below x, ← canonical'.evaluate_ofValues below' x,
      ← FlatObjective.evaluate_of_parts h, ← FlatObjective.evaluate_of_parts h',
      evaluate_classifyObjective (rational x) hr (defined x),
      evaluate_classifyObjective (rational x) hr' (defined' x)]
    exact (equal x).2
  obtain ⟨constant, terms, products⟩ := canonical.coefficients_eq canonical' values
  have left (o : Objective Exact) (l : LinearObjective Exact) (q : QuadForm Exact)
      (e : classifyObjective o = .quadratic l q) : ∃ v w, q.coefficient v w ≠ 0 := by
    obtain ⟨canonical, nonempty⟩ := quadForm_classifyObjective e
    exact QuadForm.exists_coefficient_ne_zero canonical nonempty
  refine FlatObjective.same_of_parts h h' (left o) (left o') ⟨?_, constant, terms⟩ products
  rw [FlatObjective.sense_of_parts h, FlatObjective.sense_of_parts h', sense_classifyObjective,
    sense_classifyObjective, sense]

theorem classifyObjective_ofAffine (s : Sense) (a : Affine Exact) :
    (classifyObjective ⟨s, .ofAffine a⟩).kind = .linear := by
  have linear : (Split.ofBody (.ofAffine a)).isLinear = true := by
    rw [Split.isLinear, Split.residual_ofBody]
    rfl
  rw [classifyObjective]
  dsimp only
  rw [if_pos linear]
  rfl

/-- However an objective is spelled, its values determine what it is classified as: the kind, the
constant, the terms of the linear form and the coefficient of each pair of variables. In particular
an objective with the values of a linear form does not stay quadratic. -/
theorem classifyObjective_canonical {o : Objective Exact} (hr : o.body.IsRational) :
    (∀ o' : Objective Exact, o'.body.IsRational → o.sense = o'.sense → o.body.Agrees o'.body →
      (classifyObjective o).kind ≠ .general → (classifyObjective o').kind ≠ .general →
        (classifyObjective o).Same (classifyObjective o')) ∧
    ∀ a : Affine Exact, (Body.ofAffine a).IsRational → o.body.Agrees (.ofAffine a) →
      (classifyObjective o).kind ≠ .quadratic := by
  constructor
  · exact fun o' hr' sense agrees => same_of_agrees hr hr' sense agrees
  · intro a ha agrees quadratic
    have linear := classifyObjective_ofAffine o.sense a
    have same : (classifyObjective o).Same (classifyObjective ⟨o.sense, .ofAffine a⟩) :=
      same_of_agrees hr ha rfl agrees (by rw [quadratic]; nofun) (by rw [linear]; nofun)
    have kinds := same.kind_eq
    rw [quadratic, linear] at kinds
    cases kinds

end Spellings

open Exact.SquareOnly in
/-- A sum times a difference, one added, is the square; less the square nothing is left. -/
theorem classifyObjective_canonical_square :
    let product : Expr Exact := .mul (.sum [.var ⟨0⟩, .const (.finite 1)])
      (.sum [.var ⟨0⟩, .const (.finite (-1))])
    let square : Expr Exact := .pow (.var ⟨0⟩) (.const (.finite 2))
    let o : Objective Exact := ⟨.maximize, ⟨⟨[], .finite 1⟩, some product⟩⟩
    let o' : Objective Exact := ⟨.maximize, .ofExpr square⟩
    let nothing : Objective Exact :=
      ⟨.maximize, ⟨⟨[], .finite 1⟩, some (.sum [product, .neg square])⟩⟩
    (classifyObjective o).Same (classifyObjective o') ∧
      (classifyObjective o').kind = .quadratic ∧ (classifyObjective nothing).kind ≠ .quadratic := by
  intro product square o o' nothing
  have rational {b : Body Exact} (terms : b.affine.terms = [])
      (constant : b.affine.constant.IsRational) (expr : ∀ e ∈ b.expr, e.IsRational) :
      b.IsRational := ⟨by simp [TermsRational, terms], constant, expr⟩
  have numbers : o.body.IsRational := by
    refine rational rfl ⟨1, rfl⟩ fun e h => ?_
    cases h
    intro a ha
    have listed : a ∈ [Exact.finite 1, .finite (-1)] := ha
    simp only [List.mem_cons, List.not_mem_nil, or_false] at listed
    rcases listed with rfl | rfl <;> exact Exact.isRational_finite _
  have numbers' : o'.body.IsRational := by
    refine rational rfl ⟨0, rfl⟩ fun e h => ?_
    cases h
    exact List.forall_mem_singleton.2 ⟨2, rfl⟩
  have numbersNothing : nothing.body.IsRational := by
    refine rational rfl ⟨1, rfl⟩ fun e h => ?_
    cases h
    intro a ha
    have listed : a ∈ [Exact.finite 1, .finite (-1), .finite 2] := ha
    simp only [List.mem_cons, List.not_mem_nil, or_false] at listed
    rcases listed with rfl | rfl | rfl <;> exact Exact.isRational_finite _
  have bodyValue (p : Point Exact) (c : Exact) (e : Expr Exact) :
      (⟨⟨[], c⟩, some e⟩ : Body Exact).evaluate p = c + e.evaluate p :=
    congrArg (· + e.evaluate p) (zero_add c)
  have productValue {p : Point Exact} {x : Rat} (hx : (Var.mk 0).value p = .finite x) :
      product.evaluate p = .finite ((x + 1) * (x + -1)) := by
    simp [product, Expr.evaluate, Expr.evaluateEach, exact_sum_eq, hx, finite_add, finite_mul]
  have squareValue {p : Point Exact} {x : Rat} (hx : (Var.mk 0).value p = .finite x) :
      square.evaluate p = .finite (x * x) := by
    have law : Scalar.pow (.finite x) (.finite 2) = Exact.finite x * .finite x :=
      Exact.SquareLaw.pow_two _
    simp [square, Expr.evaluate, hx, law, finite_mul]
  have agrees : o.body.Agrees o'.body := by
    intro p hp covers
    obtain ⟨x, hx⟩ := hp.value (covers ⟨0⟩ (by decide))
    have value : o.body.evaluate p = .finite (x * x) := by
      rw [bodyValue, productValue hx, finite_add]
      congr 1
      ring
    have value' : o'.body.evaluate p = .finite (x * x) :=
      (bodyValue p 0 square).trans ((zero_add _).trans (squareValue hx))
    rw [value, value']
    exact ⟨(Exact.isRational_finite _).isDefined, rfl⟩
  have vanishes : nothing.body.Agrees (.ofAffine .empty) := by
    intro p hp covers
    obtain ⟨x, hx⟩ := hp.value (covers ⟨0⟩ (by decide))
    have value : nothing.body.evaluate p = .finite 0 := by
      rw [bodyValue, Expr.evaluate, Expr.evaluateEach_eq_map]
      simp [exact_sum_eq, Expr.evaluate, productValue hx, squareValue hx, finite_add, finite_neg]
      ring
    have value' : (Body.ofAffine .empty).evaluate p = .finite 0 := (add_zero _).trans (add_zero _)
    rw [value, value']
    exact ⟨(Exact.isRational_finite _).isDefined, rfl⟩
  have empty : (Body.ofAffine (.empty : Affine Exact)).IsRational := by
    refine rational rfl ⟨0, rfl⟩ fun e h => ?_
    cases h
  exact ⟨(classifyObjective_canonical numbers).1 o' numbers' rfl agrees (by decide +kernel)
      (by decide +kernel), by decide +kernel,
    (classifyObjective_canonical numbersNothing).2 .empty empty vanishes⟩

end SolverBridge
