import SolverBridge.Backend.Gurobi
import SolverBridge.Proofs.Objectives
import SolverBridge.Proofs.Respelling
import SolverBridge.Proofs.TableResolution
import SolverBridge.Proofs.Unsquaring

/-! Which quadratic constraints a backend takes that recommends linear and quadratic ones. What is
multiplied out becomes a quadratic or a linear row, and that is taken. But known functions are
looked for first, and the power of a variable is one of them: a constraint that states nothing but
`r = x ^ 2` is a constraint on a power, which the table may not take. Spelled `r = x * x` it is
taken. So the spelling of a square matters in these constraints and in no others, and the product
is never the worse spelling. -/

namespace SolverBridge

variable {α : Type} [Scalar α]

/-! ### Known functions and what remains -/

namespace Expr

/-- A product of two linear factors, or the square of one. -/
def IsQuadraticTerm : Expr α → Prop
  | .mul a b => (Split.ofExpr a).isLinear = true ∧ (Split.ofExpr b).isLinear = true
  | .pow a n => (Split.ofExpr a).isLinear = true ∧ n.IsTwo
  | _ => False

/-- The square of a variable. -/
def IsSquareOfVar (e : Expr α) : Prop := ∃ v n, n.IsTwo ∧ e = .pow (.var v) n

end Expr

theorem Polynomial.ofTerm?_isSome_of_isQuadraticTerm {e : Expr α} (h : e.IsQuadraticTerm) (s : α) :
    (ofTerm? s e).isSome = true := by
  cases e with
  | mul a b => simp [ofTerm?, linearFactor?, h.1, h.2]
  | pow a n =>
    obtain ⟨linear, k, hk, two⟩ := h
    simp [ofTerm?, linearFactor?, linear, hk, two]
  | _ => exact h.elim

namespace Constraint

/-- What is left over of a range or a definition when its body is split. -/
def residual : Constraint α → List (α × Expr α)
  | .range b _ _ | .defining _ b => (Split.ofBody b).residual
  | .logical _ => []

/-- A range or a definition whose residual terms are products of two linear factors or squares. -/
def IsQuadratic : Constraint α → Prop
  | .logical _ => False
  | c => ∀ t ∈ c.residual, t.2.IsQuadraticTerm

/-- Beside a residual term under the scale there is only the variable that it is equated with. -/
def Isolates : Constraint α → Var → α → Prop
  | .range b l u, r, k =>
    let s := Split.ofBody b
    ∃ c, s.form.terms = [(c, r)] ∧ (l - s.constant == 0 && u - s.constant == 0 &&
      !Scalar.lt unitRatioTolerance (Scalar.abs (-k / c - 1))) = true
  | .defining result b, r, k =>
    let s := Split.ofBody b
    result = r ∧ s.form.terms = [] ∧ (s.constant == 0 && k == 1) = true
  | .logical _, _, _ => False

/-- The constraint equates a variable with an expression, and says nothing else. -/
def Equates (c : Constraint α) (r : Var) (e : Expr α) : Prop :=
  ∃ k, c.residual = [(k, e)] ∧ c.Isolates r k

/-- The constraint says that a variable is the square of another, and nothing else. -/
def StatesSquare (c : Constraint α) : Prop := ∃ r e, c.Equates r e ∧ e.IsSquareOfVar

/-- What the constraint becomes when no known function is looked for. -/
def expansion : Constraint α → FlatConstraint α
  | c@(.range b l u) =>
    let s := Split.ofBody b
    quadraticOrGeneral c s.form s.residual (l - s.constant) (u - s.constant)
  | c@(.defining r b) =>
    let s := Split.ofBody b
    quadraticOrGeneral c (s.form.extended [(-1, r)]) s.residual (-s.constant) (-s.constant)
  | c@(.logical _) => .general c

variable {c : Constraint α} {r : Var} {e : Expr α}

theorem Isolates.unique {r' : Var} {k k' : α} (h : c.Isolates r k) (h' : c.Isolates r' k') :
    r = r' := by
  cases c with
  | range b l u =>
    obtain ⟨a, term, -⟩ := h
    obtain ⟨a', term', -⟩ := h'
    cases term.symm.trans term'
    rfl
  | defining result b => exact h.1.symm.trans h'.1
  | logical => exact h.elim

theorem Equates.unique {r' : Var} {e' : Expr α} (h : c.Equates r e) (h' : c.Equates r' e') :
    r = r' ∧ e = e' := by
  obtain ⟨k, single, isolates⟩ := h
  obtain ⟨k', single', isolates'⟩ := h'
  cases single.symm.trans single'
  exact ⟨isolates.unique isolates', rfl⟩

/-- How a range or a definition is classified. -/
inductive Classified (c : Constraint α) : FlatConstraint α → Prop
  | linear (row : LinearRow α) (complete : c.residual = []) : Classified c (.linear row)
  | linearDefining (r : Var) (f : LinearForm α) (k : α) (complete : c.residual = []) :
      Classified c (.linearDefining r f k)
  | function {r : Var} {e : Expr α} {d : FlatConstraint α} (h : c.Equates r e)
      (known : functionOf? r e = some d) : Classified c d
  | expanded (unknown : ∀ r e, c.Equates r e → functionOf? r e = none) : Classified c c.expansion

/-- What looking for a known function comes to. -/
theorem classified_of_search {search : Option (FlatConstraint α)}
    (found : ∀ d, search = some d → ∃ r e, c.Equates r e ∧ functionOf? r e = some d)
    (missed : search = none → ∀ r e, c.Equates r e → functionOf? r e = none) :
    c.Classified (search.getD c.expansion) := by
  cases h : search with
  | none => exact .expanded (missed h)
  | some d =>
    obtain ⟨r, e, equates, known⟩ := found d h
    exact .function equates known

theorem classified_range (b : Body α) (l u : α) :
    (range b l u).Classified (classifyConstraint (range b l u)) := by
  rw [classifyConstraint, classifyRange]
  by_cases linear : (Split.ofBody b).isLinear = true
  · rw [if_pos linear]
    exact .linear _ (List.isEmpty_iff.1 linear)
  · rw [if_neg linear]
    have search : (range b l u).Classified
        ((functionOfRange? (Split.ofBody b) (l - (Split.ofBody b).constant)
          (u - (Split.ofBody b).constant)).getD (range b l u).expansion) := by
      refine classified_of_search (fun d hd => ?_) fun none r e equates => ?_
      · rw [functionOfRange?] at hd
        split at hd
        · rename_i a r k e term single
          rw [Option.ite_none_right_eq_some] at hd
          exact ⟨r, e, ⟨k, single, a, term, hd.1⟩, hd.2⟩
        · cases hd
      · obtain ⟨k, single, a, term, unit⟩ := equates
        rw [residual] at single
        simpa only [functionOfRange?, term, single, if_pos unit] using none
    cases h : functionOfRange? (Split.ofBody b) (l - (Split.ofBody b).constant)
        (u - (Split.ofBody b).constant) <;> rw [h] at search <;> exact search

theorem classified_defining (r : Var) (b : Body α) :
    (defining r b).Classified (classifyConstraint (defining r b)) := by
  rw [classifyConstraint, classifyDefinition]
  by_cases linear : (Split.ofBody b).isLinear = true
  · rw [if_pos linear]
    exact .linearDefining _ _ _ (List.isEmpty_iff.1 linear)
  · rw [if_neg linear]
    have search : (defining r b).Classified
        ((functionOfDefinition? r (Split.ofBody b)).getD (defining r b).expansion) := by
      refine classified_of_search (fun d hd => ?_) fun none r e equates => ?_
      · rw [functionOfDefinition?] at hd
        split at hd
        · rename_i k e noTerms single
          rw [Option.ite_none_right_eq_some] at hd
          exact ⟨r, e, ⟨k, single, rfl, noTerms, hd.1⟩, hd.2⟩
        · cases hd
      · obtain ⟨k, single, rfl, noTerms, plain⟩ := equates
        rw [residual] at single
        simpa only [functionOfDefinition?, noTerms, single, if_pos plain] using none
    cases h : functionOfDefinition? r (Split.ofBody b) <;> rw [h] at search <;> exact search

theorem classified (h : ∀ e, c ≠ .logical e) : c.Classified (classifyConstraint c) := by
  cases c with
  | range b l u => exact classified_range b l u
  | defining r b => exact classified_defining r b
  | logical e => exact absurd rfl (h e)

end Constraint

/-! ### Squares and products -/

theorem kind_quadraticOrGeneral {source : Constraint α} {f : LinearForm α}
    {residual : List (α × Expr α)} {l u : α} (h : (Polynomial.ofResidual? residual).isSome = true) :
    (quadraticOrGeneral source f residual l u).kind = .linear ∨
      (quadraticOrGeneral source f residual l u).kind = .quadratic := by
  obtain ⟨q, hq⟩ := Option.isSome_iff_exists.1 h
  rw [quadraticOrGeneral, hq]
  dsimp only
  split
  · exact .inl rfl
  · exact .inr rfl

namespace Constraint

variable {c : Constraint α} {r : Var} {e : Expr α}

theorem kind_expansion {c : Constraint α} (hc : c.IsQuadratic) :
    c.expansion.kind = .linear ∨ c.expansion.kind = .quadratic := by
  have products {ts : List (α × Expr α)} (h : ∀ t ∈ ts, t.2.IsQuadraticTerm) :
      (Polynomial.ofResidual? ts).isSome = true :=
    Polynomial.ofResidual?_isSome fun t ht =>
      Polynomial.ofTerm?_isSome_of_isQuadraticTerm (h t ht) t.1
  cases c with
  | range b l u => exact kind_quadraticOrGeneral (products hc)
  | defining r b => exact kind_quadraticOrGeneral (products hc)
  | logical e => exact hc.elim

theorem functionOf?_square (h : e.IsSquareOfVar) (r : Var) :
    ∃ v k, functionOf? r e = some (.function .pow ⟨r, [v], [k]⟩) := by
  obtain ⟨v, n, ⟨k, hk, -⟩, rfl⟩ := h
  exact ⟨v, k, by simp [functionOf?, Func.ofExpr?, Expr.asVar?, hk]⟩

/-- The square of a variable is the only known function among the quadratic terms. -/
theorem isSquareOfVar_of_functionOf? (he : e.IsQuadraticTerm) {d : FlatConstraint α}
    (h : functionOf? r e = some d) : e.IsSquareOfVar := by
  cases e with
  | mul a b => cases h
  | pow a n =>
    obtain ⟨-, two⟩ := he
    have noVar : n.asVar? = none := by
      obtain ⟨k, hk, -⟩ := two
      cases n <;> first | rfl | cases hk
    cases hv : a.asVar? with
    | some v => exact ⟨v, n, two, by rw [asVar?_eq_some hv]⟩
    | none => simp [functionOf?, Func.ofExpr?, hv, noVar] at h
  | _ => exact he.elim

/-- A known function found for a quadratic constraint is the square of a variable. -/
theorem IsQuadratic.isSquareOfVar (hc : c.IsQuadratic) (h : c.Equates r e) {d : FlatConstraint α}
    (known : functionOf? r e = some d) : e.IsSquareOfVar := by
  have terms : ∀ t ∈ c.residual, t.2.IsQuadraticTerm := by
    cases c with
    | logical => exact hc.elim
    | range | defining => exact hc
  obtain ⟨k, single, -⟩ := h
  exact isSquareOfVar_of_functionOf? (terms (k, e) (by rw [single]; exact .head _)) known

/-- A quadratic constraint is linear, quadratic or the square of a variable. -/
theorem kind_classify_of_isQuadratic (hc : c.IsQuadratic) :
    c.StatesSquare ∧ (∃ r v k, classifyConstraint c = .function .pow ⟨r, [v], [k]⟩) ∨
      ¬c.StatesSquare ∧ ((classifyConstraint c).kind = .linear ∨
        (classifyConstraint c).kind = .quadratic ∨
        ∃ r f k, classifyConstraint c = .linearDefining r f k) := by
  have classified : c.Classified (classifyConstraint c) := by
    refine classified ?_
    rintro e rfl
    exact hc
  have nothing (complete : c.residual = []) : ¬c.StatesSquare := by
    rintro ⟨r, e, ⟨k, single, -⟩, -⟩
    cases complete.symm.trans single
  generalize classifyConstraint c = d at classified ⊢
  cases classified with
  | linear row complete => exact .inr ⟨nothing complete, .inl rfl⟩
  | linearDefining r f k complete => exact .inr ⟨nothing complete, .inr (.inr ⟨r, f, k, rfl⟩)⟩
  | function equates known =>
    have square := hc.isSquareOfVar equates known
    obtain ⟨v, k, same⟩ := functionOf?_square square _
    cases known.symm.trans same
    exact .inl ⟨⟨_, _, equates, square⟩, _, v, k, rfl⟩
  | expanded unknown =>
    refine .inr ⟨?_, (kind_expansion hc).imp_right .inl⟩
    rintro ⟨r, e, equates, square⟩
    obtain ⟨v, k, known⟩ := functionOf?_square square r
    cases (unknown r e equates).symm.trans known

end Constraint

/-! ### Acceptance -/

/-- The constraint can be posted, as it is or in pieces. -/
def AcceptanceTable.Supports (t : AcceptanceTable) (domains : List (Domain α)) (c : Constraint α) :
    Prop := (resolveConstraint t domains (classifyConstraint c)).isOk = true

section Acceptance

variable {t : AcceptanceTable} {domains : List (Domain α)} {d : FlatConstraint α}

theorem isOk_of_recommended {k : Kind} (h : d.kind = k) (hk : t.constraint k = .recommended) :
    (resolveConstraint t domains d).isOk = true := by
  rw [(resolved_resolveConstraint t domains d).eq_of_recommended (h ▸ hk)]
  rfl

theorem isOk_of_linearDefining (linear : t.constraint .linear = .recommended) (r : Var)
    (f : LinearForm α) (k : α) :
    (resolveConstraint t domains (.linearDefining r f k)).isOk = true := by
  refine (resolved_resolveConstraint t domains _).isOk_iff.2 (.inr ⟨_, rfl, ?_⟩)
  refine List.forall_mem_singleton.2 ?_
  rw [FlatConstraint.kind, linear]
  rfl

theorem isOk_power_iff {r : Var} {v : Var} {k : α} :
    (resolveConstraint t domains (.function .pow ⟨r, [v], [k]⟩)).isOk = true ↔
      (t.constraint (.function .pow)).isAccepted = true := by
  rw [(resolved_resolveConstraint t domains _).isOk_iff, FlatConstraint.kind]
  refine or_iff_left ?_
  rintro ⟨pieces, hpieces, -⟩
  cases hpieces

/-- Elements of one kind that is not reformulated are taken alike. -/
theorem isOk_iff_of_alike {c c' : FlatConstraint α} (h : c.Alike c') :
    (resolveConstraint t domains c).isOk = true ↔ (resolveConstraint t domains c').isOk = true := by
  by_cases general : c.kind = .general
  · have pieces {d : FlatConstraint α} (hd : d.kind = .general) :
        (resolveConstraint t domains d).isOk = true ↔
          (t.constraint .general).isAccepted = true := by
      rw [(resolved_resolveConstraint t domains d).isOk_iff, hd]
      refine or_iff_left ?_
      rintro ⟨pieces, hpieces, -⟩
      have target := FlatConstraint.reformulationTarget_of_reformulate? hpieces
      rw [hd] at target
      cases target
    rw [pieces general, pieces (h.kind ▸ general)]
  · rw [h.payload general]

end Acceptance

/-! ### Spelling -/

/-- A product in place of a square, in a body or in a condition. -/
inductive Constraint.Unsquares : Constraint α → Constraint α → Prop
  | range {b b' : Body α} (h : b.Unsquares b') (l u : α) : Unsquares (.range b l u) (.range b' l u)
  | defining (r : Var) {b b' : Body α} (h : b.Unsquares b') :
      Unsquares (.defining r b) (.defining r b')
  | logical {e e' : Expr α} (h : e.Unsquares e') : Unsquares (.logical e) (.logical e')

namespace Constraint

variable {c c' : Constraint α}

theorem alike_quadraticOrGeneral_unsquared (c d : Constraint α) (f : LinearForm α)
    {ts ts' : List (α × Expr α)}
    (h : List.Forall₂ (fun t t' => t.1 = t'.1 ∧ (t.2 = t'.2 ∨ t.2.Unsquares t'.2)) ts ts')
    (l u : α) : (quadraticOrGeneral c f ts l u).Alike (quadraticOrGeneral d f ts' l u) := by
  have same : quadraticOrGeneral d f ts' l u = quadraticOrGeneral d f ts l u := by
    rw [quadraticOrGeneral, quadraticOrGeneral, Polynomial.ofResidual?_unsquared h]
  rw [same]
  exact alike_quadraticOrGeneral c d f ts l u

theorem Unsquares.expansion (h : c.Unsquares c') : c.expansion.Alike c'.expansion := by
  cases h with
  | @range b b' h l u =>
    have split := h.split
    rw [Constraint.expansion, Constraint.expansion, ← split.form, ← split.constant]
    exact alike_quadraticOrGeneral_unsquared _ _ _ split.residual _ _
  | @defining r b b' h =>
    have split := h.split
    rw [Constraint.expansion, Constraint.expansion, ← split.form, ← split.constant]
    exact alike_quadraticOrGeneral_unsquared _ _ _ split.residual _ _
  | logical h => exact ⟨rfl, fun h => absurd rfl h⟩

theorem Unsquares.residual (h : c.Unsquares c') :
    List.Forall₂ (fun t t' => t.1 = t'.1 ∧ (t.2 = t'.2 ∨ t.2.Unsquares t'.2)) c.residual
      c'.residual := by
  cases h with
  | range h | defining _ h => exact h.split.residual
  | logical => exact .nil

theorem Unsquares.isolates_iff (h : c.Unsquares c') {r : Var} {k : α} :
    c.Isolates r k ↔ c'.Isolates r k := by
  cases h with
  | range h | defining _ h => simp only [Isolates, h.split.form, h.split.constant]
  | logical => exact Iff.rfl

/-- The second constraint equates the variable with the second spelling. -/
theorem Unsquares.equates (h : c.Unsquares c') {r : Var} {e : Expr α} (equates : c.Equates r e) :
    ∃ e', c'.Equates r e' ∧ (e = e' ∨ e.Unsquares e') := by
  obtain ⟨k, single, isolates⟩ := equates
  have residual := h.residual
  rw [single] at residual
  generalize single' : c'.residual = ts at residual
  cases residual with
  | @cons _ t _ _ head tail =>
    cases tail
    obtain ⟨rfl, same⟩ := head
    exact ⟨t.2, ⟨t.1, single', h.isolates_iff.1 isolates⟩, same⟩

/-- The first constraint equates the variable with the first spelling. -/
theorem Unsquares.equates_of_unsquared (h : c.Unsquares c') {r : Var} {e' : Expr α}
    (equates : c'.Equates r e') : ∃ e, c.Equates r e ∧ (e = e' ∨ e.Unsquares e') := by
  obtain ⟨k, single', isolates⟩ := equates
  have residual := h.residual
  rw [single'] at residual
  generalize single : c.residual = ts at residual
  cases residual with
  | @cons t _ _ _ head tail =>
    cases tail
    obtain ⟨rfl, same⟩ := head
    exact ⟨t.2, ⟨t.1, single, h.isolates_iff.2 isolates⟩, same⟩

theorem isQuadratic_of_equates_product {r v : Var} (h : c.Equates r (.mul (.var v) (.var v))) :
    c.IsQuadratic := by
  have linear : (Split.ofExpr (.var v : Expr α)).isLinear = true := by
    have atom : (Expr.var v : Expr α).IsAffine := .basic trivial
    rw [Split.isLinear, Split.ofExpr, Split.residual_ofBody]
    exact List.isEmpty_iff.2 (atom.residual_eq_nil 1)
  obtain ⟨k, single, isolates⟩ := h
  have terms : ∀ t ∈ c.residual, t.2.IsQuadraticTerm := by
    rw [single]
    exact List.forall_mem_singleton.2 ⟨linear, linear⟩
  cases c with
  | range | defining => exact terms
  | logical => exact isolates.elim

/-- A function that is equated with a variable is known alike in both spellings, unless it is the
square of a variable. -/
theorem functionOf?_unsquared {e e' : Expr α} (h : e = e' ∨ e.Unsquares e') (r : Var) :
    functionOf? r e = functionOf? r e' ∨ e.UnsquaresVar e' := by
  rcases h with rfl | h
  · exact .inl rfl
  · exact h.func_eq.imp_left fun same => by rw [functionOf?, functionOf?, same]

/-- With residual terms the two spellings are classified alike, unless the first is a square that
is a constraint of its own. -/
theorem Unsquares.classify_of_residual (h : c.Unsquares c') (hc : ∀ e, c ≠ .logical e)
    (hc' : ∀ e, c' ≠ .logical e) (rest : c.residual ≠ []) :
    (classifyConstraint c).Alike (classifyConstraint c') ∨
      c.StatesSquare ∧ ((classifyConstraint c').kind = .linear ∨
        (classifyConstraint c').kind = .quadratic) := by
  have rest' : c'.residual ≠ [] := by
    rw [← List.length_pos_iff] at rest ⊢
    rwa [← h.residual.length_eq]
  have first := classified hc
  have second := classified hc'
  generalize classifyConstraint c = d at first ⊢
  generalize classifyConstraint c' = d' at second ⊢
  cases first with
  | linear _ complete | linearDefining _ _ _ complete => exact absurd complete rest
  | @function r e d equates known =>
    obtain ⟨e', equates', same⟩ := h.equates equates
    cases second with
    | linear _ complete | linearDefining _ _ _ complete => exact absurd complete rest'
    | function other known' =>
      obtain ⟨rfl, rfl⟩ := equates'.unique other
      rcases functionOf?_unsquared same r with same | ⟨v, n, -, -, rfl⟩
      · cases (same.symm.trans known).symm.trans known'
        exact .inl (.refl _)
      · cases known'
    | expanded unknown =>
      rcases functionOf?_unsquared same r with same | ⟨v, n, two, rfl, rfl⟩
      · cases ((same.trans (unknown r e' equates')).symm).trans known
      · exact .inr ⟨⟨r, _, equates, v, n, two, rfl⟩,
          kind_expansion (isQuadratic_of_equates_product equates')⟩
  | expanded unknown =>
    cases second with
    | linear _ complete | linearDefining _ _ _ complete => exact absurd complete rest'
    | @function r e' d equates' known =>
      obtain ⟨e, equates, same⟩ := h.equates_of_unsquared equates'
      rcases functionOf?_unsquared same r with same | ⟨v, n, -, -, rfl⟩
      · cases ((unknown r e equates).symm.trans same).trans known
      · cases known
    | expanded => exact .inl h.expansion

/-- The two spellings are classified alike, unless the first is a square that is a constraint of
its own. -/
theorem Unsquares.classify (h : c.Unsquares c') :
    (classifyConstraint c).Alike (classifyConstraint c') ∨
      c.StatesSquare ∧ ((classifyConstraint c').kind = .linear ∨
        (classifyConstraint c').kind = .quadratic) := by
  by_cases rest : c.residual = []
  · left
    cases h with
    | @range b b' h l u =>
      have same := h.split.eq_of_isLinear (List.isEmpty_iff.2 rest)
      rw [classifyConstraint, classifyConstraint, ← same]
      exact alike_classifyRange _ _ _ _ _
    | @defining r b b' h =>
      have same := h.split.eq_of_isLinear (List.isEmpty_iff.2 rest)
      rw [classifyConstraint, classifyConstraint, ← same]
      exact alike_classifyDefinition _ _ _ _
    | @logical e e' h =>
      rw [classifyConstraint, classifyConstraint, ← h.indicator_eq]
      cases Indicator.ofExpr? e with
      | some i => exact .refl _
      | none => exact ⟨rfl, fun h => absurd rfl h⟩
  · refine h.classify_of_residual ?_ ?_ rest
    · rintro e rfl
      exact rest rfl
    · rintro e rfl
      cases h
      exact rest rfl

end Constraint

/-! ### Support -/

/-- Let a table recommend linear and quadratic constraints. A range or a definition whose residual
terms are products of two linear factors or squares of one is supported, unless it states that a
variable is the square of another and powers are not accepted. A product in place of a square
never costs a constraint its support, whatever else it contains, and it gains support only where
a square was stated. -/
theorem quadratic_support {t : AcceptanceTable} (linear : t.constraint .linear = .recommended)
    (quadratic : t.constraint .quadratic = .recommended) (domains : List (Domain α)) :
    (∀ c : Constraint α, c.IsQuadratic → (t.Supports domains c ↔
      ¬c.StatesSquare ∨ (t.constraint (.function .pow)).isAccepted = true)) ∧
    ∀ c c' : Constraint α, c.Unsquares c' →
      (t.Supports domains c → t.Supports domains c') ∧
      (t.Supports domains c' → t.Supports domains c ∨ c.StatesSquare) := by
  have row {d : FlatConstraint α} (h : d.kind = .linear ∨ d.kind = .quadratic) :
      (resolveConstraint t domains d).isOk = true :=
    h.elim (fun h => isOk_of_recommended h linear) fun h => isOk_of_recommended h quadratic
  constructor
  · intro c hc
    rw [AcceptanceTable.Supports]
    rcases Constraint.kind_classify_of_isQuadratic hc with ⟨square, r, v, k, h⟩ | ⟨other, kinds⟩
    · rw [h, isOk_power_iff]
      exact ⟨.inr, fun h => h.resolve_left fun h => h square⟩
    · refine iff_of_true ?_ (.inl other)
      rcases kinds with h | h | ⟨r, f, k, h⟩
      · exact row (.inl h)
      · exact row (.inr h)
      · rw [h]
        exact isOk_of_linearDefining linear r f k
  · intro c c' h
    rw [AcceptanceTable.Supports, AcceptanceTable.Supports]
    rcases h.classify with alike | ⟨square, kind⟩
    · exact ⟨(isOk_iff_of_alike alike).1, fun h => .inl ((isOk_iff_of_alike alike).2 h)⟩
    · exact ⟨fun _ => row kind, fun _ => .inr square⟩

open Exact.SquareOnly in
/-- The row `x * x + y * x <= 4`, with the first product spelled as a square or not. -/
theorem quadratic_support_row :
    let domains : List (Domain Exact) := [.continuous .negInf .posInf, .continuous .negInf .posInf]
    let product : Expr Exact := .mul (.var ⟨1⟩) (.var ⟨0⟩)
    let square : Expr Exact := .pow (.var ⟨0⟩) (.const (.finite 2))
    let row (e : Expr Exact) : Constraint Exact :=
      .range (.ofExpr (.sum [e, product])) .negInf (.finite 4)
    Gurobi.acceptance.Supports domains (row square) ∧
      Gurobi.acceptance.Supports domains (row (.mul (.var ⟨0⟩) (.var ⟨0⟩))) := by
  intro domains product square row
  have two : (Expr.const (.finite 2) : Expr Exact).IsTwo := ⟨_, rfl, by decide +kernel⟩
  have residual : (row square).residual = [(1, square), (1, product)] := rfl
  have linear (v : Var) : (Split.ofExpr (.var v : Expr Exact)).isLinear = true := rfl
  have quadratic : (row square).IsQuadratic := by
    show ∀ t ∈ (row square).residual, t.2.IsQuadraticTerm
    rw [residual]
    exact List.forall_mem_cons.2 ⟨⟨linear _, two⟩,
      List.forall_mem_singleton.2 ⟨linear _, linear _⟩⟩
  have other : ¬(row square).StatesSquare := by
    rintro ⟨r, e, ⟨k, single, -⟩, -⟩
    cases residual.symm.trans single
  have respelled : (row square).Unsquares (row (.mul (.var ⟨0⟩) (.var ⟨0⟩))) :=
    .range (.expr _ (.under (.sum [] [product]) (.square two rfl))) _ _
  obtain ⟨supported, spelling⟩ := quadratic_support (t := Gurobi.acceptance) rfl rfl domains
  have first := (supported _ quadratic).2 (.inl other)
  exact ⟨first, (spelling _ _ respelled).1 first⟩

open Exact.SquareOnly in
/-- The definition of a square is not supported where powers are not, and spelled as a product it
is. A product of constants is read as a constant, so spelling the square of a constant as a product
can leave the square of a variable alone, and this costs the constraint its support. -/
theorem unsupported_square_of_variable :
    let domains : List (Domain Exact) := [.continuous .negInf .posInf, .continuous .negInf .posInf]
    let square : Constraint Exact := .defining ⟨0⟩ (.ofExpr (.pow (.var ⟨1⟩) (.const (.finite 2))))
    let product : Constraint Exact := .defining ⟨0⟩ (.ofExpr (.mul (.var ⟨1⟩) (.var ⟨1⟩)))
    let three : Expr Exact := .const (.finite 3)
    let shifted (nine : Expr Exact) : Constraint Exact := .eq (.ofExpr (.sum
      [.var ⟨0⟩, .neg (.pow (.var ⟨1⟩) (.const (.finite 2))), .neg nine])) (.finite (-9))
    (Gurobi.acceptance.constraint .linear = .recommended ∧
      Gurobi.acceptance.constraint .quadratic = .recommended) ∧
    (square.IsQuadratic ∧ ¬Gurobi.acceptance.Supports domains square ∧
      square.Unsquares product ∧ Gurobi.acceptance.Supports domains product) ∧
    (shifted (.pow three (.const (.finite 2)))).IsQuadratic ∧
    Gurobi.acceptance.Supports domains (shifted (.pow three (.const (.finite 2)))) ∧
    ¬Gurobi.acceptance.Supports domains (shifted (.mul three three)) := by
  intro domains square product three shifted
  have two : (Expr.const (.finite 2) : Expr Exact).IsTwo := ⟨_, rfl, by decide +kernel⟩
  have linear : (Split.ofExpr (.var ⟨1⟩ : Expr Exact)).isLinear = true := rfl
  have constant : (Split.ofExpr three).isLinear = true := rfl
  refine ⟨⟨rfl, rfl⟩, ⟨?_, ?_, .defining _ (.expr _ (.square two rfl)), ?_⟩, ?_, ?_, ?_⟩
  · show ∀ t ∈ square.residual, t.2.IsQuadraticTerm
    rw [show square.residual = [(1, .pow (.var ⟨1⟩) (.const (.finite 2)))] from rfl]
    exact List.forall_mem_singleton.2 ⟨linear, two⟩
  · unfold AcceptanceTable.Supports
    decide +kernel
  · unfold AcceptanceTable.Supports
    decide +kernel
  · show ∀ t ∈ (shifted (.pow three (.const (.finite 2)))).residual, t.2.IsQuadraticTerm
    rw [show (shifted (.pow three (.const (.finite 2)))).residual =
      [(-1, .pow (.var ⟨1⟩) (.const (.finite 2))), (-1, .pow three (.const (.finite 2)))] from rfl]
    exact List.forall_mem_cons.2 ⟨⟨linear, two⟩, List.forall_mem_singleton.2 ⟨constant, two⟩⟩
  · unfold AcceptanceTable.Supports
    decide +kernel
  · unfold AcceptanceTable.Supports
    decide +kernel

end SolverBridge
