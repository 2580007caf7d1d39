import SolverBridge.Flat.Constraint
import SolverBridge.Flat.Objective
import SolverBridge.Proofs.FormValue

/-! Where an element of a problem has a meaning. An expression is defined at a point when it
and everything below it has a value there: no variable is missing, nothing is divided by
zero, no function is applied outside its domain. The numbers written in an element are
rational, except for bounds, which may be infinite. -/

namespace SolverBridge

/-! ### Parts of an expression -/

namespace Expr

variable {α : Type}

/-- The operands of the outermost operation. -/
def children : Expr α → List (Expr α)
  | .const _ | .var _ => []
  | .neg a | .unary _ a | .logBase _ a | .not a => [a]
  | .mul a b | .div a b | .pow a b | .compare _ a b | .implies a b => [a, b]
  | .sum es | .max es | .min es | .and es | .or es | .call _ es => es

mutual

/-- The expression and everything below it. -/
def parts (e : Expr α) : List (Expr α) :=
  e :: match e with
  | .const _ | .var _ => []
  | .neg a | .unary _ a | .logBase _ a | .not a => parts a
  | .mul a b | .div a b | .pow a b | .compare _ a b | .implies a b => parts a ++ parts b
  | .sum es | .max es | .min es | .and es | .or es | .call _ es => partsEach es
termination_by structural e

def partsEach (es : List (Expr α)) : List (Expr α) :=
  match es with
  | [] => []
  | e :: rest => parts e ++ partsEach rest
termination_by structural es

end

theorem partsEach_eq_flatMap (es : List (Expr α)) : partsEach es = es.flatMap parts := by
  induction es with
  | nil => rfl
  | cons e es ih => simp [partsEach, ih]

theorem parts_eq (e : Expr α) : e.parts = e :: e.children.flatMap parts := by
  cases e <;> simp [parts, children, partsEach_eq_flatMap]

/-- The number that an expression is written with, if any. -/
def number? : Expr α → Option α
  | .const c | .logBase c _ => some c
  | _ => none

def leafVar? : Expr α → Option Var
  | .var v => some v
  | _ => none

/-- All numbers in an expression. -/
def numbers (e : Expr α) : List α := e.parts.filterMap number?

theorem numbers_sum (es : List (Expr α)) : (sum es).numbers = es.flatMap numbers := by
  rw [numbers, parts_eq]
  exact List.filterMap_flatMap

/-- All variables in an expression. -/
def vars (e : Expr α) : List Var := e.parts.filterMap leafVar?

/-- All numbers in the expression are rational. -/
def IsRational (e : Expr Exact) : Prop := ∀ a ∈ e.numbers, a.IsRational

instance : DecidablePred IsRational := fun e =>
  inferInstanceAs (Decidable (∀ a ∈ e.numbers, a.IsRational))

/-- Every part of the expression has a value at the point. -/
def DefinedAt [Transcendental] (p : Point Exact) (e : Expr Exact) : Prop :=
  ∀ s ∈ e.parts, (s.evaluate p).IsDefined

theorem parts_subset {a e : Expr α} (h : a ∈ e.children) : a.parts ⊆ e.parts := by
  rw [parts_eq e]
  exact fun s hs => List.mem_cons_of_mem _ (List.mem_flatMap.2 ⟨a, h, hs⟩)

theorem mem_parts (e : Expr α) : e ∈ e.parts := by
  rw [parts_eq]
  exact List.mem_cons_self

theorem IsRational.child {a e : Expr Exact} (h : e.IsRational) (ha : a ∈ e.children) :
    a.IsRational := by
  intro x hx
  obtain ⟨s, hs, e⟩ := List.mem_filterMap.1 hx
  exact h x (List.mem_filterMap.2 ⟨s, parts_subset ha hs, e⟩)

theorem IsRational.number {e : Expr Exact} (h : e.IsRational) {x : Exact}
    (hx : e.number? = some x) : x.IsRational :=
  h x (List.mem_filterMap.2 ⟨e, e.mem_parts, hx⟩)

section

variable [Transcendental] {p : Point Exact}

theorem DefinedAt.child {a e : Expr Exact} (h : e.DefinedAt p) (ha : a ∈ e.children) :
    a.DefinedAt p := fun s hs => h s (parts_subset ha hs)

theorem DefinedAt.value {e : Expr Exact} (h : e.DefinedAt p) : (e.evaluate p).IsDefined :=
  h e e.mem_parts

end

end Expr

/-! ### Points -/

/-- Every variable has a rational value, or none. -/
def Point.IsRational (p : Point Exact) : Prop := ∀ x ∈ p, Exact.IsRational x

/-- The point has a value for each of the variables. -/
def Point.Covers {α : Type} (p : Point α) (vs : List Var) : Prop := ∀ v ∈ vs, v.index < p.length

section

variable [Transcendental] {p : Point Exact}

theorem Point.IsRational.value (hp : p.IsRational) {v : Var} (h : v.index < p.length) :
    (v.value p).IsRational := by
  rw [Var.value, List.getElem?_eq_getElem h]
  exact hp _ (List.getElem_mem h)

/-- A variable without a value is undefined. -/
theorem Point.IsRational.value_of_isDefined (hp : p.IsRational) {v : Var}
    (h : (v.value p).IsDefined) : (v.value p).IsRational := by
  by_cases hv : v.index < p.length
  · exact hp.value hv
  · rw [Var.value, List.getElem?_eq_none (Nat.le_of_not_lt hv)] at h
    exact absurd rfl h

end

/-! ### Elements -/

namespace Body

/-- All variables in the body. -/
def vars {α : Type} (b : Body α) : List Var :=
  b.affine.terms.map (·.2) ++ (b.expr.map Expr.vars).getD []

/-- All numbers in the body are rational. -/
structure IsRational (b : Body Exact) : Prop where
  terms : TermsRational b.affine.terms
  constant : b.affine.constant.IsRational
  expr : ∀ e ∈ b.expr, e.IsRational

/-- The affine part and the expression have values at the point. -/
structure DefinedAt [Transcendental] (p : Point Exact) (b : Body Exact) : Prop where
  terms : ∀ t ∈ b.affine.terms, (t.2.value p).IsDefined
  expr : ∀ e ∈ b.expr, e.DefinedAt p

/-- A body whose parts have values has a value. -/
theorem DefinedAt.value [Transcendental] {p : Point Exact} (hp : p.IsRational) {b : Body Exact}
    (hr : b.IsRational) (hd : b.DefinedAt p) : (b.evaluate p).IsDefined := by
  have terms : TermsDefined p b.affine.terms := fun t ht => hp.value_of_isDefined (hd.terms t ht)
  have affine : (b.affine.evaluate p).IsRational :=
    (isRational_linearValue hr.terms terms).add hr.constant
  refine affine.add_isDefined ?_
  cases e : b.expr with
  | none => exact Exact.IsRational.zero.isDefined
  | some e' => exact (hd.expr e' e).value

end Body

/-- All variables in the objective. -/
def Objective.vars {α : Type} (o : Objective α) : List Var := o.body.vars

namespace Constraint

/-- All variables in the constraint. -/
def vars {α : Type} : Constraint α → List Var
  | .range b _ _ => b.vars
  | .defining r b => r :: b.vars
  | .logical e => e.vars

/-- All numbers in the constraint but for the bounds of a range are rational. -/
def IsRational : Constraint Exact → Prop
  | .range b _ _ | .defining _ b => b.IsRational
  | .logical e => e.IsRational

/-- Every part of the constraint has a value at the point. -/
def DefinedAt [Transcendental] (p : Point Exact) : Constraint Exact → Prop
  | .range b _ _ => b.DefinedAt p
  | .defining r b => (r.value p).IsDefined ∧ b.DefinedAt p
  | .logical e => e.DefinedAt p

end Constraint

namespace FlatConstraint

/-- All variables in the constraint. -/
def vars {α : Type} : FlatConstraint α → List Var
  | .linear r => r.form.vars
  | .quadratic r q => r.form.vars ++ q.terms.flatMap fun t => [t.first, t.second]
  | .linearDefining r f _ => r :: f.vars
  | .function _ g => g.result :: g.args
  | .indicator i => i.trigger :: i.form.vars
  | .general c => c.vars

/-- All numbers in the constraint but for the bounds of a row are rational. -/
def IsRational : FlatConstraint Exact → Prop
  | .linear r => TermsRational r.form.terms
  | .quadratic r q => TermsRational r.form.terms ∧ ∀ t ∈ q.terms, t.coefficient.IsRational
  | .linearDefining _ f c => TermsRational f.terms ∧ c.IsRational
  | .function _ g => ∀ a ∈ g.params, a.IsRational
  | .indicator i => TermsRational i.form.terms ∧ i.rhs.IsRational
  | .general c => c.IsRational

end FlatConstraint

/-- All variables in the objective. -/
def FlatObjective.vars {α : Type} : FlatObjective α → List Var
  | .linear o => o.form.vars
  | .quadratic o q => o.form.vars ++ q.terms.flatMap fun t => [t.first, t.second]
  | .general o => o.vars

end SolverBridge
