import SolverBridge.Model.Expr

/-! Problems. Each objective and each algebraic constraint is an affine part plus an
optional expression. A range keeps its value between two bounds, a definition
equates a variable with the value, and a logical constraint asks an expression to
be true. -/

namespace SolverBridge

/-- An affine part and an optional expression, added up. -/
structure Body (α : Type) where
  affine : Affine α
  expr : Option (Expr α)

namespace Body

variable {α : Type} [Scalar α]

def ofExpr (e : Expr α) : Body α := ⟨.empty, some e⟩

def ofAffine (a : Affine α) : Body α := ⟨a, none⟩

def evaluate (b : Body α) (p : Point α) : α :=
  b.affine.evaluate p + (b.expr.map (Expr.evaluate p)).getD 0

end Body

structure Objective (α : Type) where
  sense : Sense
  body : Body α

inductive Constraint (α : Type)
  /-- The body lies between two bounds. -/
  | range (body : Body α) (lower upper : α)
  /-- The variable equals the body. -/
  | defining (result : Var) (body : Body α)
  /-- The expression is true. -/
  | logical (e : Expr α)

section Meaning

variable {α : Type} [Scalar α]

def Objective.evaluate (o : Objective α) (p : Point α) : α := o.body.evaluate p

namespace Constraint

def eq (b : Body α) (rhs : α) : Constraint α := .range b rhs rhs

def le (b : Body α) (rhs : α) : Constraint α := .range b Scalar.negInf rhs

def ge (b : Body α) (rhs : α) : Constraint α := .range b rhs Scalar.posInf

/-- The constraint holds at a point up to a tolerance; a logical one holds or not. -/
def isSatisfied (p : Point α) (tolerance : α) : Constraint α → Bool
  | .range b lower upper => Scalar.within tolerance (b.evaluate p) lower upper
  | .defining r b => Scalar.close tolerance (r.value p) (b.evaluate p)
  | .logical e => Scalar.isTrue (e.evaluate p)

end Constraint

end Meaning

structure Problem (α : Type) where
  domains : List (Domain α) := []
  objectives : List (Objective α) := []
  constraints : List (Constraint α) := []

namespace Problem

variable {α : Type}

/-- A variable is added behind the present ones. -/
def addVariable (m : Problem α) (d : Domain α) : Var × Problem α :=
  (⟨m.domains.length⟩, { m with domains := m.domains ++ [d] })

def addObjective (m : Problem α) (o : Objective α) : Nat × Problem α :=
  (m.objectives.length, { m with objectives := m.objectives ++ [o] })

def addConstraint (m : Problem α) (c : Constraint α) : Nat × Problem α :=
  (m.constraints.length, { m with constraints := m.constraints ++ [c] })

def domain? (m : Problem α) (v : Var) : Option (Domain α) := m.domains[v.index]?

/-- Some variable is integral. -/
def isMixedInteger (m : Problem α) : Bool := m.domains.any (·.integral)

theorem domain?_addVariable (m : Problem α) (d : Domain α) :
    (m.addVariable d).2.domain? (m.addVariable d).1 = some d := by
  simp [addVariable, domain?]

end Problem

end SolverBridge
