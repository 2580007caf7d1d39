import SolverBridge.Flat.Kind
import SolverBridge.Flat.LinearForm
import SolverBridge.Flat.QuadForm
import SolverBridge.Model.Problem

/-! Classified constraints, each with the payload that a backend needs to post it, and
what it means for a point to satisfy one. An indicator compares its trigger after
rounding. A functional constraint compares its result with the function's value, so a
conjunction or disjunction has the value one or zero. -/

namespace SolverBridge

/-- The row `lower <= form <= upper`. -/
structure LinearRow (α : Type) where
  form : LinearForm α
  lower : α
  upper : α

/-- The graph `result = f args`, where some functions carry a constant: the base of an exponential
or a logarithm, the exponent of a power. -/
structure FuncGraph (α : Type) where
  result : Var
  args : List Var
  params : List α

/-- If the trigger has the value, then `form <= rhs`. -/
structure Indicator (α : Type) where
  trigger : Var
  value : Int
  form : LinearForm α
  rhs : α

inductive FlatConstraint (α : Type)
  | linear (row : LinearRow α)
  /-- The row bounds the sum of its form and the quadratic form. -/
  | quadratic (row : LinearRow α) (quad : QuadForm α)
  /-- The definition `result = form + constant`. -/
  | linearDefining (result : Var) (form : LinearForm α) (constant : α)
  | function (f : Func) (graph : FuncGraph α)
  | indicator (i : Indicator α)
  | general (source : Constraint α)

namespace FlatConstraint

variable {α : Type}

def kind : FlatConstraint α → Kind
  | .linear _ => .linear
  | .quadratic _ _ => .quadratic
  | .linearDefining _ _ _ => .linearDefining
  | .function f _ => .function f
  | .indicator _ => .indicator
  | .general _ => .general

/-- A graph under a functional kind. -/
def ofGraph? (k : Kind) (g : FuncGraph α) : Option (FlatConstraint α) :=
  match k with
  | .function f => some (.function f g)
  | _ => none

def graph? : FlatConstraint α → Option (FuncGraph α)
  | .function _ g => some g
  | _ => none

theorem ofGraph?_kind {k : Kind} {g : FuncGraph α} {c : FlatConstraint α}
    (h : ofGraph? k g = some c) : c.kind = k ∧ c.graph? = some g := by
  cases k <;> simp only [ofGraph?, Option.some.injEq, reduceCtorEq] at h
  subst h
  exact ⟨rfl, rfl⟩

theorem ofGraph?_isSome (k : Kind) (g : FuncGraph α) :
    (ofGraph? k g).isSome = k.isFunctional := by
  cases k <;> rfl

end FlatConstraint

variable {α : Type} [Scalar α]

namespace LinearRow

def equal (form : LinearForm α) (rhs : α) : LinearRow α := ⟨form, rhs, rhs⟩

def atMost (form : LinearForm α) (rhs : α) : LinearRow α := ⟨form, Scalar.negInf, rhs⟩

def atLeast (form : LinearForm α) (rhs : α) : LinearRow α := ⟨form, rhs, Scalar.posInf⟩

def isEquality (r : LinearRow α) : Bool := r.lower == r.upper

end LinearRow

namespace FuncGraph

/-- The constant that goes with the function; undefined when there is none. -/
def param (g : FuncGraph α) : α := g.params.head?.getD Scalar.nan

end FuncGraph

/-- The value of a function of its arguments and its constant. A function of one argument
reads the first. -/
def Func.value (f : Func) (args : List α) (param : α) : α :=
  let first := args.head?.getD Scalar.nan
  match f with
  | .max => Scalar.maximum args
  | .min => Scalar.minimum args
  | .abs => Scalar.abs first
  | .conjunction => Scalar.truth (args.all Scalar.isTrue)
  | .disjunction => Scalar.truth (args.any Scalar.isTrue)
  | .exp => Scalar.exp first
  | .expBase => Scalar.pow param first
  | .log => Scalar.log first
  | .logBase => Scalar.log first / Scalar.log param
  | .pow => Scalar.pow first param
  | .sin => Scalar.sin first
  | .cos => Scalar.cos first
  | .tan => Scalar.tan first

namespace FuncGraph

def value (g : FuncGraph α) (f : Func) (p : Point α) : α :=
  f.value (g.args.map (Var.value p)) g.param

end FuncGraph

namespace Indicator

def isTriggered (i : Indicator α) (p : Point α) : Bool :=
  Scalar.round (i.trigger.value p) == Scalar.ofInt i.value

end Indicator

namespace FlatConstraint

def isSatisfied (p : Point α) (tolerance : α) : FlatConstraint α → Bool
  | .linear r => Scalar.within tolerance (r.form.evaluate p) r.lower r.upper
  | .quadratic r q =>
    Scalar.within tolerance (r.form.evaluate p + q.evaluate p) r.lower r.upper
  | .linearDefining r f c => Scalar.close tolerance (r.value p) (f.evaluate p + c)
  | .function f g => Scalar.close tolerance (g.result.value p) (g.value f p)
  | .indicator i => !i.isTriggered p || Scalar.le (i.form.evaluate p) (i.rhs + tolerance)
  | .general c => c.isSatisfied p tolerance

end FlatConstraint

end SolverBridge
