import SolverBridge.Model.Basic

/-! Expression trees over the variables of a problem. A truth value is the number
one or zero, and every number but zero counts as true. A call names a function
that is not known here, so its value is undefined. -/

namespace SolverBridge

/-- Functions of one argument. -/
inductive Unary
  | abs
  | exp
  | log
  | sin
  | cos
  | tan
  deriving DecidableEq, Repr

def Unary.apply {α : Type} [Scalar α] : Unary → α → α
  | .abs => Scalar.abs
  | .exp => Scalar.exp
  | .log => Scalar.log
  | .sin => Scalar.sin
  | .cos => Scalar.cos
  | .tan => Scalar.tan

inductive Relation
  | le
  | ge
  | eq
  deriving DecidableEq, Repr

def Relation.holds {α : Type} [Scalar α] : Relation → α → α → Bool
  | .le, a, b => Scalar.le a b
  | .ge, a, b => Scalar.le b a
  | .eq, a, b => a == b

inductive Expr (α : Type)
  | const (value : α)
  | var (v : Var)
  | neg (e : Expr α)
  | sum (items : List (Expr α))
  | mul (lhs rhs : Expr α)
  | div (lhs rhs : Expr α)
  | pow (base exponent : Expr α)
  | unary (f : Unary) (arg : Expr α)
  | logBase (base : α) (arg : Expr α)
  | max (items : List (Expr α))
  | min (items : List (Expr α))
  | and (items : List (Expr α))
  | or (items : List (Expr α))
  | not (e : Expr α)
  | compare (r : Relation) (lhs rhs : Expr α)
  | implies (condition consequence : Expr α)
  | call (function : String) (args : List (Expr α))

namespace Expr

variable {α : Type}

section Recognition

variable [Neg α]

/-- The value of a constant, seen through negations. -/
def asConstant? : Expr α → Option α
  | .const c => some c
  | .neg e => e.asConstant?.map (- ·)
  | _ => none

def asVar? : Expr α → Option Var
  | .var v => some v
  | _ => none

end Recognition

section Evaluation

open Scalar

variable [Scalar α]

mutual

/-- The value of an expression at a point. -/
def evaluate (p : Point α) : Expr α → α
  | .const c => c
  | .var v => v.value p
  | .neg e => -evaluate p e
  | .sum items => Scalar.sum (evaluateEach p items)
  | .mul a b => evaluate p a * evaluate p b
  | .div a b => evaluate p a / evaluate p b
  | .pow a b => Scalar.pow (evaluate p a) (evaluate p b)
  | .unary f e => f.apply (evaluate p e)
  | .logBase base e => Scalar.log (evaluate p e) / Scalar.log base
  | .max items => maximum (evaluateEach p items)
  | .min items => minimum (evaluateEach p items)
  | .and items => truth ((evaluateEach p items).all isTrue)
  | .or items => truth ((evaluateEach p items).any isTrue)
  | .not e => truth (evaluate p e == 0)
  | .compare r a b => truth (r.holds (evaluate p a) (evaluate p b))
  | .implies a b => truth (evaluate p a == 0 || isTrue (evaluate p b))
  | .call _ _ => nan

/-- The values of a list of expressions. -/
def evaluateEach (p : Point α) : List (Expr α) → List α
  | [] => []
  | e :: es => evaluate p e :: evaluateEach p es

end

theorem evaluateEach_eq_map (p : Point α) (es : List (Expr α)) :
    evaluateEach p es = es.map (evaluate p) := by
  induction es with
  | nil => rfl
  | cons e es ih => simp [evaluateEach, ih]

end Evaluation

/-- Induction over expressions, where the items of a list all satisfy the hypothesis. -/
@[elab_as_elim]
theorem induction {motive : Expr α → Prop}
    (const : ∀ c, motive (.const c))
    (var : ∀ v, motive (.var v))
    (neg : ∀ e, motive e → motive (.neg e))
    (sum : ∀ es, (∀ e ∈ es, motive e) → motive (.sum es))
    (mul : ∀ a b, motive a → motive b → motive (.mul a b))
    (div : ∀ a b, motive a → motive b → motive (.div a b))
    (pow : ∀ a b, motive a → motive b → motive (.pow a b))
    (unary : ∀ f e, motive e → motive (.unary f e))
    (logBase : ∀ c e, motive e → motive (.logBase c e))
    (max : ∀ es, (∀ e ∈ es, motive e) → motive (.max es))
    (min : ∀ es, (∀ e ∈ es, motive e) → motive (.min es))
    (and : ∀ es, (∀ e ∈ es, motive e) → motive (.and es))
    (or : ∀ es, (∀ e ∈ es, motive e) → motive (.or es))
    (not : ∀ e, motive e → motive (.not e))
    (compare : ∀ r a b, motive a → motive b → motive (.compare r a b))
    (implies : ∀ a b, motive a → motive b → motive (.implies a b))
    (call : ∀ f es, (∀ e ∈ es, motive e) → motive (.call f es))
    (e : Expr α) : motive e :=
  Expr.rec (motive_1 := motive) (motive_2 := fun es => ∀ e ∈ es, motive e)
    const var neg sum mul div pow unary logBase max min and or not compare implies call
    (by simp) (fun e es he hes x hx => by
      rcases List.mem_cons.1 hx with rfl | h
      · exact he
      · exact hes x h) e

end Expr

end SolverBridge
