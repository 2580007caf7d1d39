import SolverBridge.Flat.LinearForm
import SolverBridge.Model.Problem

/-! Splitting a body into a linear form, a constant and the terms that are neither.
The expression is read from left to right under a scale. Negations, sums, products
with a constant factor and quotients by a constant other than zero are seen through,
and a scale of zero hides everything below it. What is reached is a list of pieces
in reading order; the three parts of the split are the pieces of each sort, each in
that order. -/

namespace SolverBridge

/-- What reading an expression yields. -/
inductive Piece (α : Type)
  | term (coefficient : α) (v : Var)
  | constant (value : α)
  /-- A scaled expression that is not seen through. -/
  | residual (scale : α) (e : Expr α)

namespace Piece

variable {α : Type}

def term? : Piece α → Option (α × Var)
  | .term c v => some (c, v)
  | _ => none

def constant? : Piece α → Option α
  | .constant c => some c
  | _ => none

def residual? : Piece α → Option (α × Expr α)
  | .residual s e => some (s, e)
  | _ => none

end Piece

namespace Expr

variable {α : Type} [Scalar α]

mutual

/-- The pieces of an expression under a scale. -/
def pieces (scale : α) (e : Expr α) : List (Piece α) :=
  if scale == 0 then []
  else
    match e with
    | .const c => [.constant (scale * c)]
    | .var v => [.term scale v]
    | .neg a => pieces (-scale) a
    | .sum items => piecesEach scale items
    | .mul a b =>
      match a.asConstant?, b.asConstant? with
      | some k, _ => pieces (scale * k) b
      | none, some k => pieces (scale * k) a
      | none, none => [.residual scale (.mul a b)]
    | .div a b =>
      match b.asConstant? with
      | some k => if k != 0 then pieces (scale / k) a else [.residual scale (.div a b)]
      | none => [.residual scale (.div a b)]
    | e => [.residual scale e]
termination_by structural e

/-- The pieces of a list of expressions, one after the other. -/
def piecesEach (scale : α) (es : List (Expr α)) : List (Piece α) :=
  match es with
  | [] => []
  | e :: rest => pieces scale e ++ piecesEach scale rest
termination_by structural es

end

theorem piecesEach_eq_flatMap (scale : α) (es : List (Expr α)) :
    piecesEach scale es = es.flatMap (pieces scale) := by
  induction es with
  | nil => rfl
  | cons e es ih => simp [piecesEach, ih]

end Expr

/-- A linear form, a constant and scaled expressions. -/
structure Split (α : Type) where
  form : LinearForm α
  constant : α
  residual : List (α × Expr α)

namespace Split

variable {α : Type} [Scalar α]

def ofPieces (pieces : List (Piece α)) : Split α where
  form := .ofTerms (pieces.filterMap Piece.term?)
  constant := (pieces.filterMap Piece.constant?).foldl (· + ·) 0
  residual := pieces.filterMap Piece.residual?

/-- The pieces of an affine part: its terms but for zero coefficients, then its constant. -/
def affinePieces (a : Affine α) : List (Piece α) :=
  (a.terms.filter (·.1 != 0)).map (fun t => .term t.1 t.2) ++ [.constant a.constant]

def ofBody (b : Body α) : Split α :=
  ofPieces (affinePieces b.affine ++ (b.expr.map (Expr.pieces 1)).getD [])

def ofExpr (e : Expr α) : Split α := ofBody (.ofExpr e)

def isLinear (s : Split α) : Bool := s.residual.isEmpty

/-- A scaled expression; a scale of one is left out. -/
def residualTerm (t : α × Expr α) : Expr α := if t.1 == 1 then t.2 else .mul (.const t.1) t.2

/-- The residual terms as one expression, if there are any. -/
def residualExpr? (s : Split α) : Option (Expr α) :=
  match s.residual.map residualTerm with
  | [] => none
  | [e] => some e
  | es => some (.sum es)

/-- The linear part and then the residual, put together again. -/
def toExpr (s : Split α) : Expr α :=
  let linear := s.form.toExpr s.constant
  match s.residualExpr? with
  | none => linear
  | some e => .sum [linear, e]

theorem canonical_form (b : Body α) : (ofBody b).form.Canonical :=
  LinearForm.canonical_ofTerms _

end Split

end SolverBridge
