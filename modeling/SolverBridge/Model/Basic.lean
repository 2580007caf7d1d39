import SolverBridge.Scalar

/-! Variables, points and affine expressions. A variable is a position in the list
of a problem's variables; what may stand there is its `Domain`. A point assigns a
number to each position in order, and a position past its end has no value, which
is the undefined number. -/

namespace SolverBridge

/-- A variable, by its position. -/
structure Var where
  index : Nat
  deriving DecidableEq, Repr

namespace Var

def name (v : Var) : String := s!"x{v.index}"

def le (v w : Var) : Bool := v.index ≤ w.index

end Var

/-- The values a variable may take: an interval, or the integers in it. -/
structure Domain (α : Type) where
  integral : Bool
  lower : α
  upper : α

namespace Domain

variable {α : Type} [Scalar α]

def continuous (lower upper : α) : Domain α := ⟨false, lower, upper⟩

def integer (lower upper : α) : Domain α := ⟨true, lower, upper⟩

def binary : Domain α := integer 0 1

/-- Integers within zero and one. -/
def isBinary (d : Domain α) : Bool := d.integral && Scalar.le 0 d.lower && Scalar.le d.upper 1

end Domain

/-- A value for each variable, in order. -/
abbrev Point (α : Type) := List α

section Values

variable {α : Type} [Scalar α]

/-- The value of a variable at a point; undefined past the point's end. -/
def Var.value (p : Point α) (v : Var) : α := p[v.index]?.getD Scalar.nan

/-- The weighted sum of the variables' values. -/
def linearValue (p : Point α) (terms : List (α × Var)) : α :=
  Scalar.sum (terms.map fun t => t.1 * t.2.value p)

end Values

/-- A list of terms and a constant, as read; a variable may occur several times. -/
structure Affine (α : Type) where
  terms : List (α × Var)
  constant : α

namespace Affine

variable {α : Type} [Scalar α]

def empty : Affine α := ⟨[], 0⟩

def ofVar (v : Var) : Affine α := ⟨[(1, v)], 0⟩

def isEmpty (a : Affine α) : Bool := a.terms.isEmpty && a.constant == 0

def evaluate (a : Affine α) (p : Point α) : α := linearValue p a.terms + a.constant

end Affine

/-- The direction of an objective. -/
inductive Sense
  | minimize
  | maximize
  deriving DecidableEq, Repr

end SolverBridge
