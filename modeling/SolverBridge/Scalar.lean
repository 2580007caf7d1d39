/-! The numbers of the bridge. Every definition that computes with coefficients,
bounds and points is written over a `Scalar`, a type with the arithmetic and the
comparisons of a solver's number format: infinities serve as missing bounds, an
undefined result is `nan`, and a comparison with `nan` is false. Binary floating
point runs the bridge; an exact instance over extended rationals is
`SolverBridge.Scalar.Exact`. The comparison `==` is the numeric one, so it
identifies the two zeros and separates `nan` from itself. -/

namespace SolverBridge

/-- Arithmetic with infinities and an undefined value. -/
class Scalar (α : Type) extends
    Zero α, One α, Neg α, Add α, Sub α, Mul α, Div α, BEq α where
  ofInt : Int → α
  posInf : α
  negInf : α
  nan : α
  /-- The value of a sum without terms; adding it on the left changes nothing. -/
  emptySum : α
  lt : α → α → Bool
  le : α → α → Bool
  abs : α → α
  /-- The nearest integer; a half goes away from zero. -/
  round : α → α
  exp : α → α
  log : α → α
  sin : α → α
  cos : α → α
  tan : α → α
  pow : α → α → α

namespace Scalar

variable {α : Type} [Scalar α]

/-- The larger operand; an undefined one is passed over, and the left one wins a tie. -/
def max (a b : α) : α := if a == a then (if lt a b then b else a) else b

/-- The smaller operand; an undefined one is passed over, and the left one wins a tie. -/
def min (a b : α) : α := if a == a then (if lt b a then b else a) else b

def isFinite (a : α) : Bool := lt negInf a && lt a posInf

/-- Terms are added from left to right. -/
def sum (xs : List α) : α := xs.foldl (· + ·) emptySum

/-- The number one for truth and zero for falsity. -/
def truth (b : Bool) : α := if b then 1 else 0

/-- Truth of a number: anything but zero. -/
def isTrue (a : α) : Bool := a != 0

def maximum (xs : List α) : α := xs.foldl max negInf

def minimum (xs : List α) : α := xs.foldl min posInf

/-- Both bounds hold once each is relaxed by the tolerance. -/
def within (tolerance value lower upper : α) : Bool :=
  le (lower - tolerance) value && le value (upper + tolerance)

/-- The distance is at most the tolerance. -/
def close (tolerance a b : α) : Bool := le (abs (a - b)) tolerance

@[simp] theorem sum_nil : sum ([] : List α) = emptySum := rfl

theorem sum_concat (xs : List α) (x : α) : sum (xs ++ [x]) = sum xs + x := by
  simp [sum]

@[simp] theorem maximum_nil : maximum ([] : List α) = negInf := rfl

@[simp] theorem minimum_nil : minimum ([] : List α) = posInf := rfl

end Scalar

instance : Scalar Float where
  zero := 0
  one := 1
  ofInt := Float.ofInt
  posInf := 1 / 0
  negInf := -1 / 0
  nan := 0 / 0
  emptySum := -0
  lt a b := a < b
  le a b := a ≤ b
  abs := Float.abs
  round := Float.round
  exp := Float.exp
  log := Float.log
  sin := Float.sin
  cos := Float.cos
  tan := Float.tan
  pow := Float.pow

end SolverBridge
