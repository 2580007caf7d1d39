import SolverBridge.Scalar

/-! Exact numbers: the rationals, two infinities and an undefined value. Arithmetic on
rationals is exact, an infinity absorbs what cannot move it, and what has no limit is
undefined: a difference of equal infinities, zero times an infinity, a quotient by zero.
Nothing is assumed of the transcendental functions but that a second power is a square. -/

namespace SolverBridge

inductive Exact
  | finite (q : Rat)
  | posInf
  | negInf
  | nan
  deriving DecidableEq, Repr

/-- Functions on exact numbers that are only known by name. -/
class Transcendental where
  exp : Exact → Exact
  log : Exact → Exact
  sin : Exact → Exact
  cos : Exact → Exact
  tan : Exact → Exact
  pow : Exact → Exact → Exact

namespace Exact

/-- The number is not the undefined value. -/
def IsDefined (a : Exact) : Prop := a ≠ .nan

def neg : Exact → Exact
  | .finite a => .finite (-a)
  | .posInf => .negInf
  | .negInf => .posInf
  | .nan => .nan

def add : Exact → Exact → Exact
  | .finite a, .finite b => .finite (a + b)
  | .nan, _ | _, .nan => .nan
  | .posInf, .negInf | .negInf, .posInf => .nan
  | .posInf, _ | _, .posInf => .posInf
  | .negInf, _ | _, .negInf => .negInf

/-- An infinity times a rational: a negative one turns it, and zero leaves nothing defined. -/
def scaleInf (inf : Exact) (q : Rat) : Exact :=
  if 0 < q then inf else if q < 0 then inf.neg else .nan

def mul : Exact → Exact → Exact
  | .finite a, .finite b => .finite (a * b)
  | .nan, _ | _, .nan => .nan
  | .posInf, .posInf | .negInf, .negInf => .posInf
  | .posInf, .negInf | .negInf, .posInf => .negInf
  | .finite a, inf => inf.scaleInf a
  | inf, .finite b => inf.scaleInf b

def div : Exact → Exact → Exact
  | .finite a, .finite b => if b = 0 then .nan else .finite (a / b)
  | .finite _, .posInf | .finite _, .negInf => .finite 0
  | .posInf, .finite b => scaleInf .posInf b
  | .negInf, .finite b => scaleInf .negInf b
  | _, _ => .nan

/-- Equal and defined. -/
def eq (a b : Exact) : Bool := decide (a = b ∧ a ≠ .nan)

def lt : Exact → Exact → Bool
  | .finite a, .finite b => decide (a < b)
  | .negInf, .finite _ | .negInf, .posInf | .finite _, .posInf => true
  | _, _ => false

/-- Smaller, or equal and defined. -/
def le (a b : Exact) : Bool := a.lt b || a.eq b

def abs : Exact → Exact
  | .finite a => .finite (if a < 0 then -a else a)
  | .negInf => .posInf
  | a => a

/-- The nearest integer; a half goes away from zero. -/
def round : Exact → Exact
  | .finite a => .finite (if a < 0 then -((-a + 1 / 2).floor : Rat) else ((a + 1 / 2).floor : Rat))
  | a => a

instance [Transcendental] : Scalar Exact where
  zero := .finite 0
  one := .finite 1
  neg := neg
  add := add
  sub a b := a.add b.neg
  mul := mul
  div := div
  beq := eq
  ofInt i := .finite i
  posInf := .posInf
  negInf := .negInf
  nan := .nan
  emptySum := .finite 0
  lt := lt
  le := le
  abs := abs
  round := round
  exp := Transcendental.exp
  log := Transcendental.log
  sin := Transcendental.sin
  cos := Transcendental.cos
  tan := Transcendental.tan
  pow := Transcendental.pow

/-- A second power is a square. -/
class SquareLaw extends Transcendental where
  pow_two (a : Exact) : pow a (.finite 2) = mul a a

theorem neg_neg (a : Exact) : a.neg.neg = a := by
  cases a <;> simp [neg]

theorem add_comm (a b : Exact) : a.add b = b.add a := by
  cases a <;> cases b <;> simp [add, Rat.add_comm]

theorem mul_comm (a b : Exact) : a.mul b = b.mul a := by
  cases a <;> cases b <;> simp [mul, Rat.mul_comm]

theorem zero_add (a : Exact) : (finite 0).add a = a := by
  cases a <;> simp only [add, Rat.zero_add]

theorem eq_iff {a b : Exact} : a.eq b = true ↔ a = b ∧ a.IsDefined := by
  simp [eq, IsDefined]

theorem le_refl {a : Exact} (h : a.IsDefined) : a.le a = true := by
  simp [le, eq_iff, h]

end Exact

end SolverBridge
