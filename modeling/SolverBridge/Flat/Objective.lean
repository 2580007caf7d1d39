import SolverBridge.Flat.Kind
import SolverBridge.Flat.LinearForm
import SolverBridge.Flat.QuadForm
import SolverBridge.Model.Problem

/-! Classified objectives: a linear form with a constant, the same with a quadratic
form, or the objective as it was given. -/

namespace SolverBridge

structure LinearObjective (α : Type) where
  sense : Sense
  form : LinearForm α
  constant : α

inductive FlatObjective (α : Type)
  | linear (o : LinearObjective α)
  | quadratic (o : LinearObjective α) (quad : QuadForm α)
  | general (source : Objective α)

namespace FlatObjective

variable {α : Type}

def kind : FlatObjective α → Kind
  | .linear _ => .linear
  | .quadratic _ _ => .quadratic
  | .general _ => .general

def sense : FlatObjective α → Sense
  | .linear o => o.sense
  | .quadratic o _ => o.sense
  | .general s => s.sense

end FlatObjective

variable {α : Type} [Scalar α]

def LinearObjective.evaluate (o : LinearObjective α) (p : Point α) : α :=
  o.form.evaluate p + o.constant

def FlatObjective.evaluate (p : Point α) : FlatObjective α → α
  | .linear o => o.evaluate p
  | .quadratic o q => o.evaluate p + q.evaluate p
  | .general s => s.evaluate p

end SolverBridge
