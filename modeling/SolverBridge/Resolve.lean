import SolverBridge.Acceptance
import SolverBridge.Flat.Objective
import SolverBridge.Reformulation

/-! Resolution of an element against an acceptance table. A recommended constraint
stays. One that is merely accepted is replaced by its pieces when they all end up on
recommended kinds, and otherwise stays. One that is not accepted must be replaced, and
every piece must be resolved in turn; a failure names the kind of the constraint itself.
The recursion follows the reformulations, so it is no deeper than the longest path from
the constraint's kind; that number bounds it. Objectives are never replaced. -/

namespace SolverBridge

variable {α : Type} [Scalar α]

section Resolution

variable (table : AcceptanceTable) (domains : List (Domain α))

/-- A constraint is recommended, or replaced by pieces that end up recommended within `n`
reformulations. -/
def endsRecommended : Nat → FlatConstraint α → Bool
  | n, c =>
    table.constraint c.kind = .recommended ||
      match n with
      | 0 => false
      | n + 1 => (c.reformulate? domains).any fun pieces => pieces.all (endsRecommended n)

/-- Resolves a constraint with at most `n` reformulations following one another. -/
def resolveWithin : Nat → FlatConstraint α → Except Unsupported (List (FlatConstraint α))
  | n, c =>
    match table.constraint c.kind, n, c.reformulate? domains with
    | .recommended, _, _ => .ok [c]
    | .accepted, n + 1, some pieces =>
      if pieces.all (endsRecommended table domains n) then
        (pieces.mapM (resolveWithin n)).map List.flatten
      else .ok [c]
    | .accepted, _, _ => .ok [c]
    | .notAccepted, n + 1, some pieces =>
      match pieces.mapM (resolveWithin n) with
      | .ok resolved => .ok resolved.flatten
      | .error _ => .error ⟨c.kind⟩
    | .notAccepted, _, _ => .error ⟨c.kind⟩

/-- The constraints to be posted in place of one. -/
def resolveConstraint (c : FlatConstraint α) : Except Unsupported (List (FlatConstraint α)) :=
  resolveWithin table domains c.kind.reformulationDepth c

end Resolution

def resolveObjective (table : AcceptanceTable) (o : FlatObjective α) :
    Except Unsupported (FlatObjective α) :=
  if (table.objective o.kind).isAccepted then .ok o else .error ⟨o.kind⟩

end SolverBridge
