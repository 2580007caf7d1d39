import SolverBridge.Flat.Kind

/-! Acceptance of kinds. A backend lists, separately for objectives and for
constraints, how it takes each kind: as it is, only where no reformulation into
recommended kinds exists, or not at all. A kind without an entry is not accepted, and
of two entries for one kind the first counts. -/

namespace SolverBridge

inductive Acceptance
  | notAccepted
  /-- Taken, but a reformulation is preferred. -/
  | accepted
  | recommended
  deriving DecidableEq, Repr

namespace Acceptance

def isAccepted (a : Acceptance) : Bool := a ≠ .notAccepted

def name : Acceptance → String
  | .notAccepted => "not accepted"
  | .accepted => "accepted but not recommended"
  | .recommended => "recommended"

/-- The acceptance of a given name. -/
def ofName? (s : String) : Option Acceptance :=
  [notAccepted, accepted, recommended].find? (·.name = s)

end Acceptance

structure AcceptanceTable where
  objectives : List (Kind × Acceptance)
  constraints : List (Kind × Acceptance)

namespace AcceptanceTable

/-- The first entry of a kind. -/
def entryOf (entries : List (Kind × Acceptance)) (k : Kind) : Acceptance :=
  (entries.lookup k).getD .notAccepted

def objective (t : AcceptanceTable) (k : Kind) : Acceptance := entryOf t.objectives k

def constraint (t : AcceptanceTable) (k : Kind) : Acceptance := entryOf t.constraints k

/-- The same kinds, recommended on both sides. -/
def recommending (kinds : List Kind) : AcceptanceTable :=
  let entries := kinds.map fun k => (k, .recommended)
  ⟨entries, entries⟩

/-- Linear objectives and constraints and nothing else. -/
def linearOnly : AcceptanceTable := recommending [.linear]

theorem entryOf_cons (k : Kind) (a : Acceptance) (rest : List (Kind × Acceptance)) (l : Kind) :
    entryOf ((k, a) :: rest) l = if l = k then a else entryOf rest l := by
  unfold entryOf
  rw [List.lookup_cons]
  by_cases h : l = k
  · simp [h]
  · simp [h, beq_eq_false_iff_ne.2 h]

end AcceptanceTable

/-- An element of this kind can be posted neither directly nor after reformulation. -/
structure Unsupported where
  kind : Kind
  deriving DecidableEq, Repr

def Unsupported.message (u : Unsupported) : String :=
  u.kind.name ++ " is not accepted and cannot be reformulated into an accepted kind"

end SolverBridge
