import SolverBridge.Scalar

/-! Which constraint owns which native row. One constraint may become several native rows or
none; rows pushed after a constraint was started belong to it, and a row pushed before any
was started stands for a constraint of its own. Results per row are folded back onto
the constraints. -/

namespace SolverBridge

/-- Where an element stands with respect to an irreducible infeasible subsystem. -/
inductive IisStatus
  | notMember
  | atLower
  | fixed
  | atUpper
  | member
  | possibleMember
  | possiblyAtLower
  | possiblyAtUpper
  deriving DecidableEq, Repr

namespace IisStatus

def all : List IisStatus :=
  [.notMember, .atLower, .fixed, .atUpper, .member, .possibleMember, .possiblyAtLower,
    .possiblyAtUpper]

/-- The number of a status is its place in the list. -/
def code (s : IisStatus) : Nat := all.idxOf s

def ofCode? (n : Nat) : Option IisStatus := all[n]?

theorem ofCode?_code (s : IisStatus) : ofCode? s.code = some s := by
  cases s <;> decide

end IisStatus

structure RowMap where
  current : Option Nat := none
  constraints : Nat := 0
  owners : List Nat := []
  deriving DecidableEq, Repr

namespace RowMap

/-- Rows pushed from now on belong to constraint `i`. -/
def start (m : RowMap) (i : Nat) : RowMap :=
  { m with current := some i, constraints := Nat.max m.constraints (i + 1) }

/-- Records a row; its number is the number of rows before it. -/
def push (m : RowMap) : Nat × RowMap :=
  match m.current with
  | some i => (m.owners.length, { m with owners := m.owners ++ [i] })
  | none =>
    (m.owners.length,
      { m with constraints := m.constraints + 1, owners := m.owners ++ [m.constraints] })

def pushRows (m : RowMap) : Nat → RowMap
  | 0 => m
  | n + 1 => pushRows m.push.2 n

def size (m : RowMap) : Nat := m.owners.length

def owner? (m : RowMap) (row : Nat) : Option Nat := m.owners[row]?

/-- The values of the rows that a constraint owns, in order. -/
def valuesOf {β : Type} (m : RowMap) (rows : List β) (i : Nat) : List β :=
  ((m.owners.zip rows).filter (·.1 = i)).map (·.2)

/-- One entry for each constraint, made of the values of its rows. -/
def fold {β γ : Type} (m : RowMap) (rows : List β) (f : List β → γ) : List γ :=
  (List.range m.constraints).map fun i => f (m.valuesOf rows i)

/-- The sum of the duals of a constraint's rows; zero without rows. -/
def foldDuals {α : Type} [Scalar α] (m : RowMap) (rows : List α) : List α :=
  m.fold rows fun xs => xs.foldl (· + ·) 0

/-- A constraint is a member when one of its rows is anything but no member. -/
def foldIis (m : RowMap) (rows : List IisStatus) : List IisStatus :=
  m.fold rows fun xs => if xs.any (· ≠ .notMember) then .member else .notMember

@[simp] theorem length_fold {β γ : Type} (m : RowMap) (rows : List β) (f : List β → γ) :
    (m.fold rows f).length = m.constraints := by
  simp [fold]

/-- Every owner is below the number of constraints. -/
def OwnersBounded (m : RowMap) : Prop := ∀ i ∈ m.owners, i < m.constraints

/-- The constraint in progress is counted. -/
def CurrentBounded (m : RowMap) : Prop := ∀ i ∈ m.current, i < m.constraints

end RowMap

end SolverBridge
