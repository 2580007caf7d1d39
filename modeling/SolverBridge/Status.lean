/-! Solve statuses. A status has a number in a band of a hundred: solved, feasible but
uncertain, infeasible, unbounded, limit reached, failed, interrupted. What a solver's own
result codes mean is told by a table. -/

namespace SolverBridge

inductive SolveStatus
  | optimal
  | feasibleUncertain
  | infeasible
  | unbounded
  | infeasibleOrUnbounded
  | interrupted
  | error
  | unknown
  deriving DecidableEq, Repr

namespace SolveStatus

def code : SolveStatus → Int
  | .optimal => 0
  | .feasibleUncertain => 100
  | .infeasible => 200
  | .infeasibleOrUnbounded => 201
  | .unbounded => 300
  | .error => 500
  | .unknown => 501
  | .interrupted => 600

/-- The status that a number stands for, by its band. A limit is an uncertain solution, and a
number outside all bands is unknown. -/
def ofCode (c : Int) : SolveStatus :=
  if 0 ≤ c ∧ c < 100 then .optimal
  else if (100 ≤ c ∧ c < 200) ∨ (400 ≤ c ∧ c < 500) then .feasibleUncertain
  else if c = 201 then .infeasibleOrUnbounded
  else if 200 ≤ c ∧ c < 300 then .infeasible
  else if 300 ≤ c ∧ c < 400 then .unbounded
  else if c = 500 then .error
  else if 600 ≤ c ∧ c < 700 then .interrupted
  else .unknown

theorem ofCode_code (s : SolveStatus) : ofCode s.code = s := by
  cases s <;> decide

/-- A solution comes with the status: its number is below the infeasible band. -/
def hasSolution (s : SolveStatus) : Bool := s.code < 200

def isOptimal (s : SolveStatus) : Bool := s = .optimal

def name : SolveStatus → String
  | .optimal => "optimal"
  | .feasibleUncertain => "feasible"
  | .infeasible => "infeasible"
  | .unbounded => "unbounded"
  | .infeasibleOrUnbounded => "infeasible or unbounded"
  | .interrupted => "interrupted"
  | .error => "error"
  | .unknown => "unknown"

def all : List SolveStatus :=
  [.optimal, .feasibleUncertain, .infeasible, .unbounded, .infeasibleOrUnbounded, .interrupted,
    .error, .unknown]

def ofName? (s : String) : Option SolveStatus := all.find? (·.name = s)

end SolveStatus

/-- What a solver's result code means. -/
structure StatusEntry where
  native : Int
  status : SolveStatus
  message : String

/-- The outcome of a solve. -/
structure Verdict where
  status : SolveStatus
  message : String
  deriving DecidableEq, Repr

abbrev StatusTable := List StatusEntry

namespace StatusTable

/-- The meaning of a result code. An interruption counts more than the code. An entry that promises
a feasible solution is unknown when there is none, and so is a code without an entry. -/
def interpret (t : StatusTable) (native : Int) (interrupted hasFeasible : Bool) : Verdict :=
  if interrupted then ⟨.interrupted, "interrupted"⟩
  else
    match t.find? (·.native = native) with
    | some e =>
      if e.status = .feasibleUncertain ∧ hasFeasible = false then
        ⟨.unknown, e.message ++ ", no feasible solution"⟩
      else ⟨e.status, e.message⟩
    | none => ⟨.unknown, s!"unknown solution status (native code {native})"⟩

end StatusTable

end SolverBridge
