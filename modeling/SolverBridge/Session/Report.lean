import SolverBridge.Decimal.Text
import SolverBridge.Sink
import SolverBridge.Status

/-! The report on a solve: a line with the solver's name and the outcome, a line of
statistics, and on demand the durations of the phases. Durations are counted in
nanoseconds and written in seconds with six places. -/

namespace SolverBridge

/-- The outcome of a report. -/
structure SolveReport (α : Type) where
  status : SolveStatus
  solveCode : Int
  message : String
  objective : Option α
  primal : Option (List α)
  dual : Option (List α)

/-- The report as a sink receives it. -/
def SolveReport.outcome {α : Type} (r : SolveReport α) : Outcome α :=
  ⟨r.solveCode, r.message, r.primal, r.dual, r.objective⟩

/-- Durations of the phases of a solve. -/
structure SolveTimes where
  setup : Nat := 0
  solution : Nat := 0
  output : Nat := 0
  deriving DecidableEq, Repr

namespace Report

def summaryLine (name message : String) : String := name ++ ": " ++ message ++ "\n"

def statisticsLine {α : Type} [Numeral α] (iterations : Nat) (nodes : Option Nat)
    (objective : Option α) : String :=
  toString iterations ++ " iterations" ++
    (nodes.map fun n => ", " ++ toString n ++ " nodes").getD "" ++
    (objective.map fun x => ", objective " ++ Numeral.text x).getD "" ++ "\n"

/-- Nanoseconds as seconds with six places; a half goes to the even neighbour. -/
def secondsText (nanoseconds : Nat) : String :=
  let q := nanoseconds / 1000
  let r := nanoseconds % 1000
  let micros := if 500 < r ∨ (r = 500 ∧ q % 2 = 1) then q + 1 else q
  let places := Nat.toDigits 10 (micros % 1000000)
  toString (micros / 1000000) ++ "." ++
    String.ofList (List.replicate (6 - places.length) '0' ++ places)

def timingBlock (t : SolveTimes) : String :=
  "Setup time = " ++ secondsText t.setup ++ "s\n" ++
    "Solution time = " ++ secondsText t.solution ++ "s\n" ++
    "Output time = " ++ secondsText t.output ++ "s\n"

end Report

end SolverBridge
