import SolverBridge.Failure
import SolverBridge.Text.Lowercase

/-! Which solver to use. A program is built with some of the solvers. A solver is asked for
by a name, in any case; without a name the preferred one of those built in is taken. -/

namespace SolverBridge

/-- The known solvers. -/
inductive Solver
  | gurobi
  | cbc
  deriving DecidableEq, Repr

namespace Solver

def name : Solver → String
  | .gurobi => "Gurobi"
  | .cbc => "CoinCbc"

/-- The most preferred solver first. -/
def byPreference : List Solver := [.gurobi, .cbc]

/-- The solver that a name in lower case stands for. -/
def ofName? : String → Option Solver
  | "gurobi" => some .gurobi
  | "coin_cbc" | "coin-cbc" | "cbc" => some .cbc
  | _ => none

end Solver

/-- Why no solver is chosen. -/
inductive SelectionFault
  | notBuiltIn (s : Solver)
  | unknown (name : String)
  | noSolver
  deriving DecidableEq, Repr

namespace SelectionFault

/-- The variable of the environment that holds the name of a solver. -/
def variableName : String := "MPCONV_SOLVER"

def message : SelectionFault → String
  | .notBuiltIn .gurobi =>
    s!"Gurobi solver requested via {variableName} but gurobi feature not enabled"
  | .notBuiltIn .cbc =>
    s!"Coin CBC solver requested via {variableName} but coin_cbc feature not enabled"
  | .unknown name =>
    s!"Invalid solver '{name}' in {variableName}. Valid options: gurobi, coin_cbc"
  | .noSolver =>
    "No solver backend available. Please enable a solver feature (e.g., 'gurobi' or 'coin_cbc')"

def failure (f : SelectionFault) : Failure := ⟨f.message, []⟩

end SelectionFault

/-- Chooses among the solvers built in. -/
def Solver.choose (builtIn : List Solver) : Option String → Except SelectionFault Solver
  | some name =>
    match Solver.ofName? (Text.lowercase name) with
    | some s => if s ∈ builtIn then .ok s else .error (.notBuiltIn s)
    | none => .error (.unknown name)
  | none =>
    match Solver.byPreference.find? (· ∈ builtIn) with
    | some s => .ok s
    | none => .error .noSolver

end SolverBridge
