import SolverBridge.Acceptance
import SolverBridge.Options.Registry
import SolverBridge.Status

/-! What Gurobi declares: the kinds that it accepts, the meaning of its result codes and the
options that it offers for its own parameters. -/

namespace SolverBridge.Gurobi

/-- Linear and quadratic elements on both sides. -/
def acceptance : AcceptanceTable := .recommending [.linear, .quadratic]

def statuses : StatusTable :=
  [⟨1, .unknown, "model loaded but not solved"⟩, ⟨2, .optimal, "optimal solution"⟩,
    ⟨3, .infeasible, "infeasible problem"⟩,
    ⟨4, .infeasibleOrUnbounded, "infeasible or unbounded problem"⟩,
    ⟨5, .unbounded, "unbounded problem"⟩, ⟨6, .feasibleUncertain, "objective cutoff"⟩,
    ⟨7, .feasibleUncertain, "iteration limit"⟩, ⟨8, .feasibleUncertain, "node limit"⟩,
    ⟨9, .feasibleUncertain, "time limit"⟩, ⟨10, .feasibleUncertain, "solution limit"⟩,
    ⟨11, .interrupted, "interrupted"⟩, ⟨12, .error, "error"⟩,
    ⟨13, .feasibleUncertain, "suboptimal solution"⟩]

/-- The options, given how the solver's parameters are read and written. -/
def options {σ : Type} (a : ParameterAccess σ) : List (SolverOption σ) :=
  [.ofParameter a "logfile" "Log file name" .string "LogFile",
    .ofParameter a "optimalitytolerance" "Dual feasibility tolerance" .double "OptimalityTol",
    .ofParameter a "outlev" "1: output logging (console and file), 0: no logging" .int "OutputFlag",
    .ofParameter a "threads"
      ("How many threads to use when using the barrier algorithm or solving MIP problems; " ++
        "0: automatic") .int "Threads",
    .ofParameter a "timelim" "Limit on solve time in seconds" .double "TimeLimit",
    .ofParameter a "mipgap" "Relative MIP optimality gap" .double "MIPGap"]

end SolverBridge.Gurobi
