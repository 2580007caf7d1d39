import SolverBridge.Session.Modify
import SolverBridge.Session.Solve

/-! The operations of a session, and its whole run: acquire, load, finish, solve, report. A
failed solve is still reported before its error is given. However a run ends, the session
is closed after it. -/

namespace SolverBridge

namespace Session

variable {σ α : Type} [Scalar α] [Numeral α]

/-- Closes a session that is not closed. -/
def close (b : Backend σ α) : SessionAction σ α Unit := do
  expectNotClosed b "close"
  release b

/-- The steps of a run, up to the first error. -/
def drive (b : Backend σ α) (m : Problem α) : SessionAction σ α (SolveReport α) := do
  acquire b
  load b m
  finish b
  try solve b
  catch e =>
    if (← getSession).stage = .solved then
      let _ ← report b
    throw e
  report b

/-- Closes the session unless it is closed. -/
def settle (b : Backend σ α) : SessionAction σ α Unit := do
  let s ← getSession
  unless s.stage = .closed do release b

/-- Runs a problem and closes the session, however the run ends. -/
def run (b : Backend σ α) (m : Problem α) : SessionAction σ α (SolveReport α) := do
  try
    let r ← drive b m
    settle b
    return r
  catch e =>
    settle b
    throw e

/-- The session and the flags after the session is given up. -/
def drop (b : Backend σ α) (w : Session σ α × StopFlags) : Session σ α × StopFlags :=
  ((settle b).run w).2

/-- A whole solve: a new session, an option string and a run. Gives what the sink received
beside the outcome. -/
def solveProblem (b : Backend σ α) (solver : σ) (config : SessionConfig) (options : String)
    (m : Problem α) (flags : StopFlags) : Except SessionError (SolveReport α) × Collected α :=
  match create b solver config with
  | .error e => (.error e, {})
  | .ok s =>
    let action : SessionAction σ α (SolveReport α) := do
      let _ ← applyOptions b options
      run b m
    let (outcome, w) := action.run (s, flags)
    (outcome, (drop b w).1.sink)

end Session

/-- What can be asked of a session. -/
inductive Operation (α : Type)
  | acquire
  | addVariable (d : Domain α)
  | addObjective (i : Nat) (o : Objective α)
  | addConstraint (i : Nat) (c : Constraint α)
  | load (m : Problem α)
  | finish
  | solve
  | report
  | close
  | run (m : Problem α)
  | getOption (t : OptionType) (name : String)
  | setOption (name : String) (v : OptionValue)
  | applyOptions (text : String)

/-- What an operation gives. -/
inductive Reply (α : Type)
  | done
  | variable (v : Var)
  | count (n : Nat)
  | value (v : OptionValue)
  | report (r : SolveReport α)

variable {σ α : Type} [Scalar α] [Numeral α]

/-- Carries out an operation. -/
def Operation.perform (b : Backend σ α) : Operation α → SessionAction σ α (Reply α)
  | .acquire => do Session.acquire b; return .done
  | .addVariable d => return .variable (← Session.addVariable b d)
  | .addObjective i o => do Session.addObjective b i o; return .done
  | .addConstraint i c => do Session.addConstraint b i c; return .done
  | .load m => do Session.load b m; return .done
  | .finish => do Session.finish b; return .done
  | .solve => do Session.solve b; return .done
  | .report => return .report (← Session.report b)
  | .close => do Session.close b; return .done
  | .run m => return .report (← Session.run b m)
  | .getOption t name => return .value (← Session.getOption b t name)
  | .setOption name v => do Session.setOption b name v; return .done
  | .applyOptions text => return .count (← Session.applyOptions b text)

end SolverBridge
