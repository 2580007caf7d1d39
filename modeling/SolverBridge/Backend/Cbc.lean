import SolverBridge.Backend.LinearSolver
import SolverBridge.FileTree
import SolverBridge.LpText
import SolverBridge.Text.Quoted

/-! The CBC backend, a linear solver. The columns, the objective and the rows are kept until
the solve and handed over then; the native solver is a parameter, and nothing is assumed of
it. Before it is called three things can happen: a raised stop flag ends the solve with an
empty result, a console that somebody else holds cannot be silenced, and a row or the
objective can name a column that is not there. Only the second is a failure that the solver
reports; on a column that is not there the solve breaks off. Parameters of the native solver
are kept as texts and read back from them; acquiring and releasing the backend does not touch
them. -/

namespace SolverBridge

/-- What a solve came to. -/
structure CbcResult (α : Type) where
  code : Int
  primal : List α
  objective : α
  feasible : Bool

/-- What the backend meets on the machine it runs on. -/
structure CbcHost where
  /-- Somebody else redirects the console, so it cannot be silenced. -/
  consoleHeld : Bool := false
  files : FileTree := .standard

structure CbcState (α : Type) where
  base : BaseOptions := {}
  roundDigits : Int64 := 8
  /-- The parameters set, by their native names. -/
  parameters : List (String × String) := []
  columns : List (Domain α) := []
  objective : Option (LinearObjective α) := none
  rows : List (LinearRow α) := []
  stopHandle : Option StopHandle := none
  result : Option (CbcResult α) := none
  host : CbcHost := {}

/-- Why the native solver was not called. -/
inductive CbcFault
  | consoleHeld
  /-- A row or the objective names a column that is not there. -/
  | missingColumn (v : Var)
  deriving DecidableEq, Repr

/-- What a fault is reported as. A column that is not there is reported of a row that is added. -/
def CbcFault.failure : CbcFault → Failure
  | .consoleHeld => ⟨"Redirect already exists.", []⟩
  | .missingColumn v => ⟨s!"Variable {v.name} not found in model", []⟩

/-- How a solve over so many columns ends on a fault. A console that is held is a failure like
any other. A column that is missing is none: the columns are indexed without a check, so the
program breaks off, with a text that no failure has and without an answer. -/
def CbcFault.ofSolve (columns : Nat) : CbcFault → Failure
  | .consoleHeld => CbcFault.consoleHeld.failure
  | .missingColumn v =>
    ⟨s!"index out of bounds: the len is {columns} but the index is {v.index}", []⟩

namespace Cbc

/-! ### Result codes -/

/-- The code of a solve that was stopped before it began. -/
def stoppedCode : Int := 7

def statuses : StatusTable :=
  [⟨0, .optimal, "optimal solution"⟩, ⟨1, .infeasible, "infeasible problem"⟩,
    ⟨2, .unbounded, "unbounded problem"⟩, ⟨3, .feasibleUncertain, "time limit"⟩,
    ⟨4, .feasibleUncertain, "node limit"⟩, ⟨5, .feasibleUncertain, "solution limit"⟩,
    ⟨6, .error, "solve abandoned"⟩, ⟨stoppedCode, .interrupted, "interrupted"⟩]

variable {α : Type}

/-! ### Parameters -/

def parameter (s : CbcState α) (key : String) (t : OptionType) : Except Failure t.Carrier :=
  match s.parameters.lookup key with
  | none => .error ⟨s!"CBC parameter {key} uses the solver default", []⟩
  | some text =>
    match OptionValue.ofText? t text with
    | some x => .ok x
    | none => .error ⟨s!"CBC parameter {key} holds " ++ Text.quoted text, []⟩

def setParameter (s : CbcState α) (key : String) (t : OptionType) (x : t.Carrier) :
    Except Failure (CbcState α) :=
  let others := s.parameters.filter (·.1 ≠ key)
  .ok { s with parameters := others ++ [(key, (OptionValue.ofCarrier t x).text)] }

def access : ParameterAccess (CbcState α) := ⟨parameter, setParameter⟩

def options : List (SolverOption (CbcState α)) :=
  [.ofParameter access "timelim" "Limit on solve time in seconds" .double "sec",
    .ofParameter access "threads" "Number of threads (0: single threaded)" .int "threads",
    .ofParameter access "outlev" "CBC log level; 0 silences the solver" .int "log",
    .ofParameter access "maxnodes" "Limit on branch and bound nodes" .int "maxN",
    .ofParameter access "mipgap" "Relative MIP gap tolerance" .double "ratio",
    .ofParameter access "cuts" "Global cut generation switch: off, on, root, ifmove or forceOn"
      .string "cuts",
    .stored "round_digits" "Significant digits kept in reported values (0: no rounding)" .int
      (·.roundDigits) fun s x => { s with roundDigits := x }]

/-- The solver is silent at level zero, which is also the level when none is set. -/
def logLevel (s : CbcState α) : Int64 :=
  ((s.parameters.lookup "log").bind (OptionValue.ofText? .int)).getD (0 : Int64)

/-! ### The problem -/

/-- Without a problem and its result. Options, the stop flag and the host stay. -/
def cleared (s : CbcState α) : CbcState α :=
  { s with columns := [], objective := none, rows := [], result := none }

def isColumn (s : CbcState α) (v : Var) : Bool := v.index < s.columns.length

def addColumn (s : CbcState α) (d : Domain α) : Except Failure Unit × CbcState α :=
  (.ok (), { s with columns := s.columns ++ [d] })

def addObjective (s : CbcState α) (o : LinearObjective α) : Except Failure Unit × CbcState α :=
  if s.objective.isSome then (.error ⟨"CBC supports a single objective", []⟩, s)
  else (.ok (), { s with objective := some o })

def addRow (s : CbcState α) (row : LinearRow α) : Except Failure Unit × CbcState α :=
  match row.form.vars.find? fun v => !isColumn s v with
  | some v => (.error (CbcFault.missingColumn v).failure, s)
  | none => (.ok (), { s with rows := s.rows ++ [row] })

/-- Writes the problem to a file. -/
def exportModel [Scalar α] [Numeral α] (s : CbcState α) (path : String) :
    Except Failure Unit × CbcState α :=
  match s.host.files.write path (LpText.write s.columns s.objective s.rows) with
  | .ok files => (.ok (), { s with host := { s.host with files := files } })
  | .error e => (.error ⟨s!"writing {path}", [e.message]⟩, s)

/-! ### Solving -/

def isStopped (s : CbcState α) (flags : StopFlags) : Bool := s.stopHandle.any flags.isStopped

/-- The result of a solve that was stopped before it began. -/
def stoppedResult [Scalar α] : CbcResult α := ⟨stoppedCode, [], 0, false⟩

/-- The first column of the rows, and then of the objective, that is not there. -/
def missingColumn? (s : CbcState α) : Option Var :=
  let ofObjective := (s.objective.map (·.form.vars)).getD []
  (s.rows.flatMap (·.form.vars) ++ ofObjective).find? fun v => !isColumn s v

/-- Solves. Only a stopped solve and a native one leave a result. -/
def solve [Scalar α] (native : CbcState α → CbcResult α) (s : CbcState α) (flags : StopFlags) :
    Except CbcFault Unit × CbcState α :=
  if isStopped s flags then (.ok (), { s with result := some stoppedResult })
  else if logLevel s = 0 ∧ s.host.consoleHeld then (.error .consoleHeld, s)
  else
    match missingColumn? s with
    | some v => (.error (.missingColumn v), s)
    | none => (.ok (), { s with result := some (native s) })

/-- The result of the last solve. -/
def result (s : CbcState α) : Except Failure (CbcResult α) :=
  match s.result with
  | some r => .ok r
  | none => .error ⟨"CBC has not solved the model yet", []⟩

/-- How CBC does what every linear solver does. Every request of a backend has to be answered,
even a solve that breaks off. Its answer only says so: it is no failure of the native solver,
and what a session makes of it does not happen, since the program has ended. The solve above
tells the two apart. -/
def linear [Scalar α] [Numeral α] (native : CbcState α → CbcResult α) :
    LinearSolver (CbcState α) α where
  acquire s := (.ok (), cleared s)
  release := cleared
  exportModel := some exportModel
  addVariable := addColumn
  addObjective := addObjective
  addRow := addRow
  takeStopFlag s h := (.ok (), { s with stopHandle := some h })
  solve w :=
    let (a, s) := solve native w.1 w.2
    (a.mapError (CbcFault.ofSolve s.columns.length), (s, w.2))
  nativeStatus s := (result s).map (·.code)
  hasFeasible s := s.result.any (·.feasible)
  primal s := (result s).map (·.primal)
  objectiveValue s := (result s).map (·.objective)
  isMixedInteger s := s.columns.any (·.integral)
  objectiveCount s := if s.objective.isSome then 1 else 0

/-- The backend over a native solver. -/
def backend [Scalar α] [Numeral α] (native : CbcState α → CbcResult α) :
    Backend (CbcState α) α where
  acceptance := .linearOnly
  statuses := statuses
  solverName _ := "CBC"
  baseOptions s := s.base
  setBaseOptions s o := { s with base := o }
  ownOptions := options
  perform := (linear native).perform fun _ => "CBC"

end Cbc

end SolverBridge
