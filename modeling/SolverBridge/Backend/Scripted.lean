import SolverBridge.Backend.LinearSolver
import SolverBridge.LpText

/-! Backends that follow a script. A script says what the backend answers and which
requests fail, with which chain of messages. The backend keeps a log of what it was
sent, and bookkeeping of its rows. There are two: a full one, which takes every kind of
element, has options of its own and can export, and a bare one, which only takes linear
elements. A failing request that posts or exports something is not logged; the requests
that change the phase of the backend are logged before they fail. -/

namespace SolverBridge

/-- What a scripted backend answers. -/
structure Script (α : Type) where
  name : String := "scripted"
  version : String := "1.0"
  /-- The failure of a request that is to fail. -/
  failure : Request α → Option Failure := fun _ => none
  nativeStatus : Int := 2
  feasible : Bool := true
  primal : List α := []
  objective : α
  dual : List α := []
  rowDuals : Option (List α) := none
  iterations : Nat := 0
  nodes : Nat := 0
  mipGap : Option α := none
  iisVariables : List IisStatus := []
  iisConstraints : List IisStatus := []
  rowIis : Option (List IisStatus) := none
  /-- The stop flag is raised while the backend solves. -/
  stopDuringSolve : Bool := false

/-- An entry of the log: a request, and the text of an export. -/
structure ScriptedCall (α : Type) where
  request : Request α
  exported : String := ""

structure ScriptedState (α : Type) where
  script : Script α
  base : BaseOptions := {}
  threads : Int64 := 0
  logFile : String := ""
  seed : Int64 := 0
  timeLimit : Option Float := none
  stopHandle : Option StopHandle := none
  log : List (ScriptedCall α) := []
  domains : List (Domain α) := []
  linearObjective : Option (LinearObjective α) := none
  objectives : Nat := 0
  rows : List (LinearRow α) := []
  rowMap : RowMap := {}

namespace Scripted

variable {α : Type} [Scalar α]

def logged (s : ScriptedState α) (r : Request α) (exported : String) : ScriptedState α :=
  { s with log := s.log ++ [⟨r, exported⟩] }

/-- Gives a value unless the request is to fail. -/
def answer {β : Type} (s : ScriptedState α) (r : Request α) (x : β) : Except Failure β :=
  match s.script.failure r with
  | some f => .error f
  | none => .ok x

/-- Logs a request and then fails if it is to fail. -/
def loggedFirst (s : ScriptedState α) (r : Request α) : Except Failure Unit × ScriptedState α :=
  (answer s r (), logged s r "")

/-- Fails if the request is to fail, and otherwise logs it and goes on. -/
def loggedLast (s : ScriptedState α) (r : Request α) (exported : String)
    (next : ScriptedState α → ScriptedState α) : Except Failure Unit × ScriptedState α :=
  match s.script.failure r with
  | some f => (.error f, s)
  | none => (.ok (), next (logged s r exported))

/-- An equation is one native row; otherwise each finite side is one. -/
def rowsOf (r : LinearRow α) : Nat :=
  if r.isEquality then 1
  else (if Scalar.isFinite r.lower then 1 else 0) + (if Scalar.isFinite r.upper then 1 else 0)

def addVariable (s : ScriptedState α) (d : Domain α) : Except Failure Unit × ScriptedState α :=
  loggedLast s (.addVariable d) "" fun s => { s with domains := s.domains ++ [d] }

def addObjective (s : ScriptedState α) (o : FlatObjective α) :
    Except Failure Unit × ScriptedState α :=
  loggedLast s (.postObjective o) "" fun s =>
    let first := match s.linearObjective, o with
      | none, .linear l => some l
      | kept, _ => kept
    { s with objectives := s.objectives + 1, linearObjective := first }

def addRow (s : ScriptedState α) (row : LinearRow α) : Except Failure Unit × ScriptedState α :=
  loggedLast s (.postConstraint (.linear row)) "" fun s =>
    { s with rows := s.rows ++ [row], rowMap := s.rowMap.pushRows (rowsOf row) }

def solve (w : ScriptedState α × StopFlags) :
    Except Failure Unit × (ScriptedState α × StopFlags) :=
  let (s, flags) := w
  let flags := match s.script.stopDuringSolve, s.stopHandle with
    | true, some h => flags.stop h
    | _, _ => flags
  let (a, s) := loggedFirst s .solve
  (a, (s, flags))

def isMixedInteger (s : ScriptedState α) : Bool := s.domains.any (·.integral)

/-- The part that both backends share. -/
def linear : LinearSolver (ScriptedState α) α where
  acquire s := loggedFirst s .acquire
  release s := logged s .release ""
  addVariable := addVariable
  addObjective s o := addObjective s (.linear o)
  addRow := addRow
  solve := solve
  nativeStatus s := answer s .nativeStatus s.script.nativeStatus
  hasFeasible s := s.script.feasible
  primal s := answer s .primal s.script.primal
  objectiveValue s := answer s .objectiveValue s.script.objective
  isMixedInteger := isMixedInteger
  objectiveCount s := s.objectives

/-- The requests that the full backend answers in its own way. -/
def performFull [Numeral α] : (r : Request α) → ScriptedState α × StopFlags →
    r.Answer × (ScriptedState α × StopFlags)
  | r, (s, flags) =>
    let keep {β : Type} (x : β × ScriptedState α) : β × (ScriptedState α × StopFlags) :=
      (x.1, (x.2, flags))
    match r with
    | .beginModification => keep (loggedFirst s .beginModification)
    | .endModification => keep (loggedFirst s .endModification)
    | .exportModel path =>
      keep (loggedLast s (.exportModel path) (LpText.write s.domains s.linearObjective s.rows) id)
    | .postObjective o => keep (addObjective s o)
    | .startConstraint i =>
      ((), ({ logged s (.startConstraint i) "" with rowMap := s.rowMap.start i }, flags))
    | .postConstraint (.linear row) => keep (addRow s row)
    | .postConstraint c => keep (loggedLast s (.postConstraint c) "" id)
    | .takeStopFlag h =>
      keep (loggedFirst { s with stopHandle := some h } (.takeStopFlag h))
    | .dual =>
      let values := match s.script.rowDuals with
        | some rows => s.rowMap.foldDuals rows
        | none => s.script.dual
      (answer s .dual values, (s, flags))
    | .iterations => (s.script.iterations, (s, flags))
    | .nodes => (s.script.nodes, (s, flags))
    | .findIis =>
      let constraints := match s.script.rowIis with
        | some rows => s.rowMap.foldIis rows
        | none => s.script.iisConstraints
      (answer s .findIis ⟨s.script.iisVariables, constraints⟩, (logged s .findIis "", flags))
    | .mipGap => (s.script.mipGap, (s, flags))
    | r => linear.perform (fun s => s.script.name) r (s, flags)

/-- What the result codes of both backends mean. -/
def statuses : StatusTable :=
  [⟨1, .unknown, "model loaded but not solved"⟩, ⟨2, .optimal, "optimal solution"⟩,
    ⟨3, .infeasible, "infeasible problem"⟩,
    ⟨4, .infeasibleOrUnbounded, "infeasible or unbounded problem"⟩,
    ⟨5, .unbounded, "unbounded problem"⟩, ⟨9, .feasibleUncertain, "time limit"⟩,
    ⟨11, .interrupted, "interrupted"⟩, ⟨12, .error, "error"⟩]

/-! ### Options -/

def setSeed (s : ScriptedState α) (x : Int64) : Except Failure (ScriptedState α) :=
  if x < 0 then .error ⟨"negative seed", []⟩ else .ok { s with seed := x }

def timeLimit (s : ScriptedState α) : Except Failure Float :=
  match s.timeLimit with
  | some x => .ok x
  | none => .error ⟨"parameter TimeLimit not set", []⟩

def setTimeLimit (s : ScriptedState α) (x : Float) : Except Failure (ScriptedState α) :=
  if 0 ≤ x then .ok { s with timeLimit := some x } else .error ⟨"negative time limit", []⟩

/-- The options of the full backend; optionally one more whose name is taken. -/
def options (withDuplicate : Bool) : List (SolverOption (ScriptedState α)) :=
  [.stored "threads" "Number of threads" .int (·.threads) fun s x => { s with threads := x },
    .stored "LogFile" "Log file name" .string (·.logFile) fun s x => { s with logFile := x },
    .checked "seed" "Random seed" .int (·.seed) setSeed] ++
  (if withDuplicate then
    [.stored "TIMING" "" .int (·.threads) fun s x => { s with threads := x }]
  else []) ++
  [.parameter "timelim" "Time limit in seconds" .double timeLimit setTimeLimit]

/-! ### Acceptance -/

/-- The acceptance tables that a scripted backend can have. -/
inductive Policy
  | linear
  | rich
  | all
  | prefer
  | noLinear
  /-- Linear, and an option of a name that is taken. -/
  | duplicate
  deriving DecidableEq, Repr

def Policy.table : Policy → AcceptanceTable
  | .linear | .duplicate => .linearOnly
  | .rich =>
    ⟨[(.linear, .recommended), (.quadratic, .recommended)],
      [(.linear, .recommended), (.function .max, .recommended), (.indicator, .accepted)]⟩
  | .all => .recommending Kind.all
  | .prefer =>
    let entries := Kind.all.map fun k => (k, if k = .linear then .recommended else .accepted)
    ⟨entries, entries⟩
  | .noLinear =>
    ⟨[(.quadratic, .accepted)],
      [(.quadratic, .recommended), (.function .conjunction, .accepted),
        (.indicator, .recommended)]⟩

/-- The backend that takes every kind of element. -/
def full [Numeral α] (policy : Policy) : Backend (ScriptedState α) α where
  acceptance := policy.table
  statuses := statuses
  solverName s := s.script.name
  solverVersion s := s.script.version
  baseOptions s := s.base
  setBaseOptions s o := { s with base := o }
  ownOptions := options (policy = .duplicate)
  perform := performFull

/-- The backend that only takes linear elements, whatever its table says. -/
def bare (policy : Policy) : Backend (ScriptedState α) α where
  acceptance := if policy = .all then policy.table else .linearOnly
  statuses := statuses
  solverName s := s.script.name
  baseOptions s := s.base
  setBaseOptions s o := { s with base := o }
  perform := linear.perform fun s => s.script.name

end Scripted

end SolverBridge
