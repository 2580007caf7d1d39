import SolverBridge.Acceptance
import SolverBridge.Failure
import SolverBridge.Options.Error

/-! What can go wrong in a session. Every error names the backend. -/

namespace SolverBridge

/-- How far a session has come. -/
inductive Stage
  | created
  | modificationOpen
  | modificationClosed
  | solved
  | reported
  | closed
  deriving DecidableEq, Repr

def Stage.name : Stage → String
  | .created => "Created"
  | .modificationOpen => "ModificationOpen"
  | .modificationClosed => "ModificationClosed"
  | .solved => "Solved"
  | .reported => "Reported"
  | .closed => "Closed"

/-- An element of a problem, by its position. -/
inductive Element
  | objective (i : Nat)
  | constraint (i : Nat)
  deriving DecidableEq, Repr

def Element.name : Element → String
  | .objective i => s!"objective #{i}"
  | .constraint i => s!"constraint #{i}"

/-- The cause of a session's error. -/
inductive SessionFault
  | unsupported (element : Element) (kind : Kind)
  /-- The operation does not fit the stage. -/
  | lifecycle (operation : String) (stage : Stage)
  /-- An earlier step of the modification failed. -/
  | aborted (operation : String)
  /-- The backend failed. -/
  | native (operation message : String)
  | option (error : OptionError)
  deriving DecidableEq, Repr

structure SessionError where
  backend : String
  fault : SessionFault
  deriving DecidableEq, Repr

namespace SessionError

def message (e : SessionError) : String :=
  e.backend ++ ": " ++ match e.fault with
  | .unsupported element kind => s!"{element.name} of kind {kind.name} is not supported"
  | .lifecycle operation stage => s!"cannot {operation} in state {stage.name}"
  | .aborted operation => s!"cannot {operation}, the modification phase was aborted"
  | .native operation message => s!"{operation} failed: {message}"
  | .option error => error.message

/-- The error as a failure. An error about an option has the option's error behind it. -/
def failure (e : SessionError) : Failure :=
  ⟨e.message, match e.fault with
    | .option error => [error.message]
    | _ => []⟩

/-- A stable name for the cause. -/
def code (e : SessionError) : String :=
  match e.fault with
  | .unsupported _ _ => "UNSUPPORTED_CONSTRUCT"
  | .lifecycle _ _ => "LIFECYCLE_VIOLATION"
  | .aborted _ => "MODIFICATION_ABORTED"
  | .native _ _ => "NATIVE_FAILURE"
  | .option error => error.code

end SessionError

end SolverBridge
