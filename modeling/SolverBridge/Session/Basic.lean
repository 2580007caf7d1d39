import SolverBridge.Backend.Basic
import SolverBridge.Options.Assignment
import SolverBridge.Session.Error
import SolverBridge.Session.Event
import SolverBridge.Session.Report

/-! Sessions. A session owns a backend's state and walks it through the stages created,
modification open, modification closed, solved, reported and closed. It keeps what it
needs to check the order of operations and to report: whether native resources are held,
whether the modification was aborted, whether the stop flag was handed over, the domains
of the variables added, the elements skipped and the message of a failed solve. What it
delivers to the sink and to the log is kept in order. Time is what a clock shows at each
reading. -/

namespace SolverBridge

structure SessionConfig where
  /-- Skip unsupported elements instead of failing. -/
  permissive : Bool := false
  stopHandle : StopHandle := StopFlags.shared
  /-- What the clock shows at each reading, in nanoseconds. -/
  clock : Nat → Nat := fun _ => 0

structure Session (σ α : Type) where
  solver : σ
  registry : OptionRegistry σ
  config : SessionConfig
  stage : Stage := .created
  acquired : Bool := false
  aborted : Bool := false
  flagTaken : Bool := false
  domains : List (Domain α) := []
  skipped : List (Element × Kind) := []
  solveFailure : Option String := none
  acquiredAt : Option Nat := none
  solvedAt : Option Nat := none
  times : SolveTimes := {}
  readings : Nat := 0
  deliveries : List (Delivery α) := []
  events : List Event := []

/-- A computation on a session and the stop flags. When it fails, what it did before stays
done. -/
abbrev SessionAction (σ α : Type) := ExceptT SessionError (StateM (Session σ α × StopFlags))

namespace Session

variable {σ α : Type}

/-- The collected deliveries. -/
def sink (s : Session σ α) : Collected α := .ofDeliveries s.deliveries

/-- The durations, once the session was solved. -/
def solveTimes? (s : Session σ α) : Option SolveTimes := s.solvedAt.map fun _ => s.times

def getSession : SessionAction σ α (Session σ α) := do return (← get).1

def modifySession (f : Session σ α → Session σ α) : SessionAction σ α Unit :=
  modify fun w => (f w.1, w.2)

/-- Sends a request to the backend. -/
def request (b : Backend σ α) (r : Request α) : SessionAction σ α r.Answer := do
  let (s, flags) ← get
  let (answer, (solver, flags)) := b.perform r (s.solver, flags)
  set ({ s with solver := solver }, flags)
  return answer

def emit (e : Event) : SessionAction σ α Unit :=
  modifySession fun s => { s with events := s.events ++ [e] }

def log (level : EventLevel) (operation : String) (fields : List (String × EventField))
    (message : String) : SessionAction σ α Unit :=
  emit ⟨level, operation, fields, some message⟩

/-- An event without a message. -/
def trace (operation : String) (fields : List (String × EventField)) : SessionAction σ α Unit :=
  emit ⟨.trace, operation, fields, none⟩

def deliver (d : Delivery α) : SessionAction σ α Unit :=
  modifySession fun s => { s with deliveries := s.deliveries ++ [d] }

/-- Reads the clock. -/
def now : SessionAction σ α Nat := do
  let s ← getSession
  modifySession fun s => { s with readings := s.readings + 1 }
  return s.config.clock s.readings

/-- The backend's name in messages. -/
def backendName (b : Backend σ α) : SessionAction σ α String := do
  return b.longName (← getSession).solver

/-- A fault with the backend's name. -/
def errorOf (b : Backend σ α) (fault : SessionFault) : SessionAction σ α SessionError := do
  return ⟨← backendName b, fault⟩

def fail {β : Type} (b : Backend σ α) (fault : SessionFault) : SessionAction σ α β := do
  throw (← errorOf b fault)

/-- The failure of a request, as an error of the operation. -/
def nativeFault (operation : String) (f : Failure) : SessionFault := .native operation f.chain

/-- A request whose failure is the operation's error. -/
def demand {β : Type} (b : Backend σ α) (operation : String) (answer : Except Failure β) :
    SessionAction σ α β :=
  match answer with
  | .ok x => return x
  | .error f => fail b (nativeFault operation f)

/-! ### Checks -/

def expectStage (b : Backend σ α) (expected : Stage) (operation : String) :
    SessionAction σ α Unit := do
  let s ← getSession
  if s.stage ≠ expected then fail b (.lifecycle operation s.stage)

def expectNotAborted (b : Backend σ α) (operation : String) : SessionAction σ α Unit := do
  let s ← getSession
  if s.aborted then fail b (.aborted operation)

/-- The modification is open and was not aborted; the stage is looked at first. -/
def expectModifiable (b : Backend σ α) (operation : String) : SessionAction σ α Unit := do
  expectStage b .modificationOpen operation
  expectNotAborted b operation

def expectNotClosed (b : Backend σ α) (operation : String) : SessionAction σ α Unit := do
  let s ← getSession
  if s.stage = .closed then fail b (.lifecycle operation s.stage)

/-- Ends the modification with an error. -/
def abort {β : Type} (b : Backend σ α) (fault : SessionFault) : SessionAction σ α β := do
  let e ← errorOf b fault
  modifySession fun s => { s with aborted := true }
  log .error "modify" [("status", .text "aborted"), ("code", .text e.code),
    ("error", .text e.message)] "Modification phase aborted"
  throw e

/-- Gives native resources back, if they are held, and closes the session. -/
def release (b : Backend σ α) : SessionAction σ α Unit := do
  let s ← getSession
  if s.acquired then
    request b .release
    modifySession fun s => { s with acquired := false }
    let name ← backendName b
    log .debug "close" [("backend", .text name)] "Backend closed"
  modifySession fun s => { s with stage := .closed }

/-! ### Creation and options -/

/-- A new session, unless two options of the backend have one name. -/
def create (b : Backend σ α) (solver : σ) (config : SessionConfig) :
    Except SessionError (Session σ α) :=
  match b.registry with
  | .error e => .error ⟨b.longName solver, .option e⟩
  | .ok registry =>
    .ok {
      solver := solver
      registry := registry
      config := config
      events := [⟨.debug, "new", [("backend", .text (b.longName solver)),
        ("options", .int registry.size), ("permissive", .bool config.permissive)],
        some "Session created"⟩] }

def getOption (b : Backend σ α) (t : OptionType) (name : String) :
    SessionAction σ α OptionValue := do
  expectNotClosed b "read option"
  let s ← getSession
  match s.registry.get s.solver t name with
  | .ok v => return v
  | .error e => fail b (.option e)

def setOption (b : Backend σ α) (name : String) (v : OptionValue) : SessionAction σ α Unit := do
  expectNotClosed b "set option"
  trace "set_option" [("option", .text name), ("value", .text v.text)]
  let s ← getSession
  match s.registry.set s.solver name v with
  | .ok solver => modifySession fun s => { s with solver := solver }
  | .error e => fail b (.option e)

/-- Applies an option string and gives the number of options set. The options before a fault
stay set. -/
def applyOptions (b : Backend σ α) (text : String) : SessionAction σ α Nat := do
  expectNotClosed b "set option"
  let s ← getSession
  let (outcome, solver) := s.registry.applyText s.solver text
  modifySession fun s => { s with solver := solver }
  match outcome with
  | .ok count =>
    log .debug "parse_options" [("count", .int count)] "Options applied"
    return count
  | .error e => fail b (.option e)

end Session

end SolverBridge
