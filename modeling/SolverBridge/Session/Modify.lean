import SolverBridge.Classify
import SolverBridge.Resolve
import SolverBridge.Session.Basic

/-! Acquiring the backend and handing a problem to it. Each element is classified and
resolved against the backend's table, and the outcome is posted. An element that cannot be
resolved is skipped in a permissive session; otherwise it ends the modification, as does
every failure of the backend. The end of the modification exports the problem when a file
is named for it. -/

namespace SolverBridge.Session

variable {σ α : Type} [Scalar α]

/-- Acquires native resources and opens the modification. When that fails the session is
closed. -/
def acquire (b : Backend σ α) : SessionAction σ α Unit := do
  expectStage b .created "open"
  let t ← now
  modifySession fun s => { s with acquiredAt := some t }
  match ← request b .acquire with
  | .error f =>
    modifySession fun s => { s with stage := .closed }
    let e ← errorOf b (nativeFault "open" f)
    log .error "open" [("status", .text "error"), ("error", .text e.message)]
      "Failed to open backend"
    throw e
  | .ok () =>
    modifySession fun s => { s with acquired := true }
    match ← request b .beginModification with
    | .error f =>
      let e ← errorOf b (nativeFault "start modification" f)
      log .error "open" [("status", .text "error"), ("error", .text e.message)]
        "Failed to start modification"
      release b
      throw e
    | .ok () =>
      modifySession fun s => { s with stage := .modificationOpen }
      let name ← backendName b
      log .debug "open" [("status", .text "success"), ("backend", .text name)] "Backend opened"

/-- Posts with a request that ends the modification when it fails. -/
def post (b : Backend σ α) (operation : String) (answer : Except Failure Unit) :
    SessionAction σ α Unit :=
  match answer with
  | .ok () => return ()
  | .error f => abort b (nativeFault operation f)

def domainTypeName (d : Domain α) : String := if d.integral then "Integer" else "Continuous"

/-- Adds a variable behind those added before. -/
def addVariable (b : Backend σ α) (d : Domain α) : SessionAction σ α Var := do
  expectModifiable b "add variable"
  post b "add variable" (← request b (.addVariable d))
  let s ← getSession
  let v : Var := ⟨s.domains.length⟩
  modifySession fun s => { s with domains := s.domains ++ [d] }
  trace "add_variable" [("variable", .text v.name), ("var_type", .text (domainTypeName d))]
  return v

/-- Skips an element in a permissive session and ends the modification otherwise. -/
def rejectElement (b : Backend σ α) (element : Element) (kind : Kind) :
    SessionAction σ α Unit := do
  let s ← getSession
  if s.config.permissive then
    log .warn "add" [("status", .text "skipped"), ("element", .text element.name),
      ("kind", .text kind.name)] "Element not supported by backend, skipping"
    modifySession fun s => { s with skipped := s.skipped ++ [(element, kind)] }
  else abort b (.unsupported element kind)

def addObjective (b : Backend σ α) (i : Nat) (o : Objective α) : SessionAction σ α Unit := do
  expectModifiable b "add objective"
  let element := Element.objective i
  match resolveObjective b.acceptance (classifyObjective o) with
  | .error u => rejectElement b element u.kind
  | .ok flat =>
    trace "add_objective" [("element", .text element.name), ("kind", .text flat.kind.name)]
    post b "add objective" (← request b (.postObjective flat))

/-- Posts the pieces of a constraint in order. -/
def postPieces (b : Backend σ α) : List (FlatConstraint α) → SessionAction σ α Unit
  | [] => return ()
  | c :: rest => do
    post b "add constraint" (← request b (.postConstraint c))
    postPieces b rest

def addConstraint (b : Backend σ α) (i : Nat) (c : Constraint α) : SessionAction σ α Unit := do
  expectModifiable b "add constraint"
  let element := Element.constraint i
  request b (.startConstraint i)
  let flat := classifyConstraint c
  let s ← getSession
  match resolveConstraint b.acceptance s.domains flat with
  | .error u => rejectElement b element u.kind
  | .ok pieces =>
    trace "add_constraint" [("element", .text element.name), ("kind", .text flat.kind.name),
      ("posted", .text (", ".intercalate (pieces.map (·.kind.name))))]
    postPieces b pieces

def addVariables (b : Backend σ α) : List (Domain α) → SessionAction σ α Unit
  | [] => return ()
  | d :: rest => do
    let _ ← addVariable b d
    addVariables b rest

/-- Adds objectives, numbered from `i`. -/
def addObjectives (b : Backend σ α) : Nat → List (Objective α) → SessionAction σ α Unit
  | _, [] => return ()
  | i, o :: rest => do
    addObjective b i o
    addObjectives b (i + 1) rest

/-- Adds constraints, numbered from `i`. -/
def addConstraints (b : Backend σ α) : Nat → List (Constraint α) → SessionAction σ α Unit
  | _, [] => return ()
  | i, c :: rest => do
    addConstraint b i c
    addConstraints b (i + 1) rest

/-- Adds everything a problem holds: variables, objectives, constraints. -/
def load (b : Backend σ α) (m : Problem α) : SessionAction σ α Unit := do
  expectModifiable b "load model"
  let _ ← now
  addVariables b m.domains
  addObjectives b 0 m.objectives
  addConstraints b 0 m.constraints
  let _ ← now
  let s ← getSession
  log .debug "load_model" [("status", .text "success"), ("variables", .int m.domains.length),
    ("objectives", .int m.objectives.length), ("constraints", .int m.constraints.length),
    ("skipped", .int s.skipped.length), ("duration_ms", .duration)] "Model loaded"

/-- The skipped elements with their kinds. -/
def skippedText (skipped : List (Element × Kind)) : String :=
  ", ".intercalate (skipped.map fun e => e.1.name ++ " (" ++ e.2.name ++ ")")

/-- Ends the modification, and exports the problem if a file is named. -/
def finish (b : Backend σ α) : SessionAction σ α Unit := do
  expectModifiable b "finish modification"
  post b "finish modification" (← request b .endModification)
  let file := (b.baseOptions (← getSession).solver).exportFile
  unless file.isEmpty do
    post b "export model" (← request b (.exportModel file))
    log .debug "export" [("file", .text file)] "Model exported"
  let s ← getSession
  unless s.skipped.isEmpty do
    log .warn "finish_modification" [("skipped", .text (skippedText s.skipped))]
      "Some elements were not passed to the backend"
  modifySession fun s => { s with stage := .modificationClosed }
  log .debug "finish_modification" [("status", .text "success")] "Modification phase closed"

end SolverBridge.Session
