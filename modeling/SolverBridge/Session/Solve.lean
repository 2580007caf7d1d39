import SolverBridge.Session.Basic

/-! Solving and reporting. The stop flag is lowered before a solve, so that a stop from an
earlier one does not count, and is looked at when the solve is reported. A failed solve is
reported as an error with the failure's message; otherwise the backend's result code is
interpreted, and the solution is read as far as the status promises one. -/

namespace SolverBridge.Session

variable {σ α : Type}

def isStopped : SessionAction σ α Bool := do
  let (s, flags) ← get
  return flags.isStopped s.config.stopHandle

def lowerStopFlag : SessionAction σ α Unit :=
  modify fun w => (w.1, w.2.reset w.1.config.stopHandle)

/-- Hands the stop flag to the backend, unless it took it before. -/
def handOverStopFlag (b : Backend σ α) : SessionAction σ α Unit := do
  let s ← getSession
  unless s.flagTaken do
    demand b "register interrupter" (← request b (.takeStopFlag s.config.stopHandle))
    modifySession fun s => { s with flagTaken := true }

/-- Solves. A failure leaves the session solved, with the failure's message kept. -/
def solve (b : Backend σ α) : SessionAction σ α Unit := do
  expectStage b .modificationClosed "solve"
  expectNotAborted b "solve"
  lowerStopFlag
  handOverStopFlag b
  let started ← now
  modifySession fun s =>
    { s with times := { s.times with setup := started - s.acquiredAt.getD started } }
  let answer ← request b .solve
  let ended ← now
  modifySession fun s =>
    { s with
      times := { s.times with solution := ended - started }
      solvedAt := some ended
      stage := .solved }
  match answer with
  | .ok () =>
    log .debug "solve" [("status", .text "success"), ("duration_ms", .duration)] "Solve finished"
  | .error f =>
    let e ← errorOf b (nativeFault "solve" f)
    modifySession fun s => { s with solveFailure := some f.chain }
    log .error "solve" [("status", .text "error"), ("error", .text e.message)]
      "Native solve failed"
    throw e

/-- What the solve came to: interrupted, failed, or what the result code means. -/
def verdict (b : Backend σ α) : SessionAction σ α Verdict := do
  if ← isStopped then return ⟨.interrupted, "interrupted"⟩
  match (← getSession).solveFailure with
  | some message => return ⟨.error, message⟩
  | none =>
    let native ← demand b "query status" (← request b .nativeStatus)
    let stopped ← isStopped
    let feasible ← request b .hasFeasible
    return b.statuses.interpret native stopped feasible

/-- What a report reads from the backend. -/
structure Reading (α : Type) where
  primal : Option (List α) := none
  dual : Option (List α) := none
  objective : Option α := none

/-- Reads the solution when the status promises one: duals only without integrality and when
there are any, and the objective's value only when there is an objective. -/
def readSolution (b : Backend σ α) (status : SolveStatus) (mixedInteger : Bool) :
    SessionAction σ α (Reading α) := do
  if status.hasSolution then
    let primal ← demand b "read primal solution" (← request b .primal)
    let dual ← if mixedInteger then pure none else do
      let values ← demand b "read dual solution" (← request b .dual)
      pure (if values.isEmpty then none else some values)
    let objective ← if 0 < (← request b .objectiveCount) then do
        let x ← demand b "read objective value" (← request b .objectiveValue)
        pure (some x)
      else pure none
    return ⟨some primal, dual, objective⟩
  else return {}

/-- The infeasible subsystem, when it is asked for and the problem may be infeasible. A failure
is logged and no more. -/
def reportIis (b : Backend σ α) (options : BaseOptions) (status : SolveStatus) :
    SessionAction σ α Unit := do
  if options.iisFind ≠ 0 ∧ (status = .infeasible ∨ status = .infeasibleOrUnbounded) then
    match ← request b .findIis with
    | .ok iis =>
      deliver (.intSuffix .iisVariables (iis.ofVariables.map fun s => s.code))
      deliver (.intSuffix .iisConstraints (iis.ofConstraints.map fun s => s.code))
    | .error f =>
      log .warn "compute_iis" [("status", .text "error"), ("error", .text f.outermost)]
        "IIS computation failed"

/-- The gap of a mixed integer problem, where it is asked for; infinite when unknown. -/
def reportGap [Scalar α] (b : Backend σ α) (options : BaseOptions) (mixedInteger : Bool) :
    SessionAction σ α Unit := do
  let wanted := options.returnMipGap
  if wanted &&& 3 ≠ 0 ∧ mixedInteger then
    let gap := (← request b .mipGap).getD Scalar.posInf
    if wanted &&& 1 ≠ 0 then
      let count ← request b .objectiveCount
      deliver (.numSuffix .gapOfObjectives (List.replicate count gap))
    if wanted &&& 2 ≠ 0 then
      deliver (.numSuffix .gapOfProblem [gap])

/-- What follows the first line of the message of a report, and the solution. Nothing is read
after a failed solve. -/
def readResults [Scalar α] [Numeral α] (b : Backend σ α) (status : SolveStatus) :
    SessionAction σ α (Reading α × String) := do
  if (← getSession).solveFailure.isSome then return ({}, "")
  let mixedInteger ← request b .isMixedInteger
  let reading ← readSolution b status mixedInteger
  let nodes ← if mixedInteger then some <$> request b .nodes else pure none
  let iterations ← request b .iterations
  let options := b.baseOptions (← getSession).solver
  reportIis b options status
  reportGap b options mixedInteger
  return (reading, Report.statisticsLine iterations nodes reading.objective)

/-- Reports a solve to the sink. -/
def report [Scalar α] [Numeral α] (b : Backend σ α) : SessionAction σ α (SolveReport α) := do
  expectStage b .solved "report"
  let v ← verdict b
  let name ← backendName b
  let (reading, statistics) ← readResults b v.status
  let r : SolveReport α :=
    { status := v.status
      solveCode := v.status.code
      message := Report.summaryLine name v.message ++ statistics
      objective := reading.objective
      primal := reading.primal
      dual := reading.dual }
  deliver (.outcome r.outcome)
  let t ← now
  modifySession fun s =>
    { s with times := { s.times with output := t - s.solvedAt.getD t } }
  let s ← getSession
  if (b.baseOptions s.solver).timing ≠ 0 then deliver (.print (Report.timingBlock s.times))
  modifySession fun s => { s with stage := .reported }
  log .debug "report" [("status", .text v.status.name), ("solve_code", .int v.status.code)]
    "Solution reported"
  return r

end SolverBridge.Session
