import Mathlib.Logic.Relation
import SolverBridge.Proofs.LoadPlan

/-! What a session can do next. A move is a short stretch of calls after which the control of
the session is at rest: an element added, the modification ended, a solve. Every operation
is a sequence of moves, whether it succeeds or fails, so what each move preserves is
preserved by all that can be done with a session. -/

namespace SolverBridge

variable {σ α : Type}

/-- What a request is for. -/
inductive Role
  | acquire
  | begin
  | add
  | finish
  | save
  | flag
  | solve
  | query
  | release
  deriving DecidableEq

def Request.role : Request α → Role
  | .acquire => .acquire
  | .release => .release
  | .beginModification => .begin
  | .addVariable _ | .postObjective _ | .startConstraint _ | .postConstraint _ => .add
  | .endModification => .finish
  | .exportModel _ => .save
  | .takeStopFlag _ => .flag
  | .solve => .solve
  | .nativeStatus | .hasFeasible | .primal | .dual | .objectiveValue | .iterations | .nodes
  | .isMixedInteger | .objectiveCount | .findIis | .mipGap => .query

/-- What a call was for. -/
def Call.role (c : Call α) : Role := c.1.role

namespace Control

/-- The moves of a session. -/
inductive Move (c : Control σ α) : Control σ α → Prop
  | domains (ds : List (Domain α)) : Move c { c with domains := ds }
  | acquireFailed {a} (fresh : c.stage = .created) (failed : Call.failed ⟨.acquire, a⟩ = true) :
      Move c { c.calling .acquire a with stage := .closed }
  | beginFailed {a a'} (fresh : c.stage = .created) (ok : Call.failed ⟨.acquire, a⟩ = false)
      (failed : Call.failed ⟨.beginModification, a'⟩ = true) :
      Move c { (c.calling .acquire a).calling .beginModification a' with acquired := true }.released
  | opened {a a'} (fresh : c.stage = .created) (ok : Call.failed ⟨.acquire, a⟩ = false)
      (ok' : Call.failed ⟨.beginModification, a'⟩ = false) :
      Move c { (c.calling .acquire a).calling .beginModification a' with
        acquired := true, stage := .modificationOpen }
  | added {r a} (h : c.Modifiable) (adds : r.role = .add) (ok : Call.failed ⟨r, a⟩ = false) :
      Move c (c.calling r a)
  | addFailed {r a} (h : c.Modifiable) (adds : r.role = .add)
      (failed : Call.failed ⟨r, a⟩ = true) : Move c (c.calling r a).abandoned
  | rejected (h : c.Modifiable) : Move c c.abandoned
  | finishFailed {a} (h : c.Modifiable) (failed : Call.failed ⟨.endModification, a⟩ = true) :
      Move c (c.calling .endModification a).abandoned
  | finished {a} (h : c.Modifiable) (ok : Call.failed ⟨.endModification, a⟩ = false) :
      Move c { c.calling .endModification a with stage := .modificationClosed }
  | exportFailed {a path a'} (h : c.Modifiable) (ok : Call.failed ⟨.endModification, a⟩ = false)
      (failed : Call.failed ⟨.exportModel path, a'⟩ = true) :
      Move c ((c.calling .endModification a).calling (.exportModel path) a').abandoned
  | exported {a path a'} (h : c.Modifiable) (ok : Call.failed ⟨.endModification, a⟩ = false)
      (ok' : Call.failed ⟨.exportModel path, a'⟩ = false) :
      Move c { (c.calling .endModification a).calling (.exportModel path) a' with
        stage := .modificationClosed }
  | flagFailed {handle a} (closed : c.stage = .modificationClosed)
      (failed : Call.failed ⟨.takeStopFlag handle, a⟩ = true) :
      Move c (c.calling (.takeStopFlag handle) a)
  | solved {handle a a'} (closed : c.stage = .modificationClosed) (fresh : c.flagTaken = false)
      (ok : Call.failed ⟨.takeStopFlag handle, a⟩ = false) :
      Move c { (c.calling (.takeStopFlag handle) a).calling .solve a' with
        flagTaken := true, stage := .solved }
  | solvedAgain {a} (closed : c.stage = .modificationClosed) (taken : c.flagTaken = true) :
      Move c { c.calling .solve a with stage := .solved }
  | queried {r a} (solved : c.stage = .solved) (queries : r.role = .query) :
      Move c (c.calling r a)
  | reported (solved : c.stage = .solved) : Move c { c with stage := .reported }
  | released (running : c.stage ≠ .closed) : Move c c.released

/-- Any number of moves. -/
abbrev Moves : Control σ α → Control σ α → Prop := Relation.ReflTransGen Move

/-- The backend was acquired and its modification was opened. -/
def Opened (c c' : Control σ α) : Prop :=
  c.stage = .created ∧ ∃ a a', Call.failed ⟨.acquire, a⟩ = false ∧
    Call.failed ⟨.beginModification, a'⟩ = false ∧
    c' = { (c.calling .acquire a).calling .beginModification a' with
      acquired := true, stage := .modificationOpen }

/-- Some moves, and then a failure that is not about an unsupported element. -/
def Fails (c : Control σ α) (e : SessionError) (c' : Control σ α) : Prop :=
  c.Moves c' ∧ ¬e.fault.IsUnsupported

variable {c c' : Control σ α} {e : SessionError}

theorem Opened.moves (h : c.Opened c') : c.Moves c' := by
  obtain ⟨fresh, a, a', ok, ok', rfl⟩ := h
  exact .single (.opened fresh ok ok')

theorem Fails.refused (h : e.fault.IsRefusal) : c.Fails e c :=
  ⟨.refl, h.not_isUnsupported⟩

theorem Fails.native {operation : String} {f : Failure} (moves : c.Moves c')
    (h : e.fault = Session.nativeFault operation f) : c.Fails e c' :=
  ⟨moves, by rw [h]; exact id⟩

end Control

open Control

variable {β γ : Type} {b : Backend σ α} {c : Control σ α}
  {a : SessionAction (σ × List (Call α)) α β}

/-- The action is a sequence of moves and does not fail because of an unsupported element. -/
def Performs (a : SessionAction (σ × List (Call α)) α β) (c : Control σ α) : Prop :=
  Meets a c (fun _ => c.Moves) c.Fails

namespace Performs

theorem bind {f : β → SessionAction (σ × List (Call α)) α γ} (ha : Performs a c)
    (hf : ∀ x c', Performs (f x) c') : Performs (a >>= f) c := by
  refine Meets.bind (Meets.mono ha (fun x c' moves => ?_) fun _ _ h => h)
  exact Meets.mono (hf x c') (fun _ _ h => moves.trans h) fun _ _ h => ⟨moves.trans h.1, h.2⟩

/-- What is done about an error that is thrown again. -/
theorem tryCatch {f : SessionError → SessionAction (σ × List (Call α)) α β} (ha : Performs a c)
    (hf : ∀ e c', ¬e.fault.IsUnsupported → Performs (f e) c') :
    Performs (MonadExcept.tryCatch a f) c := by
  refine Meets.tryCatch (Meets.mono ha (fun _ _ h => h) fun e c' fails => ?_)
  exact Meets.mono (hf e c' fails.2) (fun _ _ h => fails.1.trans h)
    fun _ _ h => ⟨fails.1.trans h.1, h.2⟩

end Performs

/-! ### Opening and ending the modification -/

theorem meets_acquire : Meets (Session.acquire b.traced) c (fun _ => c.Opened) c.Fails := by
  refine Meets.bind <| Meets.expectStage (fun fresh => ?_) fun _ e he => .refused (he ▸ trivial)
  refine Meets.bind <| Meets.now fun t => Meets.bind <| Meets.modifySession id (fun _ => rfl) ?_
  refine Meets.bind <| Meets.request fun a => ?_
  match a with
  | .error f =>
    refine Meets.bind <| Meets.modifySession (fun c => { c with stage := .closed })
      (fun _ => rfl) ?_
    exact Meets.bind <| Meets.errorOf fun e he => Meets.bind <| Meets.log <| Meets.throw <|
      .native (.single (.acquireFailed fresh rfl)) he
  | .ok () =>
    refine Meets.bind <| Meets.modifySession (fun c => { c with acquired := true })
      (fun _ => rfl) ?_
    refine Meets.bind <| Meets.request fun a' => ?_
    match a' with
    | .error f =>
      exact Meets.bind <| Meets.errorOf fun e he => Meets.bind <| Meets.log <| Meets.bind <|
        Meets.release <| Meets.throw <| .native (.single (.beginFailed fresh rfl rfl)) he
    | .ok () =>
      refine Meets.bind <| Meets.modifySession (fun c => { c with stage := .modificationOpen })
        (fun _ => rfl) ?_
      exact Meets.bind <| Meets.backendName fun _ => Meets.log
        ⟨fresh, .ok (), .ok (), rfl, rfl, rfl⟩

theorem performs_finish : Performs (Session.finish b.traced) c := by
  refine Meets.bind <| Meets.expectModifiable (fun h => ?_) fun _ e he => .refused he
  refine Meets.bind <| Meets.request fun a => Meets.bind ?_
  match a with
  | .error f => exact Meets.abort fun e he => .native (.single (.finishFailed h rfl)) he
  | .ok () =>
    refine Meets.pure <| Meets.bind <| Meets.getSession fun s hs => ?_
    -- the tests for a file and for skipped elements go on with the same calls
    extract_lets file close warn
    have warns (c' : Control σ α) (move : Move c { c' with stage := .modificationClosed }) :
        Meets (warn ()) c' (fun _ => c.Moves) c.Fails := by
      have closes : Meets (close ()) c' (fun _ => c.Moves) c.Fails :=
        Meets.bind <| Meets.modifySession (fun c => { c with stage := .modificationClosed })
          (fun _ => rfl) <| Meets.log <| .single move
      exact Meets.bind <| Meets.getSession fun s hs => Meets.ite (fun _ => closes)
        fun _ => Meets.bind <| Meets.log closes
    refine Meets.ite (fun _ => warns _ (.finished (a := .ok ()) h rfl)) fun _ => ?_
    refine Meets.bind <| Meets.request fun a' => Meets.bind ?_
    match a' with
    | .error f => exact Meets.abort fun e he => .native (.single (.exportFailed h rfl rfl)) he
    | .ok () => exact Meets.pure <| Meets.bind <| Meets.log <| warns _ (.exported h rfl rfl)

/-! ### Solving -/

theorem meets_lowerStopFlag {Q : Unit → Control σ α → Prop}
    {E : SessionError → Control σ α → Prop} (h : Q () c) :
    Meets Session.lowerStopFlag c Q E := by
  rintro w rfl
  exact h

theorem meets_isStopped {Q : Bool → Control σ α → Prop}
    {E : SessionError → Control σ α → Prop} (h : ∀ stopped, Q stopped c) :
    Meets Session.isStopped c Q E := by
  rintro w rfl
  exact h _

/-- Once the backend has the stop flag, a solve completes the move. -/
theorem meets_handOverStopFlag (closed : c.stage = .modificationClosed) :
    Meets (Session.handOverStopFlag b.traced) c
      (fun _ c' => ∀ a, Move c { c'.calling .solve a with stage := .solved }) c.Fails := by
  refine Meets.bind <| Meets.getSession fun s hs => ?_
  rw [show s.flagTaken = c.flagTaken from hs ▸ rfl]
  refine Meets.ite (fun taken => Meets.pure fun a => .solvedAgain closed taken) fun fresh => ?_
  refine Meets.bind <| Meets.request fun a => Meets.bind <| Meets.demand (fun x ok => ?_) ?_
  · refine Meets.modifySession (fun c => { c with flagTaken := true }) (fun _ => rfl) fun a' => ?_
    exact .solved closed (Bool.eq_false_iff.2 fresh) (by cases ok; rfl)
  · exact fun f failed e he => .native (.single (.flagFailed closed (by cases failed; rfl))) he

theorem performs_solve : Performs (Session.solve b.traced) c := by
  refine Meets.bind <| Meets.expectStage (fun closed => ?_) fun _ e he => .refused (he ▸ trivial)
  refine Meets.bind <| Meets.expectNotAborted (fun _ => ?_) fun _ e he => .refused (he ▸ trivial)
  refine Meets.bind <| meets_lowerStopFlag <| Meets.bind <|
    Meets.mono (meets_handOverStopFlag closed) (fun _ c' solves => ?_) fun _ _ h => h
  refine Meets.bind <| Meets.now fun _ => Meets.bind <| Meets.modifySession id (fun _ => rfl) <|
    Meets.bind <| Meets.request fun a => Meets.bind <| Meets.now fun _ => ?_
  refine Meets.bind <| Meets.modifySession (fun c => { c with stage := .solved }) (fun _ => rfl) ?_
  match a with
  | .ok () => exact Meets.log (.single (solves _))
  | .error f =>
    exact Meets.bind <| Meets.errorOf fun e he => Meets.bind <|
      Meets.modifySession id (fun _ => rfl) <| Meets.bind <| Meets.log <| Meets.throw <|
      .native (.single (solves _)) he

/-! ### Reporting -/

/-- The action asks the backend about its solve and leaves the session solved. -/
def Queries (a : SessionAction (σ × List (Call α)) α β) : Prop :=
  ∀ c : Control σ α, c.stage = .solved →
    Meets a c (fun _ c' => c.Moves c' ∧ c'.stage = .solved) c.Fails

namespace Queries

variable {operation : String}

theorem pure {x : β} : Queries (σ := σ) (α := α) (Pure.pure x) :=
  fun _ solved => Meets.pure ⟨.refl, solved⟩

theorem bind {f : β → SessionAction (σ × List (Call α)) α γ} (ha : Queries a)
    (hf : ∀ x, Queries (f x)) : Queries (a >>= f) := by
  refine fun c solved => Meets.bind (Meets.mono (ha c solved) ?_ fun _ _ h => h)
  rintro x c' ⟨moves, solved'⟩
  exact Meets.mono (hf x c' solved') (fun _ _ h => ⟨moves.trans h.1, h.2⟩)
    fun _ _ h => ⟨moves.trans h.1, h.2⟩

theorem ite {P : Prop} [Decidable P] {a' : SessionAction (σ × List (Call α)) α β}
    (ht : Queries a) (hf : Queries a') : Queries (if P then a else a') :=
  fun c solved => Meets.ite (fun _ => ht c solved) fun _ => hf c solved

theorem request {r : Request α} (h : r.role = .query) : Queries (Session.request b.traced r) :=
  fun _ solved => Meets.request fun _ => ⟨.single (.queried solved h), solved⟩

theorem demand {answer : Except Failure β} :
    Queries (Session.demand b.traced operation answer) :=
  fun _ solved => Meets.demand (fun _ _ => ⟨.refl, solved⟩) fun _ _ _ he => .native .refl he

theorem deliver {d : Delivery α} : Queries (σ := σ) (Session.deliver d) :=
  fun _ solved => Meets.deliver ⟨.refl, solved⟩

theorem log {level : EventLevel} {fields : List (String × EventField)} {message : String} :
    Queries (σ := σ) (α := α) (Session.log level operation fields message) :=
  fun _ solved => Meets.log ⟨.refl, solved⟩

theorem getSession : Queries (σ := σ) (α := α) Session.getSession :=
  fun _ solved => Meets.getSession fun _ _ => ⟨.refl, solved⟩

theorem isStopped : Queries (σ := σ) (α := α) Session.isStopped :=
  fun _ solved => meets_isStopped fun _ => ⟨.refl, solved⟩

theorem verdict : Queries (Session.verdict b.traced) := by
  refine isStopped.bind fun stopped => ite pure <| getSession.bind fun s => ?_
  split
  · exact pure
  · exact (request rfl).bind fun _ => demand.bind fun _ => isStopped.bind fun _ =>
      (request rfl).bind fun _ => pure

theorem readSolution {status : SolveStatus} {mixedInteger : Bool} :
    Queries (Session.readSolution b.traced status mixedInteger) := by
  refine ite ((request rfl).bind fun _ => demand.bind fun primal => ?_) pure
  extract_lets read
  have reads (dual : Option (List α)) : Queries (read dual) := by
    refine (request rfl).bind fun n => ?_
    extract_lets read
    have reads (x : Option α) : Queries (read x) := pure
    exact ite ((request rfl).bind fun _ => demand.bind fun _ => pure.bind reads) (pure.bind reads)
  exact ite (pure.bind reads) <| (request rfl).bind fun _ => demand.bind fun _ => pure.bind reads

theorem reportIis {options : BaseOptions} {status : SolveStatus} :
    Queries (Session.reportIis b.traced options status) := by
  refine ite ((request rfl).bind fun answer => ?_) pure
  split
  · exact deliver.bind fun _ => deliver
  · exact log

theorem reportGap [Scalar α] {options : BaseOptions} {mixedInteger : Bool} :
    Queries (Session.reportGap b.traced options mixedInteger) := by
  refine ite ((request rfl).bind fun gap => ?_) pure
  extract_lets _ deliverRest
  have delivers (x : Unit) : Queries (deliverRest x) := ite deliver pure
  exact ite ((request rfl).bind fun _ => deliver.bind delivers) (delivers ())

theorem readResults [Scalar α] [Numeral α] {status : SolveStatus} :
    Queries (Session.readResults b.traced status) := by
  refine getSession.bind fun s => ite pure ?_
  refine (request rfl).bind fun mixedInteger => readSolution.bind fun reading => ?_
  extract_lets finish
  have finishes (nodes : Option Nat) : Queries (finish nodes) :=
    (request rfl).bind fun _ => getSession.bind fun _ => reportIis.bind fun _ =>
      reportGap.bind fun _ => pure
  exact ite ((request rfl).bind fun n => pure.bind finishes) (pure.bind finishes)

theorem performs {f : β → SessionAction (σ × List (Call α)) α γ} (ha : Queries a)
    (solved : c.stage = .solved) (hf : ∀ x c', c'.stage = .solved → Performs (f x) c') :
    Performs (a >>= f) c := by
  refine Meets.bind (Meets.mono (ha c solved) ?_ fun _ _ h => h)
  rintro x c' ⟨moves, solved'⟩
  exact Meets.mono (hf x c' solved') (fun _ _ h => moves.trans h)
    fun _ _ h => ⟨moves.trans h.1, h.2⟩

end Queries

theorem performs_report [Scalar α] [Numeral α] : Performs (Session.report b.traced) c := by
  refine Meets.bind <| Meets.expectStage (fun solved => ?_) fun _ e he => .refused (he ▸ trivial)
  refine Queries.verdict.performs solved fun v c solved => Meets.bind <| Meets.backendName
    fun _ => Queries.readResults.performs solved fun reading c solved => ?_
  refine Meets.bind <| Meets.deliver <| Meets.bind <| Meets.now fun _ => Meets.bind <|
    Meets.modifySession id (fun _ => rfl) <| Meets.bind <| Meets.getSession fun _ _ => ?_
  extract_lets close
  have closes : Meets (close ()) c (fun _ => c.Moves) c.Fails :=
    Meets.bind <| Meets.modifySession (fun c => { c with stage := .reported }) (fun _ => rfl) <|
      Meets.bind <| Meets.log <| Meets.pure <| .single (.reported solved)
  exact Meets.ite (fun _ => Meets.bind <| Meets.deliver closes) fun _ => closes

/-! ### Adding elements -/

/-- The step only adds elements. -/
def Step.Adds : Step α → Prop
  | .call r => r.role = .add
  | .reject _ _ => True

def Progress.isStopped : Progress → Bool
  | .done => false
  | .failed | .rejected _ _ => true

theorem Progress.Explains.isStopped {progress : Progress} {fault : SessionFault}
    (h : progress.Explains fault) : progress.isStopped = true := by
  cases progress with
  | done => exact h.elim
  | failed | rejected => rfl

theorem Follows.moves {permissive : Bool} {plan : List (Step α)} {calls : List (Call α)}
    {progress : Progress} (followed : Follows permissive plan calls progress)
    (adds : ∀ s ∈ plan, s.Adds) (h : c.Modifiable) :
    c.Moves { c with calls := c.calls ++ calls, aborted := progress.isStopped } := by
  induction followed generalizing c with
  | done =>
    rw [List.append_nil, Progress.isStopped, ← h.2]
  | @call r a plan calls progress ok _ ih =>
    rw [List.forall_mem_cons] at adds
    refine .head (.added h adds.1 ok) ?_
    have := ih (c := c.calling r a) adds.2 h
    rwa [calling, List.append_assoc] at this
  | failed refused => exact .single (.addFailed h (adds _ List.mem_cons_self) refused)
  | skip _ _ ih => exact ih (fun s hs => adds s (List.mem_cons_of_mem _ hs)) h
  | reject =>
    rw [List.append_nil]
    exact .single (.rejected h)

namespace Control

variable {plan : List (Step α)} {ds : List (Domain α)} {c' : Control σ α} {e : SessionError}

theorem Carried.moves (carried : c.Carried plan ds c') (adds : ∀ s ∈ plan, s.Adds)
    (h : c.Modifiable) : c.Moves c' := by
  obtain ⟨calls, followed, rfl⟩ := carried
  have := (followed.moves adds h).tail (.domains ds)
  rwa [Progress.isStopped, ← h.2] at this

theorem Stopped.moves (stopped : c.Stopped plan e c') (adds : ∀ s ∈ plan, s.Adds)
    (h : c.Modifiable) : c.Moves c' := by
  obtain ⟨calls, progress, ds, followed, explains, rfl⟩ := stopped
  have := (followed.moves adds h).tail (.domains ds)
  rwa [explains.isStopped] at this

end Control

section Plans

variable [Scalar α]

theorem adds_objectiveSteps {table : AcceptanceTable} {i : Nat} {o : Objective α} :
    ∀ s ∈ objectiveSteps table i o, s.Adds := by
  intro s hs
  rw [objectiveSteps] at hs
  split at hs
  · rw [List.mem_singleton.1 hs]
    trivial
  · rw [List.mem_singleton.1 hs]
    rfl

theorem adds_constraintSteps {table : AcceptanceTable} {domains : List (Domain α)} {i : Nat}
    {d : Constraint α} : ∀ s ∈ constraintSteps table domains i d, s.Adds := by
  rw [constraintSteps, List.forall_mem_cons]
  refine ⟨rfl, fun s hs => ?_⟩
  split at hs
  · rw [List.mem_singleton.1 hs]
    trivial
  · obtain ⟨piece, -, rfl⟩ := List.mem_map.1 hs
    rfl

theorem adds_objectivesPlan {table : AcceptanceTable} (i : Nat) (os : List (Objective α)) :
    ∀ s ∈ objectivesPlan table i os, s.Adds := by
  induction os generalizing i with
  | nil => exact List.forall_mem_nil _
  | cons o rest ih => exact List.forall_mem_append.2 ⟨adds_objectiveSteps, ih (i + 1)⟩

theorem adds_constraintsPlan {table : AcceptanceTable} {domains : List (Domain α)} (i : Nat)
    (ds : List (Constraint α)) : ∀ s ∈ constraintsPlan table domains i ds, s.Adds := by
  induction ds generalizing i with
  | nil => exact List.forall_mem_nil _
  | cons d rest ih => exact List.forall_mem_append.2 ⟨adds_constraintSteps, ih (i + 1)⟩

theorem adds_plan {table : AcceptanceTable} {before : List (Domain α)} {m : Problem α} :
    ∀ s ∈ m.plan table before, s.Adds := by
  refine List.forall_mem_append.2 ⟨fun s hs => ?_,
    List.forall_mem_append.2 ⟨adds_objectivesPlan _ _, adds_constraintsPlan _ _⟩⟩
  obtain ⟨d, -, rfl⟩ := List.mem_map.1 hs
  rfl

/-- The requests of an operation that adds elements, up to where elements are not taken. -/
def Operation.plan (table : AcceptanceTable) (before : List (Domain α)) :
    Operation α → List (Step α)
  | .addVariable d => [.call (.addVariable d)]
  | .addObjective i o => objectiveSteps table i o
  | .addConstraint i c => constraintSteps table before i c
  | .load m => m.plan table before
  | .run m => .call .acquire :: .call .beginModification :: m.plan table before
  | _ => []

end Plans

/-! ### Closing -/

namespace Control

variable {c' : Control σ α} {calls : List (Call α)}

/-- A session that is closed, or whose modification was ended by an error, is only released. -/
theorem Move.idle (idle : c.stage = .closed ∨ c.stage = .modificationOpen ∧ c.aborted = true)
    (move : Move c c') :
    (∃ ds, c' = { c with domains := ds }) ∨ c.stage ≠ .closed ∧ c' = c.released := by
  have unmodifiable : ¬c.Modifiable := by
    rintro ⟨stage, fresh⟩
    rcases idle with closed | ⟨-, aborted⟩
    · rw [stage] at closed
      cases closed
    · rw [fresh] at aborted
      cases aborted
  have stuck {s : Stage} (h : c.stage = s) (hs : s ≠ .closed) (hs' : s ≠ .modificationOpen) :
      False := by
    rcases idle with closed | ⟨stage, -⟩
    · exact hs (h.symm.trans closed)
    · exact hs' (h.symm.trans stage)
  cases move with
  | domains ds => exact .inl ⟨ds, rfl⟩
  | released running => exact .inr ⟨running, rfl⟩
  | added h | addFailed h | rejected h | finishFailed h | finished h | exportFailed h
  | exported h => exact absurd h unmodifiable
  | acquireFailed h | beginFailed h | opened h | flagFailed h | solved h | solvedAgain h
  | queried h | reported h => exact (stuck h nofun nofun).elim

/-- There is nothing left to do but to release the backend, and then the calls are these. -/
inductive Spent (c : Control σ α) (calls : List (Call α)) : Prop
  | aborted (stage : c.stage = .modificationOpen) (aborted : c.aborted = true)
      (acquired : c.acquired = true) (last : calls = c.calls ++ [⟨.release, ()⟩])
  | closed (stage : c.stage = .closed) (all : calls = c.calls)

theorem Spent.move (spent : c.Spent calls) (move : Move c c') : c'.Spent calls := by
  cases spent with
  | aborted stage aborted acquired last =>
    rcases move.idle (.inr ⟨stage, aborted⟩) with ⟨ds, rfl⟩ | ⟨-, rfl⟩
    · exact .aborted stage aborted acquired last
    · exact .closed rfl (by rw [last, released, if_pos acquired])
  | closed stage all =>
    rcases move.idle (.inl stage) with ⟨ds, rfl⟩ | ⟨running, -⟩
    · exact .closed stage all
    · exact absurd stage running

theorem Spent.moves (spent : c.Spent calls) (moves : c.Moves c') : c'.Spent calls := by
  induction moves with
  | refl => exact spent
  | tail _ move ih => exact ih.move move

end Control

theorem performs_close : Performs (Session.close b.traced) c :=
  Meets.bind <| Meets.expectNotClosed (fun running => Meets.release (.single (.released running)))
    fun _ _ he => .refused (he ▸ trivial)

theorem meets_settle {E : SessionError → Control σ α → Prop} :
    Meets (Session.settle b.traced) c (fun _ c' => c.Moves c' ∧ c'.stage = .closed) E := by
  refine Meets.bind <| Meets.getSession fun s hs => ?_
  rw [show s.stage = c.stage from hs ▸ rfl]
  exact Meets.ite (fun closed => Meets.pure ⟨.refl, closed⟩) fun running =>
    Meets.release ⟨.single (.released running), rfl⟩

/-! ### Operations -/

/-- Some moves, and then a failure. If it is about an unsupported element, the plan was followed
up to it and nothing is left to do. -/
def Control.Stops (c : Control σ α) (plan : List (Step α)) (e : SessionError)
    (c' : Control σ α) : Prop :=
  c.Moves c' ∧ ∀ element kind, e.fault = .unsupported element kind →
    ∃ calls, Follows c.config.permissive plan calls (.rejected element kind) ∧
      c'.Spent (c.calls ++ calls ++ [⟨.release, ()⟩])

/-- The action is a sequence of moves, and only the plan may have an unsupported element. -/
def Tries (a : SessionAction (σ × List (Call α)) α β) (c : Control σ α)
    (plan : List (Step α)) : Prop :=
  Meets a c (fun _ => c.Moves) (c.Stops plan)

theorem Control.Fails.stops {plan : List (Step α)} {e : SessionError} {c' : Control σ α}
    (h : c.Fails e c') : c.Stops plan e c' :=
  ⟨h.1, fun _ _ he => absurd (by rw [he]; trivial) h.2⟩

theorem Control.Stops.trans {plan : List (Step α)} {e : SessionError} {c' c'' : Control σ α}
    (h : c.Stops plan e c') (moves : c'.Moves c'') : c.Stops plan e c'' := by
  refine ⟨h.1.trans moves, fun element kind he => ?_⟩
  obtain ⟨calls, followed, spent⟩ := h.2 element kind he
  exact ⟨calls, followed, spent.moves moves⟩

theorem Control.Opened.stops {plan : List (Step α)} {e : SessionError} {c' c'' : Control σ α}
    (opened : c.Opened c') (h : c'.Stops plan e c'') :
    c.Stops (.call .acquire :: .call .beginModification :: plan) e c'' := by
  refine ⟨opened.moves.trans h.1, fun element kind he => ?_⟩
  obtain ⟨calls, followed, spent⟩ := h.2 element kind he
  obtain ⟨-, a, a', ok, ok', rfl⟩ := opened
  refine ⟨_, .call ok (.call ok' followed), ?_⟩
  simpa [calling] using spent

theorem Performs.tries {plan : List (Step α)} (h : Performs a c) : Tries a c plan :=
  Meets.mono h (fun _ _ moves => moves) fun _ _ fails => fails.stops

theorem Carries.tries {plan : List (Step α)} {ds : List (Domain α)} (h : Carries a c plan ds)
    (adds : ∀ s ∈ plan, s.Adds) (hc : c.Modifiable) (acquired : c.acquired = true) :
    Tries a c plan := by
  refine Meets.mono h (fun _ _ carried => carried.moves adds hc) fun _ _ stopped => ?_
  refine ⟨stopped.moves adds hc, fun element kind he => ?_⟩
  obtain ⟨calls, progress, ds, followed, explains, rfl⟩ := stopped
  refine ⟨calls, ?_, .aborted hc.1 rfl acquired rfl⟩
  cases progress with
  | done => exact explains.elim
  | failed =>
    obtain ⟨operation, message, native⟩ := explains
    rw [he] at native
    cases native
  | rejected element' kind' =>
    rw [Progress.Explains, he] at explains
    cases explains
    exact followed

/-- Elements are added only to an open modification. -/
theorem Carries.tries_guarded {operation : String}
    {k : Unit → SessionAction (σ × List (Call α)) α β} {plan : List (Step α)}
    {ds : List (Domain α)} (acquired : c.Modifiable → c.acquired = true)
    (adds : ∀ s ∈ plan, s.Adds)
    (h : c.Modifiable → Carries (Session.expectModifiable b.traced operation >>= k) c plan ds) :
    Tries (Session.expectModifiable b.traced operation >>= k) c plan := by
  by_cases hc : c.Modifiable
  · exact (h hc).tries adds hc (acquired hc)
  · exact Performs.tries <| Meets.bind <| Meets.expectModifiable (fun h => absurd h hc)
      fun _ e he => .refused he

namespace Tries

variable {plan : List (Step α)}

theorem bind {f : β → SessionAction (σ × List (Call α)) α γ} (ha : Tries a c plan)
    (hf : ∀ x c', Performs (f x) c') : Tries (a >>= f) c plan := by
  refine Meets.bind (Meets.mono ha (fun x c' moves => ?_) fun _ _ h => h)
  exact Meets.mono (hf x c') (fun _ _ h => moves.trans h)
    fun _ _ h => Control.Fails.stops ⟨moves.trans h.1, h.2⟩

theorem andReturn {f : β → γ} (h : Tries a c plan) :
    Tries (do return f (← a)) c plan :=
  Meets.bind (Meets.mono h (fun _ _ moves => Meets.pure moves) fun _ _ stops => stops)

section Loading

variable [Scalar α]

omit [Scalar α] in
theorem addVariable (acquired : c.Modifiable → c.acquired = true) (d : Domain α) :
    Tries (Session.addVariable b.traced d) c [.call (.addVariable d)] :=
  Carries.tries_guarded acquired (by
    intro s hs
    rw [List.mem_singleton.1 hs]
    rfl) fun h => Carries.addVariable h d

theorem addObjective (acquired : c.Modifiable → c.acquired = true) (i : Nat) (o : Objective α) :
    Tries (Session.addObjective b.traced i o) c (objectiveSteps b.acceptance i o) :=
  Carries.tries_guarded acquired adds_objectiveSteps fun h => Carries.addObjective h i o

theorem addConstraint (acquired : c.Modifiable → c.acquired = true) (i : Nat)
    (d : Constraint α) :
    Tries (Session.addConstraint b.traced i d) c (constraintSteps b.acceptance c.domains i d) :=
  Carries.tries_guarded acquired adds_constraintSteps fun h => Carries.addConstraint h i d

theorem load (acquired : c.Modifiable → c.acquired = true) (m : Problem α) :
    Tries (Session.load b.traced m) c (m.plan b.acceptance c.domains) :=
  Carries.tries_guarded acquired adds_plan fun h => Carries.load h m

end Loading

variable [Scalar α] [Numeral α]

theorem drive (m : Problem α) :
    Tries (Session.drive b.traced m) c (Operation.plan b.acceptance c.domains (.run m)) := by
  refine Meets.bind (Meets.mono meets_acquire (fun x c' opened => ?_) fun _ _ fails => fails.stops)
  have acquired : c'.acquired = true ∧ c'.domains = c.domains := by
    obtain ⟨-, r, r', -, -, rfl⟩ := opened
    exact ⟨rfl, rfl⟩
  -- only the load can meet an unsupported element, and what follows it is reached without one
  refine Meets.mono (bind (load (fun _ => acquired.1) m) fun _ c => performs_finish.bind
    fun _ c => (performs_solve.tryCatch fun e c he => ?_).bind fun _ c => performs_report)
    (fun _ _ moves => opened.moves.trans moves) fun e c' stops => ?_
  · refine Meets.bind <| Meets.getSession fun s _ => ?_
    extract_lets rethrow
    have rethrows (c : Control σ α) : Performs (rethrow ()) c := Meets.throw ⟨.refl, he⟩
    exact Meets.ite (fun _ => performs_report.bind fun _ c => rethrows c) fun _ => rethrows c
  · rw [acquired.2] at stops
    exact opened.stops stops

theorem run (m : Problem α) :
    Tries (Session.run b.traced m) c (Operation.plan b.acceptance c.domains (.run m)) := by
  refine Meets.bind <| Meets.tryCatch <| Meets.bind <| Meets.mono (drive m)
    (fun r c' moves => ?_) fun e c' stops => ?_
  · exact Meets.bind <| Meets.mono meets_settle
      (fun _ _ settled => Meets.pure <| Meets.pure (moves.trans settled.1)) fun _ _ h => h
  · exact Meets.bind <| Meets.mono meets_settle
      (fun _ _ settled => Meets.bind <| Meets.throw (stops.trans settled.1)) fun _ _ h => h

end Tries

/-- Every operation makes moves, whether it succeeds or fails. -/
theorem Operation.tries [Scalar α] [Numeral α] (keeps : c.registry.KeepsCalls)
    (acquired : c.Modifiable → c.acquired = true) (o : Operation α) :
    Tries (o.perform b.traced) c (o.plan b.acceptance c.domains) := by
  have optionFails (e : SessionError) (he : ¬e.fault.IsUnsupported) : c.Fails e c := ⟨.refl, he⟩
  cases o with
  | acquire =>
    exact Tries.andReturn <| Performs.tries <|
      Meets.mono meets_acquire (fun _ _ opened => opened.moves) fun _ _ fails => fails
  | addVariable d => exact (Tries.addVariable acquired d).andReturn
  | addObjective i o => exact (Tries.addObjective acquired i o).andReturn
  | addConstraint i d => exact (Tries.addConstraint acquired i d).andReturn
  | load m => exact (Tries.load acquired m).andReturn
  | finish => exact performs_finish.tries.andReturn
  | solve => exact performs_solve.tries.andReturn
  | report => exact performs_report.tries.andReturn
  | close => exact performs_close.tries.andReturn
  | run m => exact (Tries.run m).andReturn
  | getOption t name =>
    exact Tries.andReturn <| Performs.tries <| Meets.getOption (fun _ => .refl) optionFails
  | setOption name v =>
    exact Tries.andReturn <| Performs.tries <| Meets.setOption keeps .refl optionFails
  | applyOptions text =>
    exact Tries.andReturn <| Performs.tries <|
      Meets.applyOptions keeps (fun _ => .refl) optionFails

end SolverBridge
