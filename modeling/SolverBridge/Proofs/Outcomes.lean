import SolverBridge.Proofs.Moves

/-! Where an action ends. From a session and the stop flags there is one outcome, a result or an
error, and one session with flags that is left. The rules follow the shape of an action. Most of
what an operation does is bookkeeping or a request that is neither for the stop flag nor for a
solve, so that what survives these survives all operations once it is known to survive a solve;
what a solve does is said once, in three cases. -/

namespace SolverBridge

variable {σ α : Type}

/-- A session and the stop flags. -/
abbrev World (σ α : Type) := Session σ α × StopFlags

namespace Backend

/-- The answer to a request. -/
def answer (b : Backend σ α) (r : Request α) (w : World σ α) : r.Answer :=
  (b.perform r (w.1.solver, w.2)).1

/-- What a request leaves. -/
def asked (b : Backend σ α) (r : Request α) (w : World σ α) : World σ α :=
  ({ w.1 with solver := (b.perform r (w.1.solver, w.2)).2.1 }, (b.perform r (w.1.solver, w.2)).2.2)

theorem asked_traced_calls (b : Backend σ α) (r : Request α) (w : World (σ × List (Call α)) α) :
    (b.traced.asked r w).1.solver.2 = w.1.solver.2 ++ [⟨r, b.traced.answer r w⟩] := rfl

end Backend

/-- From this session and these flags the action ends as `Q` says, or with an error as `E`
says. -/
def Ends {β : Type} (a : SessionAction σ α β) (w : World σ α) (Q : β → World σ α → Prop)
    (E : SessionError → World σ α → Prop) : Prop :=
  match a.run w with
  | (.ok x, w') => Q x w'
  | (.error e, w') => E e w'

namespace Ends

variable {β γ : Type} {a : SessionAction σ α β} {w : World σ α} {Q : β → World σ α → Prop}
  {E : SessionError → World σ α → Prop}

/-! ### Rules -/

theorem pure {x : β} (h : Q x w) : Ends (Pure.pure x) w Q E := h

theorem throw {e : SessionError} (h : E e w) :
    Ends (MonadExcept.throw e : SessionAction σ α β) w Q E := h

theorem bind {f : β → SessionAction σ α γ} {R : γ → World σ α → Prop}
    (h : Ends a w (fun x w' => Ends (f x) w' R E) E) : Ends (a >>= f) w R E := by
  rw [Ends] at h ⊢
  rw [SessionAction.run_bind]
  rcases e : a.run w with ⟨_ | _, w'⟩ <;> rw [e] at h <;> exact h

theorem map {f : β → γ} {Q : γ → World σ α → Prop} (h : Ends a w (fun x => Q (f x)) E) :
    Ends (f <$> a) w Q E := by
  rw [map_eq_pure_bind]
  exact bind h

theorem tryCatch {f : SessionError → SessionAction σ α β}
    (h : Ends a w Q fun e w' => Ends (f e) w' Q E) : Ends (MonadExcept.tryCatch a f) w Q E := by
  rw [Ends] at h ⊢
  rw [SessionAction.run_tryCatch]
  rcases e : a.run w with ⟨_ | _, w'⟩ <;> rw [e] at h <;> exact h

theorem ite {P : Prop} [Decidable P] {a' : SessionAction σ α β} (ht : P → Ends a w Q E)
    (hf : ¬P → Ends a' w Q E) : Ends (if P then a else a') w Q E := by
  split
  · exact ht ‹_›
  · exact hf ‹_›

theorem mono {Q' : β → World σ α → Prop} {E' : SessionError → World σ α → Prop}
    (h : Ends a w Q E) (hQ : ∀ x w', Q x w' → Q' x w') (hE : ∀ e w', E e w' → E' e w') :
    Ends a w Q' E' := by
  rw [Ends] at h ⊢
  split at h
  · exact hQ _ _ h
  · exact hE _ _ h

/-- What holds of every end. -/
theorem always (hQ : ∀ x w', Q x w') (hE : ∀ e w', E e w') : Ends a w Q E := by
  rw [Ends]
  split
  · exact hQ _ _
  · exact hE _ _

/-- The end is what the run gives. -/
theorem run :
    Ends a w (fun x w' => a.run w = (.ok x, w')) fun e w' => a.run w = (.error e, w') := by
  rw [Ends]
  split <;> assumption

/-- The end of an action that succeeded. -/
theorem of_run (h : Ends a w Q E) {x : β} {w' : World σ α} (hrun : a.run w = (.ok x, w')) :
    Q x w' := by
  rw [Ends, hrun] at h
  exact h

/-- An action that does not fail. -/
theorem exists_run (h : Ends a w Q fun _ _ => False) : ∃ x w', a.run w = (.ok x, w') ∧ Q x w' := by
  rw [Ends] at h
  split at h
  · exact ⟨_, _, ‹_›, h⟩
  · exact h.elim

/-- Both ends at once. -/
theorem outcome {P : Except SessionError β → World σ α → Prop}
    (h : Ends a w (fun x => P (.ok x)) fun e => P (.error e)) : P (a.run w).1 (a.run w).2 := by
  rw [Ends] at h
  split at h <;> rename_i e <;> rw [e] <;> exact h

theorem getSession {Q : Session σ α → World σ α → Prop} (h : Q w.1 w) :
    Ends Session.getSession w Q E := h

theorem modifySession {f : Session σ α → Session σ α} {Q : Unit → World σ α → Prop}
    (h : Q () (f w.1, w.2)) : Ends (Session.modifySession f) w Q E := h

theorem request {b : Backend σ α} {r : Request α} {Q : r.Answer → World σ α → Prop}
    (h : Q (b.answer r w) (b.asked r w)) : Ends (Session.request b r) w Q E := h

theorem isStopped {Q : Bool → World σ α → Prop} (h : Q (w.2.isStopped w.1.config.stopHandle) w) :
    Ends Session.isStopped w Q E := h

theorem lowerStopFlag {Q : Unit → World σ α → Prop}
    (h : Q () (w.1, w.2.reset w.1.config.stopHandle)) : Ends Session.lowerStopFlag w Q E := h

theorem backendName {b : Backend σ α} {Q : String → World σ α → Prop}
    (h : Q (b.longName w.1.solver) w) : Ends (Session.backendName b) w Q E := h

theorem errorOf {b : Backend σ α} {fault : SessionFault} {Q : SessionError → World σ α → Prop}
    (h : Q ⟨b.longName w.1.solver, fault⟩ w) : Ends (Session.errorOf b fault) w Q E := h

theorem log {level : EventLevel} {operation : String} {fields : List (String × EventField)}
    {message : String} {Q : Unit → World σ α → Prop}
    (h : Q () ({ w.1 with events := w.1.events ++ [⟨level, operation, fields, some message⟩] },
      w.2)) : Ends (Session.log level operation fields message) w Q E := h

theorem trace {operation : String} {fields : List (String × EventField)}
    {Q : Unit → World σ α → Prop} (h : ∀ events, Q () ({ w.1 with events := events }, w.2)) :
    Ends (Session.trace operation fields) w Q E := h _

theorem now {Q : Nat → World σ α → Prop}
    (h : Q (w.1.config.clock w.1.readings) ({ w.1 with readings := w.1.readings + 1 }, w.2)) :
    Ends Session.now w Q E := h

section Checks

variable {b : Backend σ α} {operation : String}

theorem fail {fault : SessionFault} (h : E ⟨b.longName w.1.solver, fault⟩ w) :
    Ends (Session.fail b fault) w Q E := h

theorem demand {answer : Except Failure β} (hok : ∀ x, answer = .ok x → Q x w)
    (herror : ∀ f, answer = .error f →
      E ⟨b.longName w.1.solver, Session.nativeFault operation f⟩ w) :
    Ends (Session.demand b operation answer) w Q E := by
  cases answer with
  | ok x => exact hok x rfl
  | error f => exact herror f rfl

theorem expectStage {expected : Stage} {Q : Unit → World σ α → Prop}
    (hok : w.1.stage = expected → Q () w)
    (herror : w.1.stage ≠ expected →
      E ⟨b.longName w.1.solver, .lifecycle operation w.1.stage⟩ w) :
    Ends (Session.expectStage b expected operation) w Q E :=
  bind <| getSession <| ite (fun other => fail (herror other)) fun same =>
    pure (hok (Decidable.not_not.1 same))

theorem expectNotAborted {Q : Unit → World σ α → Prop} (hok : w.1.aborted = false → Q () w)
    (herror : w.1.aborted = true → E ⟨b.longName w.1.solver, .aborted operation⟩ w) :
    Ends (Session.expectNotAborted b operation) w Q E :=
  bind <| getSession <| ite (fun aborted => fail (herror aborted)) fun sound =>
    pure (hok (Bool.eq_false_iff.2 sound))

theorem expectNotClosed {Q : Unit → World σ α → Prop} (hok : w.1.stage ≠ .closed → Q () w)
    (herror : w.1.stage = .closed → E ⟨b.longName w.1.solver, .lifecycle operation .closed⟩ w) :
    Ends (Session.expectNotClosed b operation) w Q E :=
  bind <| getSession <| ite (fun closed => fail (closed ▸ herror closed)) fun running =>
    pure (hok running)

end Checks

end Ends

theorem eq_ok_of_toOption {ε β : Type} {x : Except ε β} {y : β} (h : x.toOption = some y) :
    x = .ok y := by
  cases x with
  | error => cases h
  | ok => cases h; rfl

theorem not_isOk_of_error {ε β : Type} {x : Except ε β} {e : ε} (h : x = .error e) : ¬x.isOk := by
  rw [h]
  exact Bool.false_ne_true

theorem exists_run_of_toOption {β : Type} {a : SessionAction σ α β} {w : World σ α} {x : β}
    (h : (a.run w).1.toOption = some x) : ∃ w', a.run w = (.ok x, w') :=
  ⟨(a.run w).2, Prod.ext (eq_ok_of_toOption h) rfl⟩

/-- What is made of the result does not change where an action ends. -/
theorem Session.snd_run_andReturn {β γ : Type} (a : SessionAction σ α β) (f : β → γ)
    (w : World σ α) : ((do return f (← a) : SessionAction σ α γ).run w).2 = (a.run w).2 := by
  rw [SessionAction.run_bind]
  rcases a.run w with ⟨_ | _, w'⟩ <;> rfl

/-! ### Solving -/

/-- Two sessions agree in what a request and the report of a solve depend on. -/
structure World.Agrees (w w' : World σ α) : Prop where
  solver : w'.1.solver = w.1.solver
  flags : w'.2 = w.2
  registry : w'.1.registry = w.1.registry
  config : w'.1.config = w.1.config
  solveFailure : w'.1.solveFailure = w.1.solveFailure

namespace World

/-- The stop flag is lowered. -/
def lowered (w : World σ α) : World σ α := (w.1, w.2.reset w.1.config.stopHandle)

theorem Agrees.asked {b : Backend σ α} {w w' : World σ α} (h : w.Agrees w') (r : Request α) :
    b.answer r w' = b.answer r w ∧ (b.asked r w).Agrees (b.asked r w') := by
  obtain ⟨s, flags⟩ := w
  obtain ⟨s', flags'⟩ := w'
  obtain ⟨solver, rfl, registry, config, failure⟩ := h
  dsimp only at solver registry config failure
  refine ⟨by rw [Backend.answer, Backend.answer, solver], ?_, ?_, registry, config, failure⟩
  all_goals
    dsimp only [Backend.asked]
    rw [solver]

end World

/-- A request answered as in a session that agrees. -/
theorem Ends.request_of_agrees {b : Backend σ α} {r : Request α} {v w : World σ α}
    (h : v.Agrees w) {Q : r.Answer → World σ α → Prop} {E : SessionError → World σ α → Prop}
    (hQ : ∀ w', (b.asked r v).Agrees w' → Q (b.answer r v) w') :
    Ends (Session.request b r) w Q E := by
  obtain ⟨answer, agrees⟩ := h.asked (b := b) r
  refine request ?_
  rw [answer]
  exact hQ _ agrees

/-- The failure that a session keeps of a solve. -/
def Session.notedFailure : Except Failure Unit → Option String → Option String
  | .ok _, before => before
  | .error f, _ => some f.chain

/-- What a solve does: it does not fit the session, or the backend does not take the stop flag, or
the backend solves. -/
inductive Session.SolveOutcome (b : Backend σ α) (w : World σ α) :
    Except SessionError Unit → World σ α → Prop
  | refused {e : SessionError} {w' : World σ α} (same : w.Agrees w')
      (stage : w'.1.stage = w.1.stage) : SolveOutcome b w (.error e) w'
  | unflagged {e : SessionError} {w' : World σ α} (closed : w.1.stage = .modificationClosed)
      (same : (b.asked (.takeStopFlag w.1.config.stopHandle) w.lowered).Agrees w')
      (stage : w'.1.stage = w.1.stage) : SolveOutcome b w (.error e) w'
  | solved {outcome : Except SessionError Unit} {started w' : World σ α}
      (closed : w.1.stage = .modificationClosed)
      (ready : started = w.lowered ∧ w.1.flagTaken = true ∨
        started = b.asked (.takeStopFlag w.1.config.stopHandle) w.lowered ∧ w.1.flagTaken = false)
      (same : World.Agrees
        ({ (b.asked .solve started).1 with
            solveFailure := notedFailure (b.answer .solve started) w.1.solveFailure },
          (b.asked .solve started).2) w')
      (stage : w'.1.stage = .solved)
      (answered : outcome.isOk = (b.answer .solve started).isOk) : SolveOutcome b w outcome w'

namespace Session

variable {b : Backend σ α}

/-- Handing over the stop flag changes only what the request changes. -/
theorem ends_handOverStopFlag {w v : World σ α} (hv : w.lowered = v) :
    Ends (handOverStopFlag b) v
      (fun _ w' => w'.1.stage = w.1.stage ∧ ∃ started : World σ α, started.Agrees w' ∧
        (started = w.lowered ∧ w.1.flagTaken = true ∨
          started = b.asked (.takeStopFlag w.1.config.stopHandle) w.lowered ∧
            w.1.flagTaken = false))
      (fun _ w' => w'.1.stage = w.1.stage ∧
        (b.asked (.takeStopFlag w.1.config.stopHandle) w.lowered).Agrees w') := by
  subst hv
  refine .bind <| .getSession <| .ite (fun taken => ?_) fun fresh => ?_
  · exact .pure ⟨rfl, w.lowered, ⟨rfl, rfl, rfl, rfl, rfl⟩, .inl ⟨rfl, taken⟩⟩
  · refine .bind <| .request <| .bind <| .demand (fun _ _ => ?_) fun _ _ =>
      ⟨rfl, ⟨rfl, rfl, rfl, rfl, rfl⟩⟩
    exact .modifySession ⟨rfl, b.asked (.takeStopFlag w.1.config.stopHandle) w.lowered,
      ⟨rfl, rfl, rfl, rfl, rfl⟩, .inr ⟨rfl, Bool.eq_false_iff.2 fresh⟩⟩

theorem solve_outcome (b : Backend σ α) (w : World σ α) :
    SolveOutcome b w ((solve b).run w).1 ((solve b).run w).2 := by
  refine Ends.outcome <| .bind <| .expectStage (fun closed => ?_) fun _ =>
    .refused ⟨rfl, rfl, rfl, rfl, rfl⟩ rfl
  refine .bind <| .expectNotAborted (fun _ => ?_) fun _ => .refused ⟨rfl, rfl, rfl, rfl, rfl⟩ rfl
  refine .bind <| .lowerStopFlag <| .bind <| .mono (ends_handOverStopFlag rfl) ?_
    fun _ _ h => .unflagged closed h.2 h.1
  rintro - v ⟨-, started, agrees, ready⟩
  have kept : started.1.solveFailure = w.1.solveFailure := by
    rcases ready with ⟨rfl, -⟩ | ⟨rfl, -⟩ <;> rfl
  -- the clock and the times do not change what is asked
  refine .bind <| .now <| .bind <| .modifySession <| .bind ?_
  refine .request_of_agrees (v := started) ?_ fun v' agrees' =>
    .bind <| .now <| .bind <| .modifySession ?_
  · exact ⟨agrees.solver, agrees.flags, agrees.registry, agrees.config, agrees.solveFailure⟩
  rcases answer : b.answer .solve started with f | x
  · refine .bind <| .errorOf <| .bind <| .modifySession <| .bind <| .log <| .throw ?_
    refine .solved closed ready
      ⟨agrees'.solver, agrees'.flags, agrees'.registry, agrees'.config, ?_⟩ rfl ?_
    · rw [answer]
      rfl
    · rw [answer]
      rfl
  · refine .log (.solved closed ready
      ⟨agrees'.solver, agrees'.flags, agrees'.registry, agrees'.config, ?_⟩ rfl ?_)
    · rw [answer]
      exact agrees'.solveFailure.trans kept
    · rw [answer]
      rfl

end Session

/-! ### Invariants -/

/-- What holds before the action holds after it, however it ends. -/
def Preserves {β : Type} (I : World σ α → Prop) (a : SessionAction σ α β) : Prop :=
  ∀ w, I w → I (a.run w).2

namespace Preserves

variable {β γ : Type} {a : SessionAction σ α β} {I : World σ α → Prop}

theorem of_ends (h : ∀ w, I w → Ends a w (fun _ => I) fun _ => I) : Preserves I a :=
  fun w hw => Ends.outcome (P := fun _ => I) (h w hw)

theorem ends (h : Preserves I a) {w : World σ α} (hw : I w) :
    Ends a w (fun _ => I) fun _ => I := by
  have := h w hw
  rw [Ends]
  split <;> rename_i e <;> rw [e] at this <;> exact this

theorem pure {x : β} : Preserves I (Pure.pure x) := fun _ hw => hw

theorem throw {e : SessionError} : Preserves I (MonadExcept.throw e : SessionAction σ α β) :=
  fun _ hw => hw

theorem bind {f : β → SessionAction σ α γ} (ha : Preserves I a) (hf : ∀ x, Preserves I (f x)) :
    Preserves I (a >>= f) := by
  intro w hw
  have first := ha w hw
  rw [SessionAction.run_bind]
  rcases e : a.run w with ⟨_ | x, w'⟩ <;> rw [e] at first
  · exact first
  · exact hf x w' first

theorem map {f : β → γ} (ha : Preserves I a) : Preserves I (f <$> a) := by
  rw [map_eq_pure_bind]
  exact ha.bind fun _ => pure

theorem tryCatch {f : SessionError → SessionAction σ α β} (ha : Preserves I a)
    (hf : ∀ e, Preserves I (f e)) : Preserves I (MonadExcept.tryCatch a f) := by
  intro w hw
  have first := ha w hw
  rw [SessionAction.run_tryCatch]
  rcases e : a.run w with ⟨x | _, w'⟩ <;> rw [e] at first
  · exact hf x w' first
  · exact first

theorem ite {P : Prop} [Decidable P] {a' : SessionAction σ α β} (ha : Preserves I a)
    (ha' : Preserves I a') : Preserves I (if P then a else a') := by
  split
  · exact ha
  · exact ha'

theorem getSession : Preserves I (Session.getSession (σ := σ) (α := α)) := fun _ hw => hw

theorem isStopped : Preserves I (Session.isStopped (σ := σ) (α := α)) := fun _ hw => hw

section Checks

variable {b : Backend σ α} {operation : String}

theorem backendName : Preserves I (Session.backendName b) := fun _ hw => hw

theorem fail {fault : SessionFault} : Preserves I (Session.fail b fault : SessionAction σ α β) :=
  fun _ hw => hw

theorem errorOf {fault : SessionFault} : Preserves I (Session.errorOf b fault) := fun _ hw => hw

theorem demand {answer : Except Failure β} : Preserves I (Session.demand b operation answer) := by
  cases answer with
  | ok => exact pure
  | error => exact fail

theorem expectStage {expected : Stage} : Preserves I (Session.expectStage b expected operation) :=
  getSession.bind fun _ => ite fail pure

theorem expectNotAborted : Preserves I (Session.expectNotAborted b operation) :=
  getSession.bind fun _ => ite fail pure

theorem expectModifiable : Preserves I (Session.expectModifiable b operation) :=
  expectStage.bind fun _ => expectNotAborted

theorem expectNotClosed : Preserves I (Session.expectNotClosed b operation) :=
  getSession.bind fun _ => ite fail pure

theorem getOption {t : OptionType} {name : String} :
    Preserves I (Session.getOption b t name) := by
  refine expectNotClosed.bind fun _ => getSession.bind fun s => ?_
  split
  · exact pure
  · exact fail

end Checks

end Preserves

/-- The operation sets options. -/
def Operation.SetsOptions : Operation α → Prop
  | .setOption _ _ | .applyOptions _ => True
  | _ => False

/-- The operation ends the session. -/
def Operation.Closes : Operation α → Prop
  | .close | .run _ => True
  | _ => False

/-- The request is neither for the stop flag nor for a solve. -/
def Request.IsPlain (r : Request α) : Prop := r.role ≠ .flag ∧ r.role ≠ .solve

/-- Two sessions differ in bookkeeping only, and the second is not closed unless the first is. -/
structure Session.Booked (s s' : Session σ α) : Prop where
  solver : s'.solver = s.solver
  registry : s'.registry = s.registry
  config : s'.config = s.config
  solveFailure : s'.solveFailure = s.solveFailure
  running : s.stage ≠ .closed → s'.stage ≠ .closed

/-- What holds survives bookkeeping and plain requests. -/
structure Survives (b : Backend σ α) (I : World σ α → Prop) : Prop where
  booked : ∀ {s s' : Session σ α} {flags : StopFlags}, s.Booked s' → I (s, flags) → I (s', flags)
  asked : ∀ {r : Request α} {w : World σ α}, r.IsPlain → I w → I (b.asked r w)

/-- What holds still holds when the session is closed. -/
def HoldsClosed (I : World σ α → Prop) : Prop :=
  ∀ s flags, I (s, flags) → I ({ s with stage := .closed }, flags)

/-- The backend can always be acquired. -/
def Backend.Opens (b : Backend σ α) : Prop :=
  ∀ w : World σ α, (b.answer .acquire w).isOk ∧ (b.answer .beginModification w).isOk

namespace Survives

variable {β : Type} {b : Backend σ α} {I : World σ α → Prop}

theorem modifySession (h : Survives b I) {f : Session σ α → Session σ α}
    (hf : ∀ s : Session σ α, s.Booked (f s)) : Preserves I (Session.modifySession f) :=
  fun w hw => h.booked (hf w.1) hw

theorem request (h : Survives b I) {r : Request α} (hr : r.IsPlain) :
    Preserves I (Session.request b r) := fun _ hw => h.asked hr hw

theorem emit (h : Survives b I) {e : Event} : Preserves I (Session.emit e) :=
  h.modifySession fun _ => ⟨rfl, rfl, rfl, rfl, id⟩

theorem log (h : Survives b I) {level : EventLevel} {operation : String}
    {fields : List (String × EventField)} {message : String} :
    Preserves I (Session.log level operation fields message) := h.emit

theorem deliver (h : Survives b I) {d : Delivery α} : Preserves I (Session.deliver d) :=
  h.modifySession fun _ => ⟨rfl, rfl, rfl, rfl, id⟩

theorem now (h : Survives b I) : Preserves I Session.now :=
  .bind .getSession fun _ => .bind (h.modifySession fun _ => ⟨rfl, rfl, rfl, rfl, id⟩) fun _ =>
    .pure

theorem abort (h : Survives b I) {fault : SessionFault} :
    Preserves I (Session.abort b fault : SessionAction _ α β) :=
  .bind .errorOf fun _ => .bind (h.modifySession fun _ => ⟨rfl, rfl, rfl, rfl, id⟩) fun _ =>
    .bind h.log fun _ => .throw

theorem post (h : Survives b I) {operation : String} {answer : Except Failure Unit} :
    Preserves I (Session.post b operation answer) := by
  cases answer with
  | ok => exact .pure
  | error => exact h.abort

section Closing

theorem release (h : Survives b I) (closes : HoldsClosed I) : Preserves I (Session.release b) := by
  refine .bind .getSession fun s => ?_
  extract_lets close
  have closed : Preserves I (close ()) := fun w hw => closes w.1 w.2 hw
  refine .ite (.bind (h.request ⟨nofun, nofun⟩) fun _ => ?_) closed
  exact .bind (h.modifySession fun _ => ⟨rfl, rfl, rfl, rfl, id⟩) fun _ =>
    .bind .backendName fun _ => .bind h.log fun _ => closed

/-- The session is only closed when the backend could not be acquired. -/
theorem acquire (h : Survives b I) (closes : ¬b.Opens → HoldsClosed I) :
    Preserves I (Session.acquire b) := by
  refine .bind .expectStage fun _ => .bind h.now fun _ =>
    .bind (h.modifySession fun _ => ⟨rfl, rfl, rfl, rfl, id⟩) fun _ => .of_ends fun w hw =>
    .bind <| .request <| Preserves.ends ?_ (h.asked (r := .acquire) ⟨nofun, nofun⟩ hw)
  split
  · rename_i f refused
    have closed := closes fun opens => not_isOk_of_error refused (opens w).1
    exact .bind (fun w hw => closed w.1 w.2 hw) fun _ => .bind .errorOf fun _ =>
      .bind h.log fun _ => .throw
  · refine .bind (h.modifySession fun _ => ⟨rfl, rfl, rfl, rfl, id⟩) fun _ => .of_ends fun w hw =>
      .bind <| .request <| Preserves.ends ?_ (h.asked (r := .beginModification) ⟨nofun, nofun⟩ hw)
    split
    · rename_i f refused
      have closed := closes fun opens => not_isOk_of_error refused (opens w).2
      exact .bind .errorOf fun _ => .bind h.log fun _ => .bind (h.release closed) fun _ => .throw
    · exact .bind (h.modifySession fun _ => ⟨rfl, rfl, rfl, rfl, fun _ => nofun⟩) fun _ =>
        .bind .backendName fun _ => h.log

theorem settle (h : Survives b I) (closes : HoldsClosed I) : Preserves I (Session.settle b) :=
  .bind .getSession fun _ => .ite .pure (h.release closes)

end Closing

section Loading

variable [Scalar α]

omit [Scalar α] in
theorem addVariable (h : Survives b I) (d : Domain α) :
    Preserves I (Session.addVariable b d) :=
  .bind .expectModifiable fun _ => .bind (h.request ⟨nofun, nofun⟩) fun _ =>
    .bind h.post fun _ => .bind .getSession fun _ =>
    .bind (h.modifySession fun _ => ⟨rfl, rfl, rfl, rfl, id⟩) fun _ => .bind h.emit fun _ => .pure

omit [Scalar α] in
theorem rejectElement (h : Survives b I) {element : Element} {kind : Kind} :
    Preserves I (Session.rejectElement b element kind) :=
  .bind .getSession fun _ => .ite
    (.bind h.log fun _ => h.modifySession fun _ => ⟨rfl, rfl, rfl, rfl, id⟩) h.abort

theorem addObjective (h : Survives b I) (i : Nat) (o : Objective α) :
    Preserves I (Session.addObjective b i o) := by
  refine .bind .expectModifiable fun _ => ?_
  dsimp only
  split
  · exact h.rejectElement
  · exact .bind h.emit fun _ => .bind (h.request ⟨nofun, nofun⟩) fun _ => h.post

omit [Scalar α] in
theorem postPieces (h : Survives b I) (pieces : List (FlatConstraint α)) :
    Preserves I (Session.postPieces b pieces) := by
  induction pieces with
  | nil => exact .pure
  | cons c rest ih =>
    exact .bind (h.request ⟨nofun, nofun⟩) fun _ => .bind h.post fun _ => ih

theorem addConstraint (h : Survives b I) (i : Nat) (c : Constraint α) :
    Preserves I (Session.addConstraint b i c) := by
  refine .bind .expectModifiable fun _ => .bind (h.request ⟨nofun, nofun⟩) fun _ =>
    .bind .getSession fun s => ?_
  split
  · exact h.rejectElement
  · exact .bind h.emit fun _ => h.postPieces _

omit [Scalar α] in
theorem addVariables (h : Survives b I) (ds : List (Domain α)) :
    Preserves I (Session.addVariables b ds) := by
  induction ds with
  | nil => exact .pure
  | cons d rest ih => exact .bind (h.addVariable d) fun _ => ih

theorem addObjectives (h : Survives b I) (i : Nat) (os : List (Objective α)) :
    Preserves I (Session.addObjectives b i os) := by
  induction os generalizing i with
  | nil => exact .pure
  | cons o rest ih => exact .bind (h.addObjective i o) fun _ => ih (i + 1)

theorem addConstraints (h : Survives b I) (i : Nat) (cs : List (Constraint α)) :
    Preserves I (Session.addConstraints b i cs) := by
  induction cs generalizing i with
  | nil => exact .pure
  | cons c rest ih => exact .bind (h.addConstraint i c) fun _ => ih (i + 1)

theorem load (h : Survives b I) (m : Problem α) : Preserves I (Session.load b m) :=
  .bind .expectModifiable fun _ => .bind h.now fun _ => .bind (h.addVariables _) fun _ =>
    .bind (h.addObjectives _ _) fun _ => .bind (h.addConstraints _ _) fun _ =>
    .bind h.now fun _ => .bind .getSession fun _ => h.log

end Loading

theorem finish (h : Survives b I) : Preserves I (Session.finish b) := by
  refine .bind .expectModifiable fun _ => .bind (h.request ⟨nofun, nofun⟩) fun _ =>
    .bind h.post fun _ => .bind .getSession fun _ => ?_
  extract_lets file close warn
  have closes (x : Unit) : Preserves I (close x) :=
    .bind (h.modifySession fun _ => ⟨rfl, rfl, rfl, rfl, fun _ => nofun⟩) fun _ => h.log
  have warns (x : Unit) : Preserves I (warn x) :=
    .bind .getSession fun _ => .ite (closes ()) (.bind h.log closes)
  exact .ite (warns ()) <| .bind (h.request ⟨nofun, nofun⟩) fun _ => .bind h.post fun _ =>
    .bind h.log warns

section Reporting

theorem verdict (h : Survives b I) : Preserves I (Session.verdict b) := by
  refine .bind .isStopped fun _ => .ite .pure <| .bind .getSession fun s => ?_
  split
  · exact .pure
  · exact .bind (h.request ⟨nofun, nofun⟩) fun _ => .bind .demand fun _ =>
      .bind .isStopped fun _ => .bind (h.request ⟨nofun, nofun⟩) fun _ => .pure

theorem readSolution (h : Survives b I) {status : SolveStatus} {mixedInteger : Bool} :
    Preserves I (Session.readSolution b status mixedInteger) := by
  refine .ite (.bind (h.request ⟨nofun, nofun⟩) fun _ => .bind .demand fun primal => ?_) .pure
  extract_lets readRest
  have reads (dual : Option (List α)) : Preserves I (readRest dual) := by
    refine .bind (h.request ⟨nofun, nofun⟩) fun n => ?_
    extract_lets finish
    have finishes (x : Option α) : Preserves I (finish x) := .pure
    exact .ite
      (.bind (h.request ⟨nofun, nofun⟩) fun _ => .bind .demand fun _ => .bind .pure finishes)
      (.bind .pure finishes)
  exact .ite (.bind .pure reads) <| .bind (h.request ⟨nofun, nofun⟩) fun _ => .bind .demand fun _ =>
    .bind .pure reads

theorem reportIis (h : Survives b I) {options : BaseOptions} {status : SolveStatus} :
    Preserves I (Session.reportIis b options status) := by
  refine .ite (.bind (h.request ⟨nofun, nofun⟩) fun answer => ?_) .pure
  split
  · exact .bind h.deliver fun _ => h.deliver
  · exact h.log

theorem reportGap [Scalar α] (h : Survives b I) {options : BaseOptions} {mixedInteger : Bool} :
    Preserves I (Session.reportGap b options mixedInteger) := by
  refine .ite (.bind (h.request ⟨nofun, nofun⟩) fun gap => ?_) .pure
  extract_lets _ deliverRest
  have delivers (x : Unit) : Preserves I (deliverRest x) := .ite h.deliver .pure
  exact .ite (.bind (h.request ⟨nofun, nofun⟩) fun _ => .bind h.deliver delivers) (delivers ())

variable [Scalar α] [Numeral α]

theorem readResults (h : Survives b I) {status : SolveStatus} :
    Preserves I (Session.readResults b status) := by
  refine .bind .getSession fun s => .ite .pure ?_
  refine .bind (h.request ⟨nofun, nofun⟩) fun mixedInteger => .bind h.readSolution fun reading => ?_
  extract_lets finish
  have finishes (nodes : Option Nat) : Preserves I (finish nodes) :=
    .bind (h.request ⟨nofun, nofun⟩) fun _ => .bind .getSession fun _ => .bind h.reportIis fun _ =>
      .bind h.reportGap fun _ => .pure
  exact .ite (.bind (.map (h.request ⟨nofun, nofun⟩)) finishes) (.bind .pure finishes)

theorem report (h : Survives b I) : Preserves I (Session.report b) := by
  refine .bind .expectStage fun _ => .bind h.verdict fun v => .bind .backendName fun _ =>
    .bind h.readResults fun reading => .bind h.deliver fun _ => .bind h.now fun _ =>
    .bind (h.modifySession fun _ => ⟨rfl, rfl, rfl, rfl, id⟩) fun _ => .bind .getSession fun _ => ?_
  extract_lets close
  have closes (x : Unit) : Preserves I (close x) :=
    .bind (h.modifySession fun _ => ⟨rfl, rfl, rfl, rfl, fun _ => nofun⟩) fun _ =>
      .bind h.log fun _ => .pure
  exact .ite (.bind h.deliver closes) (closes ())

end Reporting

section Operations

variable [Scalar α] [Numeral α]

/-- The steps of a run keep what a solve keeps. -/
theorem drive (h : Survives b I) (hsolve : Preserves I (Session.solve b))
    (closes : ¬b.Opens → HoldsClosed I) (m : Problem α) : Preserves I (Session.drive b m) := by
  refine .bind (h.acquire closes) fun _ => .bind (h.load m) fun _ => .bind h.finish fun _ =>
    .bind (.tryCatch hsolve fun e => .bind .getSession fun s => ?_) fun _ => h.report
  exact .ite (.bind h.report fun _ => .throw) .throw

theorem run (h : Survives b I) (hsolve : Preserves I (Session.solve b)) (closes : HoldsClosed I)
    (m : Problem α) : Preserves I (Session.run b m) := by
  have settles := h.settle closes
  refine .bind (.tryCatch ?_ fun _ => .bind settles fun _ => .bind .throw fun _ => .pure)
    fun x => ?_
  · exact .bind (h.drive hsolve (fun _ => closes) m) fun _ => .bind settles fun _ => .pure
  · cases x <;> exact .pure

/-- What survives bookkeeping, plain requests and solves survives all operations that set no option,
if it survives the end of the session where that is reached. -/
theorem operation (h : Survives b I) (hsolve : Preserves I (Session.solve b)) {o : Operation α}
    (sets : ¬o.SetsOptions) (closes : o.Closes ∨ ¬b.Opens → HoldsClosed I) :
    Preserves I (o.perform b) := by
  cases o with
  | acquire => exact .bind (h.acquire fun refuses => closes (.inr refuses)) fun _ => .pure
  | addVariable d => exact .bind (h.addVariable d) fun _ => .pure
  | addObjective i o => exact .bind (h.addObjective i o) fun _ => .pure
  | addConstraint i c => exact .bind (h.addConstraint i c) fun _ => .pure
  | load m => exact .bind (h.load m) fun _ => .pure
  | finish => exact .bind h.finish fun _ => .pure
  | solve => exact .bind hsolve fun _ => .pure
  | report => exact .bind h.report fun _ => .pure
  | close =>
    exact .bind (.bind .expectNotClosed fun _ => h.release (closes (.inl trivial))) fun _ => .pure
  | run m => exact .bind (h.run hsolve (closes (.inl trivial)) m) fun _ => .pure
  | getOption t name => exact .bind .getOption fun _ => .pure
  | setOption => exact absurd trivial sets
  | applyOptions => exact absurd trivial sets

end Operations

end Survives

/-! ### Traced backends -/

/-- Two sessions differ in bookkeeping and in the state of the backend only. -/
structure Session.Alike (s s' : Session (σ × List (Call α)) α) : Prop where
  calls : s'.solver.2 = s.solver.2
  registry : s'.registry = s.registry
  config : s'.config = s.config
  solveFailure : s'.solveFailure = s.solveFailure

/-- What holds depends on the calls alone and survives plain requests. -/
structure Endures (b : Backend σ α) (I : World (σ × List (Call α)) α → Prop) : Prop
    extends Survives b.traced I where
  alike : ∀ {s s' : Session (σ × List (Call α)) α} {flags : StopFlags}, s.Alike s' →
    I (s, flags) → I (s', flags)
  keeps : ∀ {w}, I w → w.1.registry.KeepsCalls
  booked same :=
    alike ⟨congrArg Prod.snd same.solver, same.registry, same.config, same.solveFailure⟩

namespace Endures

variable {b : Backend σ α} {I : World (σ × List (Call α)) α → Prop}

theorem closed (h : Endures b I) : HoldsClosed I := fun _ _ => h.alike ⟨rfl, rfl, rfl, rfl⟩

theorem acquire (h : Endures b I) : Preserves I (Session.acquire b.traced) :=
  h.toSurvives.acquire fun _ => h.closed

theorem settle (h : Endures b I) : Preserves I (Session.settle b.traced) :=
  h.toSurvives.settle h.closed

theorem setOption (h : Endures b I) {name : String} {v : OptionValue} :
    Preserves I (Session.setOption b.traced name v) := by
  refine .bind .expectNotClosed fun _ => .bind h.emit fun _ => .of_ends fun w hw => ?_
  refine .bind <| .getSession ?_
  split
  · rename_i solver set
    exact .modifySession (h.alike ⟨(h.keeps hw).set set, rfl, rfl, rfl⟩ hw)
  · exact .fail hw

theorem applyOptions (h : Endures b I) {text : String} :
    Preserves I (Session.applyOptions b.traced text) := by
  refine .bind .expectNotClosed fun _ => .of_ends fun w hw => .bind <| .getSession ?_
  have kept : (w.1.registry.applyText w.1.solver text).2.2 = w.1.solver.2 :=
    (h.keeps hw).applyText text
  generalize w.1.registry.applyText w.1.solver text = applied at kept
  refine .bind <| .modifySession <| Preserves.ends ?_ (h.alike ⟨kept, rfl, rfl, rfl⟩ hw)
  cases applied.1 with
  | ok count => exact .bind h.log fun _ => .pure
  | error e => exact .fail

/-- What survives bookkeeping, plain requests and solves survives all operations. -/
theorem operation [Scalar α] [Numeral α] (h : Endures b I)
    (hsolve : Preserves I (Session.solve b.traced)) (o : Operation α) :
    Preserves I (o.perform b.traced) := by
  by_cases sets : o.SetsOptions
  · cases o with
    | setOption name v => exact .bind h.setOption fun _ => .pure
    | applyOptions text => exact .bind h.applyOptions fun _ => .pure
    | _ => exact sets.elim
  · exact h.toSurvives.operation hsolve sets fun _ => h.closed

end Endures

end SolverBridge
