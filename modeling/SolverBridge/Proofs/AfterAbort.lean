import SolverBridge.Proofs.Refusals

/-! What a session answers after its modification was aborted. A step of the modification that
fails because of an element or of the backend leaves the modification open and marks it aborted,
and the mark is never taken back: the operations that look at the mark refuse, and those that do
not look at it change neither the stage nor the mark, until the session is closed. A solve looks
at the stage before it looks at the mark, and the stage after an abort is still that of an open
modification; so the mark is not what a solve complains about. -/

namespace SolverBridge

variable {σ α : Type}

/-- An element that is not supported, or a failure of the backend. -/
def SessionFault.Stops : SessionFault → Prop
  | .unsupported _ _ | .native _ _ => True
  | _ => False

theorem SessionFault.Stops.not_isRefusal {fault : SessionFault} (h : fault.Stops) :
    ¬fault.IsRefusal := by
  cases fault with
  | unsupported => exact id
  | native => exact id
  | _ => exact h.elim

/-- The operation is a step of the modification. -/
def Operation.IsStep : Operation α → Prop
  | .addVariable _ | .addObjective _ _ | .addConstraint _ _ | .load _ | .finish => True
  | _ => False

theorem Operation.IsStep.check {o : Operation α} (h : o.IsStep) :
    o.check = .soundIn .modificationOpen := by
  cases o with
  | addVariable => rfl
  | addObjective => rfl
  | addConstraint => rfl
  | load => rfl
  | finish => rfl
  | _ => exact h.elim

theorem Operation.IsStep.single {o : Operation α} (h : o.IsStep) (m : Problem α) :
    o ≠ .run m := by
  rintro rfl
  exact h

namespace World

/-- The modification is open, and marked as aborted. -/
def Aborted (w : World σ α) : Prop := w.1.stage = .modificationOpen ∧ w.1.aborted = true

/-- The session is over for the modification: aborted, or closed. -/
def Spent (w : World σ α) : Prop := w.Aborted ∨ w.1.stage = .closed

end World

/-! ### A step that fails aborts -/

/-- The action leaves the modification open, and marks it aborted if it fails. -/
def AbortsOnFailure {β : Type} (a : SessionAction σ α β) (w : World σ α) : Prop :=
  Ends a w (fun _ w' => w'.Modifiable) fun _ w' => w'.Aborted

namespace AbortsOnFailure

variable {β γ : Type} {b : Backend σ α} {w : World σ α}

/-- What follows an action that left the modification open. -/
theorem seq {a : SessionAction σ α β} {f : β → SessionAction σ α γ} {Q : γ → World σ α → Prop}
    (ha : AbortsOnFailure a w)
    (hf : ∀ x w', w'.Modifiable → Ends (f x) w' Q fun _ w' => w'.Aborted) :
    Ends (a >>= f) w Q fun _ w' => w'.Aborted :=
  .bind <| .mono ha hf fun _ _ h => h

theorem pure (h : w.Modifiable) {x : β} : AbortsOnFailure (Pure.pure x) w := Ends.pure h

theorem expectModifiable (h : w.Modifiable) {operation : String} :
    AbortsOnFailure (Session.expectModifiable b operation) w := Ends.expectModifiable h h

theorem request (h : w.Modifiable) (r : Request α) : AbortsOnFailure (Session.request b r) w :=
  Ends.request h

theorem getSession (h : w.Modifiable) :
    AbortsOnFailure (Session.getSession (σ := σ) (α := α)) w := Ends.getSession h

theorem now (h : w.Modifiable) : AbortsOnFailure (Session.now (σ := σ) (α := α)) w := Ends.now h

theorem trace (h : w.Modifiable) {operation : String} {fields : List (String × EventField)} :
    AbortsOnFailure (Session.trace operation fields) w := Ends.trace fun _ => h

theorem log (h : w.Modifiable) {level : EventLevel} {operation : String}
    {fields : List (String × EventField)} {message : String} :
    AbortsOnFailure (Session.log level operation fields message) w := Ends.log h

theorem abort (h : w.Modifiable) {fault : SessionFault} :
    AbortsOnFailure (Session.abort b fault : SessionAction σ α β) w :=
  Ends.abort fun _ => ⟨h.1, rfl⟩

theorem post (h : w.Modifiable) {operation : String} {answer : Except Failure Unit} :
    AbortsOnFailure (Session.post b operation answer) w := by
  cases answer with
  | ok => exact pure h
  | error => exact abort h

theorem rejectElement (h : w.Modifiable) {element : Element} {kind : Kind} :
    AbortsOnFailure (Session.rejectElement b element kind) w :=
  .bind <| .getSession <| .ite (fun _ => .bind <| .log <| .modifySession h) fun _ => abort h

theorem addVariable (h : w.Modifiable) (d : Domain α) :
    AbortsOnFailure (Session.addVariable b d) w := by
  refine seq (expectModifiable h) fun _ _ h => seq (request h _) fun _ _ h => ?_
  refine seq (post h) fun _ w' h => ?_
  exact .bind <| .getSession <| .bind <| .modifySession <| .bind <| .trace fun _ => .pure h

theorem postPieces (h : w.Modifiable) (pieces : List (FlatConstraint α)) :
    AbortsOnFailure (Session.postPieces b pieces) w := by
  induction pieces generalizing w with
  | nil => exact pure h
  | cons d rest ih => exact seq (request h _) fun _ _ h => seq (post h) fun _ _ h => ih h

theorem addVariables (h : w.Modifiable) (ds : List (Domain α)) :
    AbortsOnFailure (Session.addVariables b ds) w := by
  induction ds generalizing w with
  | nil => exact pure h
  | cons d rest ih => exact seq (addVariable h d) fun _ _ h => ih h

variable [Scalar α]

theorem addObjective (h : w.Modifiable) (i : Nat) (o : Objective α) :
    AbortsOnFailure (Session.addObjective b i o) w := by
  refine seq (expectModifiable h) fun _ _ h => ?_
  cases resolveObjective b.acceptance (classifyObjective o) with
  | error u => exact rejectElement h
  | ok flat => exact seq (trace h) fun _ _ h => seq (request h _) fun _ _ h => post h

theorem addConstraint (h : w.Modifiable) (i : Nat) (d : Constraint α) :
    AbortsOnFailure (Session.addConstraint b i d) w := by
  refine seq (expectModifiable h) fun _ _ h => seq (request h _) fun _ _ h => ?_
  refine seq (getSession h) fun s _ h => ?_
  cases resolveConstraint b.acceptance s.domains (classifyConstraint d) with
  | error u => exact rejectElement h
  | ok pieces => exact seq (trace h) fun _ _ h => postPieces h pieces

theorem addObjectives (h : w.Modifiable) (i : Nat) (os : List (Objective α)) :
    AbortsOnFailure (Session.addObjectives b i os) w := by
  induction os generalizing i w with
  | nil => exact pure h
  | cons o rest ih => exact seq (addObjective h i o) fun _ _ h => ih h (i + 1)

theorem addConstraints (h : w.Modifiable) (i : Nat) (ds : List (Constraint α)) :
    AbortsOnFailure (Session.addConstraints b i ds) w := by
  induction ds generalizing i w with
  | nil => exact pure h
  | cons d rest ih => exact seq (addConstraint h i d) fun _ _ h => ih h (i + 1)

theorem load (h : w.Modifiable) (m : Problem α) : AbortsOnFailure (Session.load b m) w := by
  refine seq (expectModifiable h) fun _ _ h => seq (now h) fun _ _ h => ?_
  refine seq (addVariables h _) fun _ _ h => seq (addObjectives h 0 _) fun _ _ h => ?_
  refine seq (addConstraints h 0 _) fun _ _ h => seq (now h) fun _ _ h => ?_
  exact seq (getSession h) fun _ _ h => log h

omit [Scalar α] in
/-- The end of the modification aborts it if it fails. -/
theorem ends_finish (h : w.Modifiable) :
    Ends (Session.finish b) w (fun _ _ => True) fun _ w' => w'.Aborted := by
  refine seq (expectModifiable h) fun _ _ h => seq (request h _) fun _ _ h => ?_
  refine seq (post h) fun _ _ h => seq (getSession h) fun _ w₁ h => ?_
  extract_lets file close warn
  -- nothing fails once the backend has answered
  have closes (w' : World σ α) :
      Ends (close ()) w' (fun _ _ => True) fun _ w' => w'.Aborted :=
    .bind <| .modifySession <| .log trivial
  have warns (w' : World σ α) : Ends (warn ()) w' (fun _ _ => True) fun _ w' => w'.Aborted :=
    .bind <| .getSession <| .ite (fun _ => closes w') fun _ => .bind <| .log <| closes _
  exact .ite (fun _ => warns w₁) fun _ => seq (request h _) fun _ _ h => seq (post h) fun _ _ h =>
    seq (log h) fun _ _ _ => warns _

end AbortsOnFailure

namespace Operation

variable [Scalar α] [Numeral α] {b : Backend σ α}

/-- A step of the modification that fails without being refused aborts the modification. -/
theorem IsStep.aborted {o : Operation α} (step : o.IsStep) {w w' : World σ α} {e : SessionError}
    (run : (o.perform b).run w = (.error e, w')) (stops : e.fault.Stops) : w'.Aborted := by
  have accepted : w.Modifiable := by
    have ends := ends_refusal b step.single w
    rw [Ends, run] at ends
    rcases ends with ⟨refusal, -⟩ | ⟨-, passes⟩
    · exact absurd refusal stops.not_isRefusal
    · rw [refusal?, step.check] at passes
      exact Check.passes_of_refusal? passes
  have fails {β : Type} {a : SessionAction σ α β} {f : β → Reply α} {Q : β → World σ α → Prop}
      (h : Ends a w Q fun _ w' => w'.Aborted) (same : o.perform b = do return f (← a)) :
      w'.Aborted := by
    have ends : Ends (o.perform b) w (fun _ _ => True) fun _ w' => w'.Aborted := by
      rw [same]
      exact .bind <| .mono h (fun _ _ _ => .pure trivial) fun _ _ h => h
    rw [Ends, run] at ends
    exact ends
  cases o with
  | addVariable d => exact fails (AbortsOnFailure.addVariable accepted d) rfl
  | addObjective i o =>
    exact fails (f := fun _ => .done) (AbortsOnFailure.addObjective accepted i o) rfl
  | addConstraint i d =>
    exact fails (f := fun _ => .done) (AbortsOnFailure.addConstraint accepted i d) rfl
  | load m => exact fails (f := fun _ => .done) (AbortsOnFailure.load accepted m) rfl
  | finish => exact fails (f := fun _ => .done) (AbortsOnFailure.ends_finish accepted) rfl
  | _ => exact step.elim

end Operation

/-! ### What comes after an abort -/

namespace Operation

variable [Scalar α] [Numeral α] {b : Backend σ α} {w : World σ α}

theorem run_of_refusal {o : Operation α} (single : ∀ m, o ≠ .run m) {fault : SessionFault}
    (h : o.refusal? w.1 = some fault) :
    (o.perform b).run w = (.error ⟨b.longName w.1.solver, fault⟩, w) :=
  ((run_eq_refusal_iff b single w w ⟨_, fault⟩).2 ⟨h, rfl, rfl⟩).1

end Operation

namespace World.Aborted

variable {w : World σ α}

theorem refusal_step (h : w.Aborted) {o : Operation α} (step : o.IsStep) :
    o.refusal? w.1 = some (.aborted o.title) := by
  rw [Operation.refusal?, step.check, h.1, h.2]
  rfl

/-- A solve is refused because of the stage. -/
theorem refusal_solve (h : w.Aborted) :
    Operation.solve.refusal? w.1 = some (.lifecycle "solve" .modificationOpen) := by
  rw [Operation.refusal?, h.1]
  rfl

end World.Aborted

namespace World.Spent

variable {w : World σ α}

theorem stage_ne (h : w.Spent) {stage : Stage} (notOpen : stage ≠ .modificationOpen)
    (notClosed : stage ≠ .closed) : w.1.stage ≠ stage := by
  rcases h with aborted | closed
  · rw [aborted.1]
    exact notOpen.symm
  · rw [closed]
    exact notClosed.symm

theorem exists_refusal (h : w.Spent) {o : Operation α} (step : o.IsStep) :
    ∃ fault, o.refusal? w.1 = some fault := by
  rcases h with aborted | closed
  · exact ⟨_, aborted.refusal_step step⟩
  · refine ⟨.lifecycle o.title .closed, ?_⟩
    rw [Operation.refusal?, step.check, closed]
    rfl

end World.Spent

namespace Session

variable {b : Backend σ α}

theorem preserves_spent_release : Preserves World.Spent (release b) :=
  .of_ends fun w _ => .mono (ends_release b w) (fun _ _ h => .inr h.1) fun _ _ h => h.elim

theorem preserves_spent_expectStage {β : Type} {expected : Stage} {operation : String}
    {f : Unit → SessionAction σ α β} (notOpen : expected ≠ .modificationOpen)
    (notClosed : expected ≠ .closed) :
    Preserves World.Spent (expectStage b expected operation >>= f) :=
  .of_ends fun _ h => .bind <| .expectStage (fun same => absurd same (h.stage_ne notOpen notClosed))
    fun _ => h

theorem preserves_spent_setOption {name : String} {v : OptionValue} :
    Preserves World.Spent (setOption b name v) := by
  refine .bind .expectNotClosed fun _ => .of_ends fun w h => ?_
  refine .bind <| .trace fun _ => .bind <| .getSession ?_
  split
  · exact .modifySession h
  · exact .fail h

theorem preserves_spent_applyOptions {text : String} :
    Preserves World.Spent (applyOptions b text) := by
  refine .bind .expectNotClosed fun _ => .of_ends fun w h => .bind <| .getSession ?_
  generalize w.1.registry.applyText w.1.solver text = applied
  refine .bind <| .modifySession ?_
  cases applied.1 with
  | ok count => exact .bind <| .log <| .pure h
  | error e => exact .fail h

variable [Scalar α] [Numeral α]

/-- A run cannot begin, and closes the session. -/
theorem preserves_spent_run {m : Problem α} : Preserves World.Spent (run b m) := by
  have settles : Preserves World.Spent (settle b) :=
    .of_ends fun w _ => .mono (ends_settle b w) (fun _ _ h => .inr h.1) fun _ _ h => h.elim
  have drives : Preserves World.Spent (drive b m) := by
    rw [drive, acquire, bind_assoc]
    exact preserves_spent_expectStage nofun nofun
  refine .bind (.tryCatch ?_ fun _ => .bind settles fun _ => .bind .throw fun _ => .pure)
    fun x => ?_
  · exact .bind drives fun _ => .bind settles fun _ => .pure
  · cases x <;> exact .pure

end Session

/-- Whatever is asked of a session that was aborted or closed, it stays so. -/
theorem Operation.preserves_spent [Scalar α] [Numeral α] (b : Backend σ α) (o : Operation α) :
    Preserves World.Spent (o.perform b) := by
  have step (step : o.IsStep) : Preserves World.Spent (o.perform b) := fun w h => by
    obtain ⟨fault, refused⟩ := h.exists_refusal step
    rw [run_of_refusal step.single refused]
    exact h
  cases o with
  | addVariable => exact step trivial
  | addObjective => exact step trivial
  | addConstraint => exact step trivial
  | load => exact step trivial
  | finish => exact step trivial
  | acquire => exact .bind (Session.preserves_spent_expectStage nofun nofun) fun _ => .pure
  | solve => exact .bind (Session.preserves_spent_expectStage nofun nofun) fun _ => .pure
  | report => exact .bind (Session.preserves_spent_expectStage nofun nofun) fun _ => .pure
  | close =>
    exact .bind (.bind .expectNotClosed fun _ => Session.preserves_spent_release) fun _ => .pure
  | run => exact .bind Session.preserves_spent_run fun _ => .pure
  | getOption =>
    refine .bind (.bind .expectNotClosed fun _ => .bind .getSession fun _ => ?_) fun _ => .pure
    split
    · exact .pure
    · exact .fail
  | setOption => exact .bind Session.preserves_spent_setOption fun _ => .pure
  | applyOptions => exact .bind Session.preserves_spent_applyOptions fun _ => .pure

theorem Session.performAll_spent [Scalar α] [Numeral α] (b : Backend σ α) (ops : List (Operation α))
    {w : World σ α} (h : w.Spent) : World.Spent (Session.performAll b ops w) := by
  induction ops generalizing w with
  | nil => exact h
  | cons o rest ih => exact ih (o.preserves_spent b w h)

/-- After a step of the modification that failed because of an element or of the backend, and until
the session is closed, every step of the modification is refused as aborted, whatever else was
asked in between. A solve is refused too, but because the modification is still open. What is
refused changes nothing. -/
theorem refused_after_abort [Scalar α] [Numeral α] (b : Backend σ α) {o : Operation α}
    (step : o.IsStep) {w w' : World σ α} {e : SessionError}
    (failed : (o.perform b).run w = (.error e, w')) (stops : e.fault.Stops)
    (between : List (Operation α))
    (running : (Session.performAll b between w').1.stage ≠ .closed) :
    let v := Session.performAll b between w'
    (∀ later : Operation α, later.IsStep →
      (later.perform b).run v = (.error ⟨b.longName v.1.solver, .aborted later.title⟩, v)) ∧
    (Operation.solve.perform b).run v =
      (.error ⟨b.longName v.1.solver, .lifecycle "solve" .modificationOpen⟩, v) := by
  intro v
  have aborted : World.Aborted v := by
    have spent : World.Spent w' := .inl (step.aborted failed stops)
    rcases Session.performAll_spent b between spent with aborted | closed
    · exact aborted
    · exact absurd closed running
  exact ⟨fun later step => Operation.run_of_refusal step.single (aborted.refusal_step step),
    Operation.run_of_refusal (o := .solve) nofun aborted.refusal_solve⟩

/-- A maximum is more than a backend takes that only takes linear objectives. -/
theorem refused_after_abort_maximum :
    let b : Backend (ScriptedState Float) Float := Scripted.bare .linear
    let maximum : Operation Float := .addObjective 0 ⟨.maximize, ⟨⟨[], 0⟩, some (.max [.var ⟨0⟩])⟩⟩
    ∃ s, Session.create b { script := { objective := 0 } } {} = .ok s ∧
      let w := Session.performAll b [.acquire] (s, .initial)
      let v := Session.performAll b [.solve] ((maximum.perform b).run w).2
      (Operation.finish.perform b).run v =
        (.error ⟨b.longName v.1.solver, .aborted "finish modification"⟩, v) :=
  have refused {o : Operation Float} (step : o.IsStep) {w : World (ScriptedState Float) Float}
      {e : SessionError} (fails : ((o.perform (Scripted.bare .linear)).run w).1 = .error e) :=
    refused_after_abort (Scripted.bare .linear) step (Prod.ext fails rfl)
  ⟨_, rfl, (refused (o := .addObjective 0 _) trivial rfl (by exact trivial) [.solve]
    (by exact nofun)).1 .finish trivial⟩

/-- The solve after it does not say that the modification was aborted. -/
theorem solve_after_abort_maximum :
    let b : Backend (ScriptedState Float) Float := Scripted.bare .linear
    let maximum : Operation Float := .addObjective 0 ⟨.maximize, ⟨⟨[], 0⟩, some (.max [.var ⟨0⟩])⟩⟩
    ∃ s, Session.create b { script := { objective := 0 } } {} = .ok s ∧
      let w := Session.performAll b [.acquire] (s, .initial)
      let v := ((maximum.perform b).run w).2
      (∃ e, ((maximum.perform b).run w).1 = .error e ∧
        e.fault = .unsupported (.objective 0) .general ∧ v.1.stage ≠ .closed) ∧
      ∃ e, (((Operation.solve : Operation Float).perform b).run v).1 = .error e ∧
        e.fault ≠ .aborted "solve" :=
  ⟨_, rfl, ⟨_, rfl, rfl, nofun⟩, _, rfl, nofun⟩

end SolverBridge
