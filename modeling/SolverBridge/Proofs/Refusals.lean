import SolverBridge.Proofs.CallOrder
import SolverBridge.Proofs.Deliveries

/-! Refused operations. Every operation begins with its checks, and the checks only look: at the
stage, and for most operations at the mark of an aborted modification. So it can be told in advance
whether an operation is refused, and with which error, and a refused operation has done nothing.
What comes after the checks fails for other reasons only: what it checks again has not changed
since. A run is no such operation, because it closes the session whatever happens. -/

namespace SolverBridge

variable {σ α : Type}

/-! ### What is checked -/

/-- What is asked of a session before an operation. -/
inductive Check
  | inStage (expected : Stage)
  /-- In that stage, and the modification was not aborted. -/
  | soundIn (expected : Stage)
  | notClosed

namespace Check

/-- What the check finds wrong. The stage is looked at first. -/
def refusal? (title : String) : Check → Stage → Bool → Option SessionFault
  | .inStage expected, stage, _ =>
    if stage = expected then none else some (.lifecycle title stage)
  | .soundIn expected, stage, aborted =>
    if stage = expected then if aborted then some (.aborted title) else none
    else some (.lifecycle title stage)
  | .notClosed, stage, _ => if stage = .closed then some (.lifecycle title stage) else none

def perform (b : Backend σ α) (title : String) : Check → SessionAction σ α Unit
  | .inStage expected => Session.expectStage b expected title
  | .soundIn expected => do
    Session.expectStage b expected title
    Session.expectNotAborted b title
  | .notClosed => Session.expectNotClosed b title

/-- The check finds nothing wrong. -/
def Passes : Check → Stage → Bool → Prop
  | .inStage expected, stage, _ => stage = expected
  | .soundIn expected, stage, aborted => stage = expected ∧ aborted = false
  | .notClosed, stage, _ => stage ≠ .closed

theorem passes_of_refusal? {c : Check} {title : String} {stage : Stage} {aborted : Bool}
    (h : c.refusal? title stage aborted = none) : c.Passes stage aborted := by
  cases c <;> rw [refusal?] at h <;> split at h
  case inStage.isTrue same => exact same
  case notClosed.isFalse running => exact running
  case soundIn.isTrue same =>
    split at h
    · cases h
    · exact ⟨same, Bool.eq_false_iff.2 ‹_›⟩
  all_goals cases h

theorem isRefusal_of_refusal? {c : Check} {title : String} {stage : Stage} {aborted : Bool}
    {fault : SessionFault} (h : c.refusal? title stage aborted = some fault) :
    fault.IsRefusal := by
  cases c <;> rw [refusal?] at h <;> split at h
  case soundIn.isTrue =>
    split at h <;> cases h
    trivial
  all_goals
    cases h
    try trivial

/-- A check finds out whether something is wrong, and nothing else comes of it. -/
theorem ends_perform (b : Backend σ α) (title : String) (c : Check) (w : World σ α) :
    Ends (c.perform b title) w
      (fun _ w' => w' = w ∧ c.refusal? title w.1.stage w.1.aborted = none)
      fun e w' => w' = w ∧ e.backend = b.longName w.1.solver ∧
        c.refusal? title w.1.stage w.1.aborted = some e.fault := by
  cases c with
  | inStage expected =>
    exact .expectStage (fun same => ⟨rfl, if_pos same⟩) fun other => ⟨rfl, rfl, if_neg other⟩
  | soundIn expected =>
    refine .bind <| .expectStage (fun same => ?_) fun other => ⟨rfl, rfl, if_neg other⟩
    rw [refusal?, if_pos same]
    exact .expectNotAborted (fun sound => ⟨rfl, if_neg (Bool.eq_false_iff.1 sound)⟩)
      fun aborted => ⟨rfl, rfl, if_pos aborted⟩
  | notClosed =>
    exact .bind <| .getSession <| .ite (fun closed => .fail ⟨rfl, rfl, if_pos closed⟩)
      fun running => .pure ⟨rfl, if_neg running⟩

end Check

/-! ### What fails after the check -/

/-- The action is not refused. -/
def Unrefused {β : Type} (a : SessionAction σ α β) (w : World σ α) : Prop :=
  Ends a w (fun _ _ => True) fun e _ => ¬e.fault.IsRefusal

theorem Silent.unrefused {β : Type} {a : SessionAction σ α β} {w : World σ α}
    (h : Silent False a w) : Unrefused a w :=
  .mono h (fun _ _ _ => trivial) fun _ _ h => h.2

theorem Progress.Explains.not_isRefusal {progress : Progress} {fault : SessionFault}
    (h : progress.Explains fault) : ¬fault.IsRefusal := by
  cases progress with
  | done => exact h.elim
  | failed =>
    obtain ⟨_, _, rfl⟩ := h
    exact id
  | rejected =>
    cases h
    exact id

/-- A plan is stopped by the backend, or by an element that it does not take. -/
theorem Executes.unrefused {β : Type} {b : Backend σ α} {a : SessionAction σ α β} {w : World σ α}
    {plan : List (Step α)} {domains : List (Domain α)} (h : Executes b a w plan domains) :
    Unrefused a w :=
  .mono h (fun _ _ _ => trivial) fun _ _ stopped => stopped.explains.not_isRefusal

theorem Unrefused.andReturn {β γ : Type} {a : SessionAction σ α β} {w : World σ α}
    (h : Unrefused a w) (f : β → γ) : Unrefused (do return f (← a)) w :=
  .bind <| .mono h (fun _ _ _ => .pure trivial) fun _ _ h => h

namespace Session

variable {b : Backend σ α} {w : World σ α}

theorem unrefused_expectNotClosed {β : Type} {operation : String} {f : Unit → SessionAction σ α β}
    (running : w.1.stage ≠ .closed) (h : Unrefused (f ()) w) :
    Unrefused (expectNotClosed b operation >>= f) w :=
  .bind <| .bind <| .getSession <| .ite (fun closed => absurd closed running) fun _ => .pure h

theorem unrefused_close (running : w.1.stage ≠ .closed) : Unrefused (close b) w :=
  unrefused_expectNotClosed running <|
    .mono (ends_release b w) (fun _ _ _ => trivial) fun _ _ h => h.elim

theorem unrefused_getOption (running : w.1.stage ≠ .closed) (t : OptionType) (name : String) :
    Unrefused (getOption b t name) w := by
  refine unrefused_expectNotClosed running <| .bind <| .getSession ?_
  split
  · exact .pure trivial
  · exact .fail id

theorem unrefused_setOption (running : w.1.stage ≠ .closed) (name : String) (v : OptionValue) :
    Unrefused (setOption b name v) w := by
  refine unrefused_expectNotClosed running <| .bind <| .trace fun _ => .bind <| .getSession ?_
  split
  · exact .modifySession trivial
  · exact .fail id

theorem unrefused_applyOptions (running : w.1.stage ≠ .closed) (text : String) :
    Unrefused (applyOptions b text) w := by
  refine unrefused_expectNotClosed running <| .bind <| .getSession ?_
  generalize w.1.registry.applyText w.1.solver text = applied
  refine .bind <| .modifySession ?_
  cases applied.1 with
  | ok count => exact .bind <| .log <| .pure trivial
  | error e => exact .fail id

end Session

/-! ### Operations -/

namespace Operation

/-- What the operation is called in errors. -/
def title : Operation α → String
  | .acquire | .run _ => "open"
  | .addVariable _ => "add variable"
  | .addObjective _ _ => "add objective"
  | .addConstraint _ _ => "add constraint"
  | .load _ => "load model"
  | .finish => "finish modification"
  | .solve => "solve"
  | .report => "report"
  | .close => "close"
  | .getOption _ _ => "read option"
  | .setOption _ _ | .applyOptions _ => "set option"

def check : Operation α → Check
  | .acquire | .run _ => .inStage .created
  | .addVariable _ | .addObjective _ _ | .addConstraint _ _ | .load _ | .finish =>
    .soundIn .modificationOpen
  | .solve => .soundIn .modificationClosed
  | .report => .inStage .solved
  | .close | .getOption _ _ | .setOption _ _ | .applyOptions _ => .notClosed

/-- Why the operation is refused in this session, if it is. -/
def refusal? (o : Operation α) (s : Session σ α) : Option SessionFault :=
  o.check.refusal? o.title s.stage s.aborted

variable [Scalar α] [Numeral α]

/-- Every operation but a run begins with its check. -/
theorem exists_perform_eq (b : Backend σ α) (o : Operation α) (single : ∀ m, o ≠ .run m) :
    ∃ rest, o.perform b = o.check.perform b o.title >>= fun _ => rest := by
  cases o with
  | run m => exact absurd rfl (single m)
  | solve =>
    apply Exists.intro
    simp only [perform, Session.solve, check, Check.perform, title, bind_assoc]
    rfl
  | _ => exact ⟨_, bind_assoc _ _ _⟩

/-- An operation that its check does not refuse is not refused later. -/
theorem unrefused_perform (b : Backend σ α) {o : Operation α} (single : ∀ m, o ≠ .run m)
    {w : World σ α} (h : o.refusal? w.1 = none) : Unrefused (o.perform b) w := by
  have passes : o.check.Passes w.1.stage w.1.aborted := Check.passes_of_refusal? h
  cases o with
  | run m => exact absurd rfl (single m)
  | acquire => exact (Session.silent_acquire fun other => other passes).unrefused.andReturn _
  | addVariable d => exact (Executes.addVariable passes d).unrefused.andReturn _
  | addObjective i o => exact (Executes.addObjective passes i o).unrefused.andReturn _
  | addConstraint i c => exact (Executes.addConstraint passes i c).unrefused.andReturn _
  | load m => exact (Executes.load passes m).unrefused.andReturn _
  | finish =>
    have finishes : Unrefused (Session.finish b) w :=
      .mono (Session.ends_finish fun stuck => stuck passes) (fun _ _ _ => trivial)
        fun _ _ h => h.2
    exact finishes.andReturn _
  | solve =>
    have solves : Unrefused (Session.solve b) w := by
      refine .mono (Session.ends_solve (R := False) fun stuck => ?_) (fun _ _ _ => trivial)
        fun _ _ h => h.1.2
      rcases stuck with other | aborted
      · exact other passes.1
      · exact Bool.false_ne_true (passes.2.symm.trans aborted)
    exact solves.andReturn _
  | report =>
    have reports : Unrefused (Session.report b) w :=
      .mono (Session.ends_report_deliveries fun other => other passes) (fun _ _ _ => trivial)
        fun _ _ h => h.2
    exact reports.andReturn _
  | close => exact (Session.unrefused_close passes).andReturn _
  | getOption t name => exact (Session.unrefused_getOption passes t name).andReturn _
  | setOption name v => exact (Session.unrefused_setOption passes name v).andReturn _
  | applyOptions text => exact (Session.unrefused_applyOptions passes text).andReturn _

/-- A refusal comes from the check, and the session is left as it was found. -/
theorem ends_refusal (b : Backend σ α) {o : Operation α} (single : ∀ m, o ≠ .run m)
    (w : World σ α) :
    Ends (o.perform b) w (fun _ _ => o.refusal? w.1 = none) fun e w' =>
      e.fault.IsRefusal ∧ o.refusal? w.1 = some e.fault ∧ e.backend = b.longName w.1.solver ∧
          w' = w ∨
        ¬e.fault.IsRefusal ∧ o.refusal? w.1 = none := by
  cases h : o.refusal? w.1 with
  | none => exact .mono (unrefused_perform b single h) (fun _ _ _ => rfl) fun _ _ h => .inr ⟨h, rfl⟩
  | some fault =>
    obtain ⟨rest, eq⟩ := exists_perform_eq b o single
    rw [eq]
    refine .bind <| .mono (Check.ends_perform b o.title o.check w) ?_ ?_
    · rintro _ _ ⟨-, passes⟩
      exact absurd (h.symm.trans passes) (Option.some_ne_none _)
    · rintro e w' ⟨same, name, refused⟩
      have fault : some fault = some e.fault := h.symm.trans refused
      exact .inl ⟨Check.isRefusal_of_refusal? refused, fault, name, same⟩

theorem run_eq_refusal_iff (b : Backend σ α) {o : Operation α} (single : ∀ m, o ≠ .run m)
    (w w' : World σ α) (e : SessionError) :
    (o.perform b).run w = (.error e, w') ∧ e.fault.IsRefusal ↔
      o.refusal? w.1 = some e.fault ∧ e.backend = b.longName w.1.solver ∧ w' = w := by
  have ends := ends_refusal b single w
  rw [Ends] at ends
  constructor
  · rintro ⟨run, refusal⟩
    rw [run] at ends
    rcases ends with ⟨-, facts⟩ | ⟨other, -⟩
    · exact facts
    · exact absurd refusal other
  · rintro ⟨fault, name, rfl⟩
    split at ends
    · exact absurd (fault.symm.trans ends) (Option.some_ne_none _)
    · rename_i e' w₁ run
      rcases ends with ⟨refusal, fault', name', rfl⟩ | ⟨-, none⟩
      · have same : e' = e := by
          obtain ⟨_, _⟩ := e
          obtain ⟨_, _⟩ := e'
          cases name.trans name'.symm
          cases fault.symm.trans fault'
          rfl
        rw [run, ← same]
        exact ⟨rfl, refusal⟩
      · exact absurd (fault.symm.trans none) (Option.some_ne_none _)

/-- An operation other than a run is refused exactly if its check finds something wrong in the
session, and a refused operation changes nothing: the session with all that it keeps and
delivered, the backend's state and the stop flags are what they were. Of the backend
nothing but its name matters, and it gets no call. -/
theorem refused_iff (b : Backend σ α) {o : Operation α} (single : ∀ m, o ≠ .run m) :
    (∀ (w w' : World σ α) (e : SessionError),
      (o.perform b).run w = (.error e, w') ∧ e.fault.IsRefusal ↔
        o.refusal? w.1 = some e.fault ∧ e.backend = b.longName w.1.solver ∧ w' = w) ∧
    ∀ (w w' : World (σ × List (Call α)) α) (e : SessionError),
      (o.perform b.traced).run w = (.error e, w') → e.fault.IsRefusal →
        w' = w ∧ w'.1.solver.2 = w.1.solver.2 := by
  refine ⟨run_eq_refusal_iff b single, fun w w' e run refusal => ?_⟩
  obtain ⟨-, -, same⟩ := (run_eq_refusal_iff b.traced single w w' e).1 ⟨run, refusal⟩
  exact ⟨same, by rw [same]⟩

/-- The end of a modification that an unsupported objective aborted is refused, although the stage
is right. -/
theorem refused_iff_aborted :
    let b : Backend (ScriptedState Float) Float := Scripted.bare .linear
    let maximum : Operation Float := .addObjective 0 ⟨.maximize, ⟨⟨[], 0⟩, some (.max [.var ⟨0⟩])⟩⟩
    ∃ s, Session.create b.traced ({ script := { objective := 0 } }, []) {} = .ok s ∧
      let w := Session.performAll b.traced [.acquire, maximum] (s, .initial)
      (Operation.finish.perform b.traced).run w =
        (.error ⟨b.traced.longName w.1.solver, .aborted "finish modification"⟩, w) :=
  have refused {w : World (ScriptedState Float × List (Call Float)) Float}
      (fault : Operation.finish.refusal? w.1 = some (.aborted "finish modification")) :=
    (((Operation.refused_iff (Scripted.bare .linear).traced (o := .finish) nofun).1 w w
      ⟨_, .aborted "finish modification"⟩).2 ⟨fault, rfl, rfl⟩).1
  ⟨_, rfl, refused rfl⟩

end Operation

end SolverBridge
