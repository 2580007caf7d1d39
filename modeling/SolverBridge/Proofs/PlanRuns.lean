import SolverBridge.Proofs.Outcomes

/-! A plan carried out by a backend. The plan of a problem is fixed before the first request is
sent, so what loading the problem does is what the backend makes of the plan: it is asked step by
step until a request fails or an element is rejected that may not be skipped. The run of a plan
leaves a state of the backend and the elements that were skipped, and the session holds just
these afterwards. -/

namespace SolverBridge

variable {σ α : Type}

/-! ### Runs of a plan -/

/-- How far a plan was carried out, which elements were skipped, and the state that is left. -/
structure PlanRun (σ : Type) where
  progress : Progress
  skipped : List (Element × Kind)
  state : σ × StopFlags

namespace Backend

/-- Carries a plan out. -/
def follow (b : Backend σ α) (permissive : Bool) : List (Step α) → σ × StopFlags → PlanRun σ
  | [], s => ⟨.done, [], s⟩
  | .call r :: rest, s =>
    if Call.failed ⟨r, (b.perform r s).1⟩ then ⟨.failed, [], (b.perform r s).2⟩
    else b.follow permissive rest (b.perform r s).2
  | .reject element kind :: rest, s =>
    if permissive then
      let run := b.follow permissive rest s
      { run with skipped := (element, kind) :: run.skipped }
    else ⟨.rejected element kind, [], s⟩

variable {b : Backend σ α} {permissive : Bool} {plan more : List (Step α)} {s : σ × StopFlags}

theorem follow_call {r : Request α} (ok : Call.failed ⟨r, (b.perform r s).1⟩ = false) :
    b.follow permissive (.call r :: plan) s = b.follow permissive plan (b.perform r s).2 := by
  rw [follow, if_neg (Bool.eq_false_iff.1 ok)]

theorem follow_failed {r : Request α} (failed : Call.failed ⟨r, (b.perform r s).1⟩ = true) :
    b.follow permissive (.call r :: plan) s = ⟨.failed, [], (b.perform r s).2⟩ := by
  rw [follow, if_pos failed]

/-- A plan that was carried out may go on. -/
theorem follow_append (h : (b.follow permissive plan s).progress = .done) :
    b.follow permissive (plan ++ more) s =
      let run := b.follow permissive plan s
      let rest := b.follow permissive more run.state
      { rest with skipped := run.skipped ++ rest.skipped } := by
  induction plan generalizing s with
  | nil => rfl
  | cons step rest ih =>
    cases step with
    | call r =>
      cases failed : Call.failed ⟨r, (b.perform r s).1⟩ with
      | true =>
        rw [follow_failed failed] at h
        cases h
      | false =>
        rw [follow_call failed] at h ⊢
        rw [List.cons_append, follow_call failed]
        exact ih h
    | reject element kind =>
      cases permissive with
      | false => cases h
      | true =>
        have further := ih h
        rw [List.cons_append, follow, follow, if_pos rfl, if_pos rfl, further]
        rfl

/-- What stopped a plan stops every longer one. -/
theorem follow_append_stopped (h : (b.follow permissive plan s).progress ≠ .done) :
    b.follow permissive (plan ++ more) s = b.follow permissive plan s := by
  induction plan generalizing s with
  | nil => exact absurd rfl h
  | cons step rest ih =>
    cases step with
    | call r =>
      cases failed : Call.failed ⟨r, (b.perform r s).1⟩ with
      | true => rw [List.cons_append, follow_failed failed, follow_failed failed]
      | false =>
        rw [follow_call failed] at h
        rw [List.cons_append, follow_call failed, follow_call failed, ih h]
    | reject element kind =>
      cases permissive with
      | false => rfl
      | true => rw [List.cons_append, follow, follow, if_pos rfl, if_pos rfl, ih h]

end Backend

/-! ### The session that carries a plan out -/

namespace World

/-- Elements can be added. -/
def Modifiable (w : World σ α) : Prop := w.1.stage = .modificationOpen ∧ w.1.aborted = false

/-- What the backend makes of the plan in this session. -/
def planRun (b : Backend σ α) (w : World σ α) (plan : List (Step α)) : PlanRun σ :=
  b.follow w.1.config.permissive plan (w.1.solver, w.2)

/-- The second session holds what the run of the plan in the first leaves. -/
structure Carried (b : Backend σ α) (w : World σ α) (plan : List (Step α)) (w' : World σ α) :
    Prop where
  solver : w'.1.solver = (w.planRun b plan).state.1
  flags : w'.2 = (w.planRun b plan).state.2
  skipped : w'.1.skipped = w.1.skipped ++ (w.planRun b plan).skipped
  config : w'.1.config = w.1.config

/-- The plan was carried out, elements can still be added, and these are the domains now. -/
structure Followed (b : Backend σ α) (w : World σ α) (plan : List (Step α))
    (domains : List (Domain α)) (w' : World σ α) : Prop extends w.Carried b plan w' where
  done : (w.planRun b plan).progress = .done
  stage : w'.1.stage = w.1.stage
  aborted : w'.1.aborted = w.1.aborted
  domains : w'.1.domains = domains

/-- The plan was stopped, and the error says by what. -/
structure Stopped (b : Backend σ α) (w : World σ α) (plan : List (Step α)) (e : SessionError)
    (w' : World σ α) : Prop extends w.Carried b plan w' where
  explains : (w.planRun b plan).progress.Explains e.fault

variable {b : Backend σ α} {w w' w'' : World σ α} {plan more : List (Step α)}
  {domains domains' : List (Domain α)}

theorem Followed.modifiable (h : w.Followed b plan domains w') (hw : w.Modifiable) :
    w'.Modifiable := ⟨h.stage.trans hw.1, h.aborted.trans hw.2⟩

theorem Followed.planRun_append (h : w.Followed b plan domains w') :
    w.planRun b (plan ++ more) =
      { w'.planRun b more with
        skipped := (w.planRun b plan).skipped ++ (w'.planRun b more).skipped } := by
  have state : (w'.1.solver, w'.2) = (w.planRun b plan).state := Prod.ext h.solver h.flags
  have rest : w'.planRun b more =
      b.follow w.1.config.permissive more (w.planRun b plan).state := by
    rw [planRun, state, h.config]
  rw [rest]
  exact Backend.follow_append h.done

theorem Followed.trans_carried (h : w.Followed b plan domains w') (h' : w'.Carried b more w'') :
    w.Carried b (plan ++ more) w'' := by
  constructor
  · rw [h.planRun_append, h'.solver]
  · rw [h.planRun_append, h'.flags]
  · rw [h.planRun_append, h'.skipped, h.skipped, List.append_assoc]
  · rw [h'.config, h.config]

theorem Followed.trans (h : w.Followed b plan domains w')
    (h' : w'.Followed b more domains' w'') : w.Followed b (plan ++ more) domains' w'' where
  toCarried := h.trans_carried h'.toCarried
  done := by rw [h.planRun_append, h'.done]
  stage := h'.stage.trans h.stage
  aborted := h'.aborted.trans h.aborted
  domains := h'.domains

theorem Followed.trans_stopped {e : SessionError} (h : w.Followed b plan domains w')
    (h' : w'.Stopped b more e w'') : w.Stopped b (plan ++ more) e w'' where
  toCarried := h.trans_carried h'.toCarried
  explains := by
    rw [h.planRun_append]
    exact h'.explains

theorem Stopped.longer {e : SessionError} (h : w.Stopped b plan e w') :
    w.Stopped b (plan ++ more) e w' := by
  have same : w.planRun b (plan ++ more) = w.planRun b plan := by
    refine Backend.follow_append_stopped fun done => ?_
    have explains := h.explains
    rw [planRun, done] at explains
    exact explains
  constructor
  · exact ⟨same ▸ h.solver, same ▸ h.flags, same ▸ h.skipped, h.config⟩
  · rw [same]
    exact h.explains

end World

open World

namespace Ends

variable {β : Type} {b : Backend σ α} {w : World σ α} {E : SessionError → World σ α → Prop}
  {operation : String}

theorem expectModifiable {Q : Unit → World σ α → Prop} (h : w.Modifiable) (hQ : Q () w) :
    Ends (Session.expectModifiable b operation) w Q E := by
  refine .bind <| .expectStage (fun _ => .expectNotAborted (fun _ => hQ) fun aborted => ?_)
    fun other => absurd h.1 other
  rw [h.2] at aborted
  cases aborted

theorem abort {fault : SessionFault} {Q : β → World σ α → Prop}
    (h : ∀ events, E ⟨b.longName w.1.solver, fault⟩
      ({ w.1 with aborted := true, events := events }, w.2)) :
    Ends (Session.abort b fault) w Q E :=
  .bind <| .errorOf <| .bind <| .modifySession <| .bind <| .log <| .throw (h _)

end Ends

/-- The problem with only its first constraints. -/
def Problem.upTo (m : Problem α) (i : Nat) : Problem α :=
  { m with constraints := m.constraints.take i }

theorem Problem.upTo_length (m : Problem α) : m.upTo m.constraints.length = m := by
  rw [upTo, List.take_length]

/-- Loading, as far as constraint `i`. -/
def Session.loadTo [Scalar α] (b : Backend σ α) (m : Problem α) (i : Nat) :
    SessionAction σ α Unit := do
  expectModifiable b "load model"
  let _ ← now
  addVariables b m.domains
  addObjectives b 0 m.objectives
  addConstraints b 0 (m.constraints.take i)

/-- The action carries the plan out and leaves these domains, or it fails where the plan stops. -/
def Executes {β : Type} (b : Backend σ α) (a : SessionAction σ α β) (w : World σ α)
    (plan : List (Step α)) (domains : List (Domain α)) : Prop :=
  Ends a w (fun _ => w.Followed b plan domains) (w.Stopped b plan)

namespace Executes

variable {β γ : Type} {b : Backend σ α} {w : World σ α} {plan more : List (Step α)}
  {domains domains' : List (Domain α)}

/-- Nothing is asked. -/
theorem followed_nil {w' : World σ α} (solver : w'.1.solver = w.1.solver) (flags : w'.2 = w.2)
    (skipped : w'.1.skipped = w.1.skipped) (config : w'.1.config = w.1.config)
    (stage : w'.1.stage = w.1.stage) (aborted : w'.1.aborted = w.1.aborted) :
    w.Followed b [] w'.1.domains w' :=
  ⟨⟨solver, flags, by rw [skipped]; exact (List.append_nil _).symm, config⟩, rfl, stage, aborted,
    rfl⟩

theorem pure {x : β} : Executes b (Pure.pure x) w [] w.1.domains :=
  Ends.pure (followed_nil rfl rfl rfl rfl rfl rfl)

theorem seq {a : SessionAction σ α β} {f : β → SessionAction σ α γ}
    (ha : Executes b a w plan domains)
    (hf : ∀ x w', w.Followed b plan domains w' → Executes b (f x) w' more domains') :
    Executes b (a >>= f) w (plan ++ more) domains' := by
  refine .bind (.mono ha (fun x w' followed => ?_) fun e w' stopped => stopped.longer)
  exact .mono (hf x w' followed) (fun _ _ h => followed.trans h) fun _ _ h =>
    followed.trans_stopped h

/-- A request that is answered, and what is done after it. -/
theorem asked {r : Request α} {k : SessionAction σ α β}
    (ok : Call.failed ⟨r, b.answer r w⟩ = false) (hk : Executes b k (b.asked r w) plan domains) :
    Ends k (b.asked r w) (fun _ => w.Followed b (.call r :: plan) domains)
      (w.Stopped b (.call r :: plan)) := by
  have same : w.planRun b (.call r :: plan) = (b.asked r w).planRun b plan :=
    Backend.follow_call ok
  refine .mono hk (fun _ w' h => ?_) fun _ w' h => ?_
  · exact ⟨⟨same ▸ h.solver, same ▸ h.flags, same ▸ h.skipped, h.config⟩, same ▸ h.done, h.stage,
      h.aborted, h.domains⟩
  · exact ⟨⟨same ▸ h.solver, same ▸ h.flags, same ▸ h.skipped, h.config⟩, same ▸ h.explains⟩

theorem post {operation : String} {r : Request α} {answer : Except Failure Unit}
    (hfailed : Call.failed ⟨r, b.answer r w⟩ = !answer.isOk) {Q : Unit → World σ α → Prop}
    (hok : Call.failed ⟨r, b.answer r w⟩ = false → Q () (b.asked r w)) :
    Ends (Session.post b operation answer) (b.asked r w) Q (w.Stopped b (.call r :: plan)) := by
  cases answer with
  | ok => exact .pure (hok hfailed)
  | error f =>
    have run : w.planRun b (.call r :: plan) = ⟨.failed, [], (b.perform r (w.1.solver, w.2)).2⟩ :=
      Backend.follow_failed hfailed
    refine .abort fun events => ⟨⟨?_, ?_, ?_, rfl⟩, ?_⟩ <;> rw [run]
    · rfl
    · rfl
    · exact (List.append_nil _).symm
    · exact ⟨_, _, rfl⟩

/-- A request whose failure ends the modification, and what is done after it. -/
theorem posted {operation : String} {r : Request α} {view : r.Answer → Except Failure Unit}
    (hview : ∀ a, Call.failed ⟨r, a⟩ = !(view a).isOk) {k : SessionAction σ α β}
    (hk : Executes b k (b.asked r w) plan domains) :
    Executes b (do Session.post b operation (view (← Session.request b r)); k) w
      (.call r :: plan) domains :=
  .bind <| .request <| .bind <| post (hview _) fun ok => asked ok hk

theorem addVariable (h : w.Modifiable) (d : Domain α) :
    Executes b (Session.addVariable b d) w [.call (.addVariable d)] (w.1.domains ++ [d]) := by
  refine .bind <| .expectModifiable h <| posted (fun _ => rfl) ?_
  exact .bind <| .getSession <| .bind <| .modifySession <| .bind <| .trace fun _ =>
    .pure ⟨⟨rfl, rfl, (List.append_nil _).symm, rfl⟩, rfl, rfl, rfl, rfl⟩

/-- An element that is not taken is skipped, or stops the plan. -/
theorem rejectElement (element : Element) (kind : Kind) :
    Executes b (Session.rejectElement b element kind) w [.reject element kind] w.1.domains := by
  refine .bind <| .getSession <| .ite (fun permissive => ?_) fun strict => ?_
  · have run : w.planRun b [.reject element kind] =
        ⟨.done, [(element, kind)], (w.1.solver, w.2)⟩ := if_pos permissive
    refine .bind <| .log <| .modifySession ⟨⟨?_, ?_, ?_, rfl⟩, ?_, rfl, rfl, rfl⟩ <;> rw [run]
  · have run : w.planRun b [.reject element kind] =
        ⟨.rejected element kind, [], (w.1.solver, w.2)⟩ := if_neg strict
    refine .abort fun events => ⟨⟨?_, ?_, ?_, rfl⟩, ?_⟩ <;> rw [run]
    · exact (List.append_nil _).symm
    · exact rfl

theorem postPieces (pieces : List (FlatConstraint α)) :
    Executes b (Session.postPieces b pieces) w (pieces.map fun d => .call (.postConstraint d))
      w.1.domains := by
  induction pieces generalizing w with
  | nil => exact pure
  | cons d rest ih => exact posted (fun _ => rfl) ih

/-- A change of what is only told does not matter. -/
theorem untold {a : SessionAction σ α β} {w' : World σ α} (domains : List (Domain α))
    (h : Executes b a w' plan domains)
    (solver : w'.1.solver = w.1.solver) (flags : w'.2 = w.2)
    (skipped : w'.1.skipped = w.1.skipped) (config : w'.1.config = w.1.config)
    (stage : w'.1.stage = w.1.stage) (aborted : w'.1.aborted = w.1.aborted) :
    Ends a w' (fun _ => w.Followed b plan domains) (w.Stopped b plan) := by
  have quiet := followed_nil (b := b) solver flags skipped config stage aborted
  exact .mono h (fun _ _ h => quiet.trans h) fun _ _ h => quiet.trans_stopped h

section Elements

variable [Scalar α]

theorem addObjective (h : w.Modifiable) (i : Nat) (o : Objective α) :
    Executes b (Session.addObjective b i o) w (objectiveSteps b.acceptance i o) w.1.domains := by
  refine .bind <| .expectModifiable h ?_
  rw [objectiveSteps]
  cases resolveObjective b.acceptance (classifyObjective o) with
  | error u => exact rejectElement _ _
  | ok flat =>
    refine .bind <| .trace fun events => untold w.1.domains ?_ rfl rfl rfl rfl rfl rfl
    exact .bind <| .request <| post rfl fun ok => asked ok (pure (x := ()))

theorem addConstraint (h : w.Modifiable) (i : Nat) (d : Constraint α) :
    Executes b (Session.addConstraint b i d) w (constraintSteps b.acceptance w.1.domains i d)
      w.1.domains := by
  refine .bind <| .expectModifiable h <| .bind <| .request <| asked rfl <| .bind <| .getSession ?_
  have known : (b.asked (.startConstraint i) w).1.domains = w.1.domains := rfl
  rw [known]
  cases resolveConstraint b.acceptance w.1.domains (classifyConstraint d) with
  | error u => exact rejectElement _ _
  | ok pieces =>
    exact .bind <| .trace fun events => untold _ (postPieces _) rfl rfl rfl rfl rfl rfl

/-! ### Many elements -/

omit [Scalar α] in
theorem addVariables (h : w.Modifiable) (ds : List (Domain α)) :
    Executes b (Session.addVariables b ds) w (ds.map fun d => .call (.addVariable d))
      (w.1.domains ++ ds) := by
  induction ds generalizing w with
  | nil =>
    rw [List.append_nil]
    exact pure
  | cons d rest ih =>
    refine (seq (addVariable h d) fun _ w' followed => ?_ :)
    have further := ih (followed.modifiable h)
    rwa [followed.domains, List.append_assoc] at further

theorem addObjectives (h : w.Modifiable) (i : Nat) (os : List (Objective α)) :
    Executes b (Session.addObjectives b i os) w (objectivesPlan b.acceptance i os)
      w.1.domains := by
  induction os generalizing w i with
  | nil => exact pure
  | cons o rest ih =>
    refine seq (addObjective h i o) fun _ w' followed => ?_
    have further := ih (followed.modifiable h) (i + 1)
    rwa [followed.domains] at further

theorem addConstraints (h : w.Modifiable) (i : Nat) (ds : List (Constraint α)) :
    Executes b (Session.addConstraints b i ds) w
      (constraintsPlan b.acceptance w.1.domains i ds) w.1.domains := by
  induction ds generalizing w i with
  | nil => exact pure
  | cons d rest ih =>
    refine seq (addConstraint h i d) fun _ w' followed => ?_
    have further := ih (followed.modifiable h) (i + 1)
    rwa [followed.domains] at further

/-- What is loaded first is loaded by itself, and the rest is told. -/
theorem load_eq (b : Backend σ α) (m : Problem α) : ∃ told : SessionAction σ α Unit,
    (Session.load b m = do
      Session.loadTo b m m.constraints.length
      told) ∧
    ∀ w : World σ α, Executes b told w [] w.1.domains := by
  apply Exists.intro
  constructor
  · simp only [Session.load, Session.loadTo, bind_assoc, List.take_length]
    rfl
  · exact fun w => .bind <| .now <| .bind <| .getSession <| .log
      ⟨⟨rfl, rfl, (List.append_nil _).symm, rfl⟩, rfl, rfl, rfl, rfl⟩

/-- Loading the first constraints carries out the plan of the problem that has only these. -/
theorem loadTo (h : w.Modifiable) (m : Problem α) (i : Nat) :
    Executes b (Session.loadTo b m i) w
      ((m.upTo i).plan b.acceptance w.1.domains) (w.1.domains ++ m.domains) := by
  refine .bind <| .expectModifiable h <| .bind <| .now ?_
  refine untold (w.1.domains ++ m.domains) ?_ rfl rfl rfl rfl rfl rfl
  -- the session after the clock was read gets a name, so that no later term repeats it
  obtain ⟨v₀, read⟩ : ∃ v₀ : World σ α, v₀ = ({ w.1 with readings := w.1.readings + 1 }, w.2) :=
    ⟨_, rfl⟩
  have h₀ : v₀.Modifiable := by
    rw [read]
    exact h
  have known : w.1.domains = v₀.1.domains := by rw [read]
  rw [← read, known, Problem.plan]
  refine seq (addVariables h₀ _) fun _ v followed => ?_
  have objectives := addObjectives (b := b) (followed.modifiable h₀) 0 m.objectives
  rw [followed.domains] at objectives
  refine seq objectives fun _ v' followed' => ?_
  have modifiable := followed'.modifiable (followed.modifiable h₀)
  have constraints := addConstraints (b := b) modifiable 0 (m.constraints.take i)
  rw [followed'.domains] at constraints
  exact constraints

/-- Loading a problem carries out its plan. -/
theorem load (h : w.Modifiable) (m : Problem α) :
    Executes b (Session.load b m) w (m.plan b.acceptance w.1.domains)
      (w.1.domains ++ m.domains) := by
  obtain ⟨told, eq, executes⟩ := load_eq b m
  rw [eq, ← List.append_nil (m.plan _ _)]
  have whole := loadTo (b := b) h m m.constraints.length
  rw [m.upTo_length] at whole
  refine seq whole fun _ v followed => ?_
  rw [← followed.domains]
  exact executes v

end Elements

/-! ### Outcomes -/

variable {a : SessionAction σ α β}

/-- A plan that can be carried out is. -/
theorem exists_ok (h : Executes b a w plan domains)
    (done : (w.planRun b plan).progress = .done) :
    ∃ x w', a.run w = (.ok x, w') ∧ w.Followed b plan domains w' := by
  refine Ends.exists_run (.mono h (fun _ _ followed => followed) fun e w' stopped => ?_)
  have explains := stopped.explains
  rw [done] at explains
  exact explains

/-- An element that stops the plan is what the error is about. -/
theorem exists_rejected (h : Executes b a w plan domains) {element : Element} {kind : Kind}
    (rejected : (w.planRun b plan).progress = .rejected element kind) :
    ∃ e w', a.run w = (.error e, w') ∧ e.fault = .unsupported element kind := by
  rw [Executes, Ends] at h
  split at h
  · rename_i run
    have done := h.done
    rw [rejected] at done
    cases done
  · rename_i e w' run
    have explains := h.explains
    rw [rejected] at explains
    exact ⟨e, w', run, explains⟩

end Executes

/-! ### What a run leaves -/

/-- The request of a step. -/
def Step.request? : Step α → Option (Request α)
  | .call r => some r
  | .reject _ _ => none

/-- The element that a step rejects. -/
def Step.rejected? : Step α → Option (Element × Kind)
  | .call _ => none
  | .reject element kind => some (element, kind)

namespace Backend

variable {b : Backend σ α} {permissive : Bool} {plan : List (Step α)}

/-- A plan that was carried out skipped every element that it rejects. -/
theorem skipped_follow {s : σ × StopFlags} (h : (b.follow permissive plan s).progress = .done) :
    (b.follow permissive plan s).skipped = plan.filterMap Step.rejected? := by
  induction plan generalizing s with
  | nil => rfl
  | cons step rest ih =>
    cases step with
    | call r =>
      cases failed : Call.failed ⟨r, (b.perform r s).1⟩ with
      | true =>
        rw [follow_failed failed] at h
        cases h
      | false =>
        rw [follow_call failed] at h ⊢
        exact ih h
    | reject element kind =>
      cases permissive with
      | false => cases h
      | true => exact congrArg ((element, kind) :: ·) (ih h)

/-- A plan that was carried out made every request that it names. -/
theorem requests_follow {s : (σ × List (Call α)) × StopFlags}
    (h : (b.traced.follow permissive plan s).progress = .done) :
    (b.traced.follow permissive plan s).state.1.2.map (·.1) =
      s.1.2.map (·.1) ++ plan.filterMap Step.request? := by
  induction plan generalizing s with
  | nil => exact (List.append_nil _).symm
  | cons step rest ih =>
    cases step with
    | call r =>
      cases failed : Call.failed ⟨r, (b.traced.perform r s).1⟩ with
      | true =>
        rw [follow_failed failed] at h
        cases h
      | false =>
        rw [follow_call failed] at h ⊢
        rw [ih h]
        simp [traced, Step.request?]
    | reject element kind =>
      cases permissive with
      | false => cases h
      | true => exact ih h

end Backend

/-! ### Fresh sessions -/

namespace Session

/-- The session was created around the solver, and its modification was opened. -/
def Opens (b : Backend σ α) (solver : σ) (config : SessionConfig) (w : World σ α) : Prop :=
  ∃ s flags, create b solver config = .ok s ∧ (acquire b).run (s, flags) = (.ok (), w)

/-- Nothing was added so far. -/
structure Empty (w : World σ α) : Prop where
  modifiable : w.Modifiable
  domains : w.1.domains = []
  skipped : w.1.skipped = []

theorem ends_acquire (b : Backend σ α) (w : World σ α) : Ends (acquire b) w
    (fun _ w' => w'.1.stage = .modificationOpen ∧ w'.1.aborted = w.1.aborted ∧
      w'.1.domains = w.1.domains ∧ w'.1.skipped = w.1.skipped ∧ w'.1.config = w.1.config ∧
      w'.1.solver = (b.asked .beginModification (b.asked .acquire w)).1.solver)
    fun _ _ => w.1.stage ≠ .created ∨ (b.answer .acquire w).isOk = false ∨
      (b.answer .beginModification (b.asked .acquire w)).isOk = false := by
  refine .bind <| .expectStage (fun _ => ?_) Or.inl
  refine .bind <| .now <| .bind <| .modifySession <| .bind <| .request ?_
  split
  · rename_i refused
    exact .bind <| .modifySession <| .bind <| .errorOf <| .bind <| .log <| .throw <|
      .inr <| .inl <| congrArg Except.isOk refused
  · refine .bind <| .modifySession <| .bind <| .request ?_
    split
    · rename_i refused
      have failed := congrArg Except.isOk refused
      exact .bind <| .errorOf <| .bind <| .log <| .bind <|
        .always (fun _ _ => .throw <| .inr <| .inr failed) fun _ _ => .inr <| .inr failed
    · exact .bind <| .modifySession <| .bind <| .backendName <| .log ⟨rfl, rfl, rfl, rfl, rfl, rfl⟩

/-- A backend that can be acquired, and whose options have different names, has a fresh session. -/
theorem exists_opens {b : Backend σ α} (solver : σ) (flags : StopFlags)
    (registered : b.registry.isOk = true) (config : SessionConfig)
    (acquired : (b.perform .acquire (solver, flags)).1.isOk = true)
    (begun : (b.perform .beginModification (b.perform .acquire (solver, flags)).2).1.isOk = true) :
    ∃ w, Opens b solver config w ∧ w.1.solver =
      (b.perform .beginModification (b.perform .acquire (solver, flags)).2).2.1 := by
  obtain ⟨s, created, fresh, holds⟩ : ∃ s, create b solver config = .ok s ∧
      s.stage = .created ∧ s.solver = solver := by
    unfold create
    split
    · rename_i refused
      rw [refused] at registered
      cases registered
    · exact ⟨_, rfl, rfl, rfl⟩
  subst holds
  obtain ⟨_, w, run, ends⟩ := Ends.exists_run <|
    (ends_acquire b (s, flags)).mono (fun _ _ h => h) fun _ _ failed => by
      obtain other | refused | refused := failed
      · exact other fresh
      · exact Bool.eq_false_iff.1 refused acquired
      · exact Bool.eq_false_iff.1 refused begun
  exact ⟨w, ⟨s, flags, created, run⟩, ends.2.2.2.2.2⟩

theorem Opens.meets {b : Backend σ α} {solver : σ} {config : SessionConfig} {w : World σ α}
    (h : Opens b solver config w) : Empty w ∧ w.1.config = config ∧ ∃ flags, w.1.solver =
      (b.perform .beginModification (b.perform .acquire (solver, flags)).2).2.1 := by
  obtain ⟨s, flags, created, opened⟩ := h
  obtain ⟨stage, aborted, domains, skipped, config, held⟩ := (ends_acquire b _).of_run opened
  delta create at created
  split at created
  · cases created
  · cases created
    exact ⟨⟨⟨stage, aborted⟩, domains, skipped⟩, config, flags, held⟩

theorem Opens.empty {b : Backend σ α} {solver : σ} {config : SessionConfig} {w : World σ α}
    (h : Opens b solver config w) : Empty w := h.meets.1

theorem Opens.requests {b : Backend σ α} {solver : σ} {config : SessionConfig}
    {w : World (σ × List (Call α)) α} (h : Opens b.traced (solver, []) config w) :
    w.1.solver.2.map (·.1) = [.acquire, .beginModification] := by
  obtain ⟨-, -, flags, held⟩ := h.meets
  rw [held]
  rfl

end Session

end SolverBridge
