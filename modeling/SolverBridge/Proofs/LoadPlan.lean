import SolverBridge.Proofs.Trace

/-! What a session asks of a backend when elements are handed to it. The requests are fixed
before the first is sent, by the elements and the backend's table: they are the plan. A
plan also says which elements the backend does not take. The calls that are made follow the
plan to its end, to the first request that fails, or, unless elements may be skipped, to
the first element that is not taken; and how far they got is what the session answers. -/

namespace SolverBridge

variable {σ α : Type}

/-- The backend refused the request. -/
def Call.failed : Call α → Bool
  | ⟨.acquire, a⟩ | ⟨.beginModification, a⟩ | ⟨.endModification, a⟩ | ⟨.exportModel _, a⟩
  | ⟨.addVariable _, a⟩ | ⟨.postObjective _, a⟩ | ⟨.postConstraint _, a⟩ | ⟨.takeStopFlag _, a⟩
  | ⟨.solve, a⟩ => !a.isOk
  | ⟨.nativeStatus, a⟩ => !a.isOk
  | ⟨.primal, a⟩ | ⟨.dual, a⟩ => !a.isOk
  | ⟨.objectiveValue, a⟩ => !a.isOk
  | ⟨.findIis, a⟩ => !a.isOk
  | _ => false

/-! ### Plans -/

/-- A step of a plan: a request, or an element that the backend does not take. -/
inductive Step (α : Type)
  | call (r : Request α)
  | reject (element : Element) (kind : Kind)

/-- How far a plan was followed. -/
inductive Progress
  | done
  | failed
  | rejected (element : Element) (kind : Kind)

/-- The fault that stopped the plan. -/
def Progress.Explains : Progress → SessionFault → Prop
  | .done, _ => False
  | .failed, f => ∃ operation message, f = .native operation message
  | .rejected element kind, f => f = .unsupported element kind

/-- The calls follow the plan. -/
inductive Follows (permissive : Bool) : List (Step α) → List (Call α) → Progress → Prop
  | done : Follows permissive [] [] .done
  | call {r : Request α} {a : r.Answer} {plan calls progress}
      (ok : Call.failed ⟨r, a⟩ = false) (rest : Follows permissive plan calls progress) :
      Follows permissive (.call r :: plan) (⟨r, a⟩ :: calls) progress
  | failed {r : Request α} {a : r.Answer} {plan} (refused : Call.failed ⟨r, a⟩ = true) :
      Follows permissive (.call r :: plan) [⟨r, a⟩] .failed
  | skip {element kind plan calls progress} (skips : permissive = true)
      (rest : Follows permissive plan calls progress) :
      Follows permissive (.reject element kind :: plan) calls progress
  | reject {element kind plan} (strict : permissive = false) :
      Follows permissive (.reject element kind :: plan) [] (.rejected element kind)

namespace Follows

variable {permissive : Bool} {plan more : List (Step α)} {calls further : List (Call α)}
  {progress : Progress}

/-- A plan that was followed to its end may go on. -/
theorem append (h : Follows permissive plan calls .done)
    (h' : Follows permissive more further progress) :
    Follows permissive (plan ++ more) (calls ++ further) progress := by
  generalize e : Progress.done = p at h
  induction h with
  | done => exact h'
  | call ok _ ih => exact .call ok (ih e)
  | skip skips _ ih => exact .skip skips (ih e)
  | failed | reject => cases e

/-- What stopped a plan stops every longer one. -/
theorem stop (h : Follows permissive plan calls progress) (hp : progress ≠ .done) :
    Follows permissive (plan ++ more) calls progress := by
  induction h with
  | done => exact absurd rfl hp
  | call ok _ ih => exact .call ok (ih hp)
  | failed refused => exact .failed refused
  | skip skips _ ih => exact .skip skips (ih hp)
  | reject strict => exact .reject strict

end Follows

section Plans

variable [Scalar α]

def objectiveSteps (table : AcceptanceTable) (i : Nat) (o : Objective α) : List (Step α) :=
  match resolveObjective table (classifyObjective o) with
  | .error u => [.reject (.objective i) u.kind]
  | .ok flat => [.call (.postObjective flat)]

def constraintSteps (table : AcceptanceTable) (domains : List (Domain α)) (i : Nat)
    (c : Constraint α) : List (Step α) :=
  .call (.startConstraint i) ::
    match resolveConstraint table domains (classifyConstraint c) with
    | .error u => [.reject (.constraint i) u.kind]
    | .ok pieces => pieces.map fun d => .call (.postConstraint d)

def objectivesPlan (table : AcceptanceTable) : Nat → List (Objective α) → List (Step α)
  | _, [] => []
  | i, o :: rest => objectiveSteps table i o ++ objectivesPlan table (i + 1) rest

def constraintsPlan (table : AcceptanceTable) (domains : List (Domain α)) :
    Nat → List (Constraint α) → List (Step α)
  | _, [] => []
  | i, c :: rest => constraintSteps table domains i c ++ constraintsPlan table domains (i + 1) rest

/-- All that a problem asks for, when some variables were added before. -/
def Problem.plan (table : AcceptanceTable) (before : List (Domain α)) (m : Problem α) :
    List (Step α) :=
  (m.domains.map fun d => .call (.addVariable d)) ++
    (objectivesPlan table 0 m.objectives ++
      constraintsPlan table (before ++ m.domains) 0 m.constraints)

end Plans

/-! ### Carrying a plan out -/

/-- The plan was followed to its end, and these are the domains now. -/
def Control.Carried (c : Control σ α) (plan : List (Step α)) (domains : List (Domain α))
    (c' : Control σ α) : Prop :=
  ∃ calls, Follows c.config.permissive plan calls .done ∧
    c' = { c with calls := c.calls ++ calls, domains := domains }

/-- The plan was stopped, and this ended the modification. -/
def Control.Stopped (c : Control σ α) (plan : List (Step α)) (e : SessionError)
    (c' : Control σ α) : Prop :=
  ∃ calls progress domains, Follows c.config.permissive plan calls progress ∧
    progress.Explains e.fault ∧
    c' = { c with calls := c.calls ++ calls, domains := domains, aborted := true }

/-- The action follows the plan and leaves these domains; what stops it ends the modification. -/
def Carries {β : Type} (a : SessionAction (σ × List (Call α)) α β) (c : Control σ α)
    (plan : List (Step α)) (domains : List (Domain α)) : Prop :=
  Meets a c (fun _ => c.Carried plan domains) (c.Stopped plan)

namespace Carries

variable {β γ : Type} {c : Control σ α} {b : Backend σ α} {plan more : List (Step α)}
  {domains domains' : List (Domain α)}

theorem pure {x : β} : Carries (Pure.pure x) c [] c.domains :=
  Meets.pure ⟨[], .done, by rw [List.append_nil]⟩

theorem seq {a : SessionAction (σ × List (Call α)) α β}
    {f : β → SessionAction (σ × List (Call α)) α γ} (ha : Carries a c plan domains)
    (hf : ∀ x calls, Carries (f x) { c with calls := c.calls ++ calls, domains := domains } more
      domains') : Carries (a >>= f) c (plan ++ more) domains' := by
  refine Meets.bind (Meets.mono ha ?_ ?_)
  · rintro x _ ⟨calls, followed, rfl⟩
    refine Meets.mono (hf x calls) ?_ ?_
    · rintro y _ ⟨further, followed', rfl⟩
      exact ⟨calls ++ further, followed.append followed', by simp only [List.append_assoc]⟩
    · rintro e _ ⟨further, progress, left, followed', explains, rfl⟩
      exact ⟨calls ++ further, progress, left, followed.append followed', explains,
        by simp only [List.append_assoc]⟩
  · rintro e _ ⟨calls, progress, left, followed, explains, rfl⟩
    refine ⟨calls, progress, left, followed.stop ?_, explains, rfl⟩
    rintro rfl
    exact explains

/-- What is done after a request that did not fail. -/
theorem answered {r : Request α} {a : r.Answer} {k : SessionAction (σ × List (Call α)) α β}
    (ok : Call.failed ⟨r, a⟩ = false) (hk : Carries k (c.calling r a) plan domains) :
    Meets k (c.calling r a) (fun _ => c.Carried (.call r :: plan) domains)
      (c.Stopped (.call r :: plan)) := by
  refine Meets.mono hk ?_ ?_
  · rintro x _ ⟨calls, followed, rfl⟩
    exact ⟨⟨r, a⟩ :: calls, .call ok followed, by simp [Control.calling]⟩
  · rintro e _ ⟨calls, progress, left, followed, explains, rfl⟩
    exact ⟨⟨r, a⟩ :: calls, progress, left, .call ok followed, explains, by
      simp [Control.calling]⟩

theorem post {operation : String} {r : Request α} {answer : Except Failure Unit}
    {a : r.Answer} (hfailed : Call.failed ⟨r, a⟩ = !answer.isOk)
    {Q : Unit → Control σ α → Prop} (hok : Call.failed ⟨r, a⟩ = false → Q () (c.calling r a)) :
    Meets (Session.post b.traced operation answer) (c.calling r a) Q
      (c.Stopped (.call r :: plan)) := by
  cases answer with
  | ok x => exact Meets.pure (hok hfailed)
  | error f => exact Meets.abort fun e he =>
      ⟨[⟨r, a⟩], .failed, c.domains, .failed hfailed, ⟨_, _, he⟩, rfl⟩

/-- A request whose failure ends the modification, and what is done after it. -/
theorem posted {operation : String} {r : Request α} {view : r.Answer → Except Failure Unit}
    (hview : ∀ a, Call.failed ⟨r, a⟩ = !(view a).isOk)
    {k : SessionAction (σ × List (Call α)) α β}
    (hk : ∀ a, Carries k (c.calling r a) plan domains) :
    Carries (do Session.post b.traced operation (view (← Session.request b.traced r)); k) c
      (.call r :: plan) domains :=
  Meets.bind <| Meets.request fun a => Meets.bind <| post (hview a) fun ok => answered ok (hk a)

theorem addVariable (h : c.Modifiable) (d : Domain α) :
    Carries (Session.addVariable b.traced d) c [.call (.addVariable d)] (c.domains ++ [d]) := by
  refine Meets.bind <| Meets.expectModifiable (fun _ => ?_) fun refused => absurd h refused
  refine posted (fun _ => rfl) fun a => Meets.bind <| Meets.getSession fun s hs => Meets.bind <|
    Meets.modifySession (fun c => { c with domains := c.domains ++ [d] }) (fun _ => rfl) ?_
  exact Meets.bind <| Meets.trace <| Meets.pure ⟨[], .done, by rw [List.append_nil]; rfl⟩

/-- In a permissive session an element that is not taken leaves no trace in the calls. -/
theorem rejectElement (element : Element) (kind : Kind) :
    Carries (Session.rejectElement b.traced element kind) c [.reject element kind] c.domains := by
  refine Meets.bind <| Meets.getSession fun s hs => Meets.ite (fun permissive => ?_)
    fun strict => ?_
  · subst hs
    refine Meets.bind <| Meets.log <| Meets.modifySession id (fun _ => rfl) ?_
    exact ⟨[], .skip permissive .done, by simp⟩
  · subst hs
    refine Meets.abort fun e he => ?_
    exact ⟨[], .rejected element kind, s.domains, .reject (Bool.eq_false_iff.2 strict), he, by
      rw [List.append_nil]; rfl⟩

theorem postPieces (pieces : List (FlatConstraint α)) :
    Carries (Session.postPieces b.traced pieces) c (pieces.map fun d => .call (.postConstraint d))
      c.domains := by
  induction pieces generalizing c with
  | nil => exact pure
  | cons d rest ih => exact posted (fun _ => rfl) fun _ => ih

section Elements

variable [Scalar α]

theorem addObjective (h : c.Modifiable) (i : Nat) (o : Objective α) :
    Carries (Session.addObjective b.traced i o) c (objectiveSteps b.acceptance i o) c.domains := by
  refine Meets.bind <| Meets.expectModifiable (fun _ => ?_) fun refused => absurd h refused
  rw [objectiveSteps]
  cases e : resolveObjective b.acceptance (classifyObjective o) with
  | error u =>
    have e : resolveObjective b.traced.acceptance (classifyObjective o) = .error u := e
    rw [e]
    exact rejectElement _ _
  | ok flat =>
    have e : resolveObjective b.traced.acceptance (classifyObjective o) = .ok flat := e
    rw [e]
    exact Meets.bind <| Meets.trace <| Meets.bind <| Meets.request fun a =>
      post rfl fun ok => ⟨[⟨_, a⟩], .call ok .done, rfl⟩

theorem addConstraint (h : c.Modifiable) (i : Nat) (d : Constraint α) :
    Carries (Session.addConstraint b.traced i d) c (constraintSteps b.acceptance c.domains i d)
      c.domains := by
  refine Meets.bind <| Meets.expectModifiable (fun _ => ?_) fun refused => absurd h refused
  refine Meets.bind <| Meets.request fun a => answered rfl <| Meets.bind <|
    Meets.getSession fun s hs => ?_
  have hdomains : s.domains = c.domains := congrArg Control.domains hs
  cases e : resolveConstraint b.acceptance c.domains (classifyConstraint d) with
  | error u =>
    have e : resolveConstraint b.traced.acceptance s.domains (classifyConstraint d) =
        .error u := hdomains ▸ e
    rw [e]
    exact rejectElement _ _
  | ok pieces =>
    have e : resolveConstraint b.traced.acceptance s.domains (classifyConstraint d) =
        .ok pieces := hdomains ▸ e
    rw [e]
    exact Meets.bind <| Meets.trace <| postPieces pieces

/-! ### Many elements -/

omit [Scalar α] in
theorem addVariables (h : c.Modifiable) (ds : List (Domain α)) :
    Carries (Session.addVariables b.traced ds) c (ds.map fun d => .call (.addVariable d))
      (c.domains ++ ds) := by
  induction ds generalizing c with
  | nil =>
    rw [List.append_nil]
    exact pure
  | cons d rest ih =>
    refine (seq (addVariable h d) fun _ calls => ?_ :)
    have := ih (c := { c with calls := c.calls ++ calls, domains := c.domains ++ [d] }) h
    rwa [List.append_assoc] at this

theorem addObjectives (h : c.Modifiable) (i : Nat) (os : List (Objective α)) :
    Carries (Session.addObjectives b.traced i os) c (objectivesPlan b.acceptance i os)
      c.domains := by
  induction os generalizing c i with
  | nil => exact pure
  | cons o rest ih =>
    exact seq (addObjective h i o) fun _ calls =>
      ih (c := { c with calls := c.calls ++ calls }) h (i + 1)

theorem addConstraints (h : c.Modifiable) (i : Nat) (ds : List (Constraint α)) :
    Carries (Session.addConstraints b.traced i ds) c
      (constraintsPlan b.acceptance c.domains i ds) c.domains := by
  induction ds generalizing c i with
  | nil => exact pure
  | cons d rest ih =>
    exact seq (addConstraint h i d) fun _ calls =>
      ih (c := { c with calls := c.calls ++ calls }) h (i + 1)

theorem load (h : c.Modifiable) (m : Problem α) :
    Carries (Session.load b.traced m) c (m.plan b.acceptance c.domains)
      (c.domains ++ m.domains) := by
  rw [Problem.plan, ← List.append_nil (constraintsPlan _ _ _ _)]
  refine Meets.bind <| Meets.expectModifiable (fun _ => ?_) fun refused => absurd h refused
  refine Meets.bind <| Meets.now fun _ => seq (addVariables h _) fun _ calls => ?_
  refine seq (addObjectives (c := { c with calls := c.calls ++ calls, domains := _ }) h 0 _)
    fun _ further => ?_
  refine seq (addConstraints
    (c := { c with calls := c.calls ++ calls ++ further, domains := _ }) h 0 _) fun _ _ => ?_
  refine Meets.bind <| Meets.now fun _ => Meets.bind <| Meets.getSession fun _ _ => Meets.log ?_
  exact ⟨[], .done, by rw [List.append_nil]⟩

end Elements

end Carries

end SolverBridge
