import SolverBridge.Backend.Scripted
import SolverBridge.Proofs.Moves
import SolverBridge.Proofs.PlanRuns
import SolverBridge.Proofs.TableResolution

/-! Permissive sessions. What a backend is asked for when elements may be skipped is what it is
asked for when the elements that its table does not take are not in the problem to begin with.
Nothing is asked for such an element, because an element is resolved to its end before the first
of its pieces is posted; the session notes it with its position in the problem and its own kind.
A strict session fails at the first of them. -/

namespace SolverBridge

/-! ### The supported part of a problem -/

section Parts

variable {α : Type} [Scalar α]

/-- The requests that post the objective; none when it is not taken. -/
def Objective.posts (table : AcceptanceTable) (o : Objective α) : List (Request α) :=
  match resolveObjective table (classifyObjective o) with
  | .error _ => []
  | .ok flat => [.postObjective flat]

/-- The requests that post the constraint; none when it is not taken. -/
def Constraint.posts (table : AcceptanceTable) (domains : List (Domain α)) (c : Constraint α) :
    List (Request α) :=
  match resolveConstraint table domains (classifyConstraint c) with
  | .error _ => []
  | .ok pieces => pieces.map .postConstraint

def Objective.isSupported (table : AcceptanceTable) (o : Objective α) : Bool :=
  (resolveObjective table (classifyObjective o)).isOk

def Constraint.isSupported (table : AcceptanceTable) (domains : List (Domain α))
    (c : Constraint α) : Bool :=
  (resolveConstraint table domains (classifyConstraint c)).isOk

namespace Problem

/-- The problem without the elements that are not taken. -/
def supportedPart (table : AcceptanceTable) (m : Problem α) : Problem α where
  domains := m.domains
  objectives := m.objectives.filter (·.isSupported table)
  constraints := m.constraints.filter (·.isSupported table m.domains)

/-- The elements that are not taken, with their positions and kinds: objectives first. -/
def unsupported (table : AcceptanceTable) (m : Problem α) : List (Element × Kind) :=
  (m.objectives.zipIdx.filter fun e => !e.1.isSupported table).map
      (fun e => (.objective e.2, (classifyObjective e.1).kind)) ++
    (m.constraints.zipIdx.filter fun e => !e.1.isSupported table m.domains).map
      fun e => (.constraint e.2, (classifyConstraint e.1).kind)

/-- Everything a backend is asked for the problem if no request fails and elements may be
skipped. -/
def requests (table : AcceptanceTable) (m : Problem α) : List (Request α) :=
  m.domains.map .addVariable ++ (m.objectives.flatMap (·.posts table) ++
    m.constraints.zipIdx.flatMap fun e => .startConstraint e.2 :: e.1.posts table m.domains)

end Problem

/-- The request adds or posts something. -/
def Request.isAdd {α : Type} : Request α → Bool
  | .addVariable _ | .postObjective _ | .postConstraint _ => true
  | _ => false

/-- The requests that added or posted something. -/
def addRequests {α : Type} (calls : List (Call α)) : List (Request α) :=
  (calls.map (·.1)).filter Request.isAdd

/-- What a backend with this table may be asked for while a problem is loaded: nothing of a kind
that the table does not accept. -/
def Request.IsOffered {α : Type} (table : AcceptanceTable) : Request α → Prop
  | .addVariable _ | .startConstraint _ => True
  | .postObjective o => (table.objective o.kind).isAccepted = true
  | .postConstraint c => (table.constraint c.kind).isAccepted = true
  | _ => False

/-! ### The plan of a problem -/

variable {table : AcceptanceTable} {domains : List (Domain α)}

theorem objectiveSteps_parts (table : AcceptanceTable) (i : Nat) (o : Objective α) :
    (objectiveSteps table i o).filterMap Step.request? = o.posts table ∧
      (objectiveSteps table i o).filterMap Step.rejected? =
        if !o.isSupported table then [(.objective i, (classifyObjective o).kind)] else [] := by
  rw [objectiveSteps, Objective.posts, Objective.isSupported, resolveObjective]
  by_cases taken : (table.objective (classifyObjective o).kind).isAccepted = true
  · rw [if_pos taken]
    exact ⟨rfl, rfl⟩
  · rw [if_neg taken]
    exact ⟨rfl, rfl⟩

theorem constraintSteps_parts (table : AcceptanceTable) (domains : List (Domain α)) (i : Nat)
    (c : Constraint α) :
    (constraintSteps table domains i c).filterMap Step.request? =
        .startConstraint i :: c.posts table domains ∧
      (constraintSteps table domains i c).filterMap Step.rejected? =
        if !c.isSupported table domains then [(.constraint i, (classifyConstraint c).kind)]
        else [] := by
  have resolved := resolved_resolveConstraint table domains (classifyConstraint c)
  rw [constraintSteps, Constraint.posts, Constraint.isSupported]
  cases e : resolveConstraint table domains (classifyConstraint c) with
  | error u =>
    rw [e] at resolved
    rw [← resolved.kind_of_error]
    exact ⟨rfl, rfl⟩
  | ok pieces =>
    constructor
    · simp [Step.request?, List.filterMap_map, Function.comp_def]
    · simp [Step.rejected?, Except.isOk, Except.toBool]

theorem objectivesPlan_parts (table : AcceptanceTable) (i : Nat) (os : List (Objective α)) :
    (objectivesPlan table i os).filterMap Step.request? = os.flatMap (·.posts table) ∧
      (objectivesPlan table i os).filterMap Step.rejected? =
        ((os.zipIdx i).filter fun e => !e.1.isSupported table).map
          fun e => (.objective e.2, (classifyObjective e.1).kind) := by
  induction os generalizing i with
  | nil => exact ⟨rfl, rfl⟩
  | cons o rest ih =>
    obtain ⟨requests, rejected⟩ := ih (i + 1)
    obtain ⟨first, rejects⟩ := objectiveSteps_parts table i o
    rw [objectivesPlan, List.filterMap_append, List.filterMap_append, requests, rejected, first,
      rejects, List.zipIdx_cons, List.filter_cons]
    refine ⟨rfl, ?_⟩
    split <;> rfl

theorem constraintsPlan_parts (table : AcceptanceTable) (domains : List (Domain α)) (i : Nat)
    (cs : List (Constraint α)) :
    (constraintsPlan table domains i cs).filterMap Step.request? =
        (cs.zipIdx i).flatMap (fun e => .startConstraint e.2 :: e.1.posts table domains) ∧
      (constraintsPlan table domains i cs).filterMap Step.rejected? =
        ((cs.zipIdx i).filter fun e => !e.1.isSupported table domains).map
          fun e => (.constraint e.2, (classifyConstraint e.1).kind) := by
  induction cs generalizing i with
  | nil => exact ⟨rfl, rfl⟩
  | cons c rest ih =>
    obtain ⟨requests, rejected⟩ := ih (i + 1)
    obtain ⟨first, rejects⟩ := constraintSteps_parts table domains i c
    rw [constraintsPlan, List.filterMap_append, List.filterMap_append, requests, rejected, first,
      rejects, List.zipIdx_cons, List.filter_cons]
    refine ⟨rfl, ?_⟩
    split <;> rfl

theorem Problem.plan_parts (table : AcceptanceTable) (m : Problem α) :
    (m.plan table []).filterMap Step.request? = m.requests table ∧
      (m.plan table []).filterMap Step.rejected? = m.unsupported table := by
  obtain ⟨objectives, rejected⟩ := objectivesPlan_parts table 0 m.objectives
  obtain ⟨constraints, rejected'⟩ :=
    constraintsPlan_parts table m.domains 0 m.constraints
  rw [plan, List.nil_append, List.filterMap_append, List.filterMap_append, List.filterMap_append,
    List.filterMap_append, objectives, constraints, rejected, rejected']
  constructor
  · simp [requests, Step.request?, List.filterMap_map, Function.comp_def]
  · simp [unsupported, Step.rejected?, List.filterMap_map, Function.comp_def]

/-! ### What is asked for -/

theorem Objective.posts_of_unsupported {o : Objective α} (h : o.isSupported table = false) :
    o.posts table = [] := by
  rw [isSupported] at h
  rw [posts]
  split
  · rfl
  · rename_i e
    rw [e] at h
    cases h

theorem Constraint.posts_of_unsupported {c : Constraint α}
    (h : c.isSupported table domains = false) : c.posts table domains = [] := by
  rw [isSupported] at h
  rw [posts]
  split
  · rfl
  · rename_i e
    rw [e] at h
    cases h

omit [Scalar α] in
/-- What adds nothing may be left out. -/
theorem flatMap_filter {β γ : Type} {f : β → List γ} {keep : β → Bool} {xs : List β}
    (h : ∀ x ∈ xs, keep x = false → f x = []) : (xs.filter keep).flatMap f = xs.flatMap f := by
  induction xs with
  | nil => rfl
  | cons x rest ih =>
    rw [List.forall_mem_cons] at h
    rw [List.filter_cons, List.flatMap_cons, ← ih h.2]
    split
    · rw [List.flatMap_cons]
    · rename_i out
      rw [h.1 (Bool.eq_false_iff.2 out), List.nil_append]

theorem Objective.isAdd_posts (table : AcceptanceTable) (o : Objective α) :
    ∀ r ∈ o.posts table, r.isAdd = true := by
  rw [posts]
  split
  · exact List.forall_mem_nil _
  · exact List.forall_mem_singleton.2 rfl

theorem Constraint.isAdd_posts (table : AcceptanceTable) (domains : List (Domain α))
    (c : Constraint α) : ∀ r ∈ c.posts table domains, r.isAdd = true := by
  rw [posts]
  split
  · exact List.forall_mem_nil _
  · exact List.forall_mem_map.2 fun _ _ => rfl

theorem filter_isAdd_constraints (i : Nat) (cs : List (Constraint α)) :
    ((cs.zipIdx i).flatMap fun e => Request.startConstraint e.2 ::
      e.1.posts table domains).filter Request.isAdd = cs.flatMap (·.posts table domains) := by
  induction cs generalizing i with
  | nil => rfl
  | cons c rest ih =>
    have posts := List.filter_eq_self.2 (c.isAdd_posts table domains)
    rw [List.zipIdx_cons, List.flatMap_cons, List.filter_append, ih,
      List.filter_cons_of_neg Bool.false_ne_true, posts, List.flatMap_cons]

/-- The requests that add or post something. -/
theorem Problem.filter_isAdd_requests (m : Problem α) :
    (m.requests table).filter Request.isAdd = m.domains.map .addVariable ++
      (m.objectives.flatMap (·.posts table) ++
        m.constraints.flatMap (·.posts table m.domains)) := by
  have added : (m.domains.map Request.addVariable).filter Request.isAdd =
      m.domains.map .addVariable :=
    List.filter_eq_self.2 (List.forall_mem_map.2 fun _ _ => rfl)
  have objectives : (m.objectives.flatMap (·.posts table)).filter Request.isAdd =
      m.objectives.flatMap (·.posts table) := by
    refine List.filter_eq_self.2 fun r hr => ?_
    obtain ⟨o, -, hr⟩ := List.mem_flatMap.1 hr
    exact o.isAdd_posts table r hr
  rw [requests, List.filter_append, List.filter_append, added, objectives,
    filter_isAdd_constraints]

/-- Nothing is added or posted for elements that are not taken. -/
theorem Problem.filter_isAdd_supportedPart (m : Problem α) :
    ((m.supportedPart table).requests table).filter Request.isAdd =
      (m.requests table).filter Request.isAdd := by
  rw [filter_isAdd_requests, filter_isAdd_requests, supportedPart]
  dsimp only
  rw [flatMap_filter fun o _ => Objective.posts_of_unsupported,
    flatMap_filter fun c _ => Constraint.posts_of_unsupported]

theorem Problem.unsupported_supportedPart (m : Problem α) :
    (m.supportedPart table).unsupported table = [] := by
  have none {β : Type} {keep : β → Bool} (xs : List β) :
      ((xs.filter keep).zipIdx.filter fun e => !keep e.1) = [] := by
    refine List.filter_eq_nil_iff.2 fun e he => ?_
    have member := List.mem_filter.1 (List.fst_mem_of_mem_zipIdx he)
    simp [member.2]
  rw [unsupported, supportedPart]
  dsimp only
  rw [none, none]
  rfl

/-- Nothing is asked for that the table does not accept. -/
theorem Problem.isOffered_of_mem_requests (m : Problem α) :
    ∀ r ∈ m.requests table, r.IsOffered table := by
  rw [requests, List.forall_mem_append, List.forall_mem_append, List.forall_mem_map,
    List.forall_mem_flatMap, List.forall_mem_flatMap]
  refine ⟨fun _ _ => trivial, fun o _ => ?_, fun e _ => List.forall_mem_cons.2 ⟨trivial, ?_⟩⟩
  · rw [Objective.posts, resolveObjective]
    by_cases taken : (table.objective (classifyObjective o).kind).isAccepted = true
    · rw [if_pos taken]
      exact List.forall_mem_singleton.2 taken
    · rw [if_neg taken]
      exact List.forall_mem_nil _
  · have resolved := resolved_resolveConstraint table m.domains (classifyConstraint e.1)
    rw [Constraint.posts]
    split
    · exact List.forall_mem_nil _
    · rename_i pieces h
      rw [h] at resolved
      exact List.forall_mem_map.2 fun c hc => resolved.postable c hc

theorem Problem.isOffered_of_mem_plan (m : Problem α) :
    ∀ r ∈ (m.plan table []).filterMap Step.request?, r.IsOffered table := by
  rw [(m.plan_parts table).1]
  exact m.isOffered_of_mem_requests

end Parts

/-! ### Backends that take what their table accepts -/

section Runs

variable {σ α : Type}

/-- In the states that count, nothing that the backend may be offered fails. -/
def Backend.TakesAdds (b : Backend σ α) (good : σ → Prop) : Prop :=
  ∀ (r : Request α) (s : σ × StopFlags), r.IsOffered b.acceptance → good s.1 →
    Call.failed ⟨r, (b.perform r s).1⟩ = false ∧ good (b.perform r s).2.1

namespace Backend.TakesAdds

variable {b : Backend σ α} {good : σ → Prop} {plan : List (Step α)} {s : σ × StopFlags}

theorem traced (h : b.TakesAdds good) : b.traced.TakesAdds fun s => good s.1 :=
  fun r s => h r (s.1.1, s.2)

/-- A plan can be carried out when elements may be skipped. -/
theorem done_follow (h : b.TakesAdds good) (hs : good s.1)
    (offers : ∀ r ∈ plan.filterMap Step.request?, r.IsOffered b.acceptance) :
    (b.follow true plan s).progress = .done := by
  induction plan generalizing s with
  | nil => rfl
  | cons step rest ih =>
    cases step with
    | call r =>
      obtain ⟨offered, offers⟩ := List.forall_mem_cons.1 offers
      obtain ⟨taken, kept⟩ := h r s offered hs
      rw [follow_call taken]
      exact ih kept offers
    | reject element kind => exact ih hs offers

/-- When no element may be skipped, the first that a plan rejects stops it. -/
theorem progress_follow (h : b.TakesAdds good) (hs : good s.1)
    (offers : ∀ r ∈ plan.filterMap Step.request?, r.IsOffered b.acceptance) :
    (b.follow false plan s).progress =
      match plan.filterMap Step.rejected? with
      | [] => .done
      | (element, kind) :: _ => .rejected element kind := by
  induction plan generalizing s with
  | nil => rfl
  | cons step rest ih =>
    cases step with
    | call r =>
      obtain ⟨offered, offers⟩ := List.forall_mem_cons.1 offers
      obtain ⟨taken, kept⟩ := h r s offered hs
      rw [follow_call taken]
      exact ih kept offers
    | reject element kind => rfl

end Backend.TakesAdds

theorem Scripted.takes_loggedLast {s : ScriptedState α} (h : ∀ r, s.script.failure r = none)
    {r : Request α} {exported : String} {next : ScriptedState α → ScriptedState α}
    (kept : ∀ t, (next t).script = t.script) :
    (!(loggedLast s r exported next).1.isOk) = false ∧
      ∀ r', (loggedLast s r exported next).2.script.failure r' = none := by
  rw [loggedLast, h]
  refine ⟨rfl, fun r' => ?_⟩
  rw [kept]
  exact h r'

/-- A linear solver takes what its table accepts. -/
theorem Scripted.takesAdds_bare [Scalar α] :
    (bare (α := α) .linear).TakesAdds fun s => ∀ r, s.script.failure r = none := by
  intro r s offered hs
  cases r with
  | addVariable d => exact takes_loggedLast hs fun _ => by rfl
  | startConstraint i => exact ⟨rfl, hs⟩
  | postObjective o =>
    cases o with
    | linear o => exact takes_loggedLast hs fun _ => by rfl
    | _ => cases offered
  | postConstraint c =>
    cases c with
    | linear row => exact takes_loggedLast hs fun _ => by rfl
    | _ => cases offered
  | _ => exact offered.elim

/-! ### Loading -/

variable [Scalar α] {b : Backend σ α} {good : σ → Prop} {config : SessionConfig} {solver : σ}
  {w : World (σ × List (Call α)) α}

theorem Session.Opens.executes_load (opened : Session.Opens b.traced (solver, []) config w)
    (m : Problem α) :
    Executes b.traced (Session.load b.traced m) w (m.plan b.acceptance []) m.domains := by
  have executes := Executes.load (b := b.traced) opened.empty.modifiable m
  rw [opened.empty.domains] at executes
  exact executes

/-- A fresh session that loaded a problem asked for everything that is taken and skipped the
rest. -/
theorem Session.Opens.of_followed (opened : Session.Opens b.traced (solver, []) config w)
    {m : Problem α} {loaded : World (σ × List (Call α)) α}
    (followed : w.Followed b.traced (m.plan b.acceptance []) m.domains loaded) :
    loaded.1.solver.2.map (·.1) = .acquire :: .beginModification :: m.requests b.acceptance ∧
      loaded.1.skipped = m.unsupported b.acceptance := by
  obtain ⟨requests, rejected⟩ := m.plan_parts b.acceptance
  constructor
  · have calls := Backend.requests_follow followed.done
    rw [requests, opened.requests] at calls
    rw [followed.solver]
    exact calls
  · have skipped := Backend.skipped_follow followed.done
    rw [rejected] at skipped
    rw [followed.skipped, opened.empty.skipped, List.nil_append]
    exact skipped

/-- A permissive session loads every problem. -/
theorem load_of_permissive (takes : b.TakesAdds good) (m : Problem α)
    (permissive : config.permissive = true) (opened : Session.Opens b.traced (solver, []) config w)
    (hgood : good w.1.solver.1) :
    ∃ loaded, (Session.load b.traced m).run w = (.ok (), loaded) ∧
      loaded.1.solver.2.map (·.1) = .acquire :: .beginModification :: m.requests b.acceptance ∧
      loaded.1.skipped = m.unsupported b.acceptance := by
  have done : (w.planRun b.traced (m.plan b.acceptance [])).progress = .done := by
    rw [World.planRun, opened.meets.2.1, permissive]
    exact takes.traced.done_follow hgood m.isOffered_of_mem_plan
  obtain ⟨_, loaded, run, followed⟩ := (opened.executes_load m).exists_ok done
  exact ⟨loaded, run, opened.of_followed followed⟩

/-- A strict session loads every problem whose elements are all taken, and fails at the first
element that is not. -/
theorem load_of_strict (takes : b.TakesAdds good) (m : Problem α)
    (strict : config.permissive = false) (opened : Session.Opens b.traced (solver, []) config w)
    (hgood : good w.1.solver.1) :
    (m.unsupported b.acceptance = [] → ∃ loaded,
      (Session.load b.traced m).run w = (.ok (), loaded) ∧
      loaded.1.solver.2.map (·.1) =
        .acquire :: .beginModification :: m.requests b.acceptance) ∧
    ∀ element kind rest, m.unsupported b.acceptance = (element, kind) :: rest →
      ∃ e failed, (Session.load b.traced m).run w = (.error e, failed) ∧
        e.fault = .unsupported element kind := by
  have progress : (w.planRun b.traced (m.plan b.acceptance [])).progress =
      match m.unsupported b.acceptance with
      | [] => .done
      | (element, kind) :: _ => .rejected element kind := by
    rw [World.planRun, opened.meets.2.1, strict, ← (m.plan_parts b.acceptance).2]
    exact takes.traced.progress_follow hgood m.isOffered_of_mem_plan
  constructor
  · intro taken
    rw [taken] at progress
    obtain ⟨_, loaded, run, followed⟩ := (opened.executes_load m).exists_ok progress
    exact ⟨loaded, run, (opened.of_followed followed).1⟩
  · intro element kind rest refused
    rw [refused] at progress
    exact (opened.executes_load m).exists_rejected progress

/-- Skipping is loading the rest. With a backend that takes what its table accepts, a permissive
session loads every problem: it asks for exactly what a strict session asks for when the elements
that are not taken are left out, it posts only what the table accepts, and it has noted the
elements that were left out. A strict session loads the whole problem only if there are none, and
otherwise names the first. -/
theorem load_permissive (takes : b.TakesAdds good) (m : Problem α)
    (permissive : config.permissive = true) (opened : Session.Opens b.traced (solver, []) config w)
    (hgood : good w.1.solver.1) {strict : SessionConfig} (fails : strict.permissive = false)
    {solver' : σ} {v : World (σ × List (Call α)) α}
    (opened' : Session.Opens b.traced (solver', []) strict v) (hgood' : good v.1.solver.1) :
    (∃ loaded part,
      (Session.load b.traced m).run w = (.ok (), loaded) ∧
      (Session.load b.traced (m.supportedPart b.acceptance)).run v = (.ok (), part) ∧
      addRequests loaded.1.solver.2 = addRequests part.1.solver.2 ∧
      loaded.1.solver.2.map (·.1) = .acquire :: .beginModification :: m.requests b.acceptance ∧
      (∀ r ∈ addRequests loaded.1.solver.2, r.IsOffered b.acceptance) ∧
      loaded.1.skipped = m.unsupported b.acceptance) ∧
    (((Session.load b.traced m).run v).1.isOk = true ↔ m.unsupported b.acceptance = []) ∧
    ∀ element kind rest, m.unsupported b.acceptance = (element, kind) :: rest →
      ∃ e failed, (Session.load b.traced m).run v = (.error e, failed) ∧
        e.fault = .unsupported element kind := by
  obtain ⟨loaded, run, requests, skipped⟩ := load_of_permissive takes m permissive opened hgood
  obtain ⟨part, run', requests'⟩ := (load_of_strict takes (m.supportedPart b.acceptance) fails
    opened' hgood').1 m.unsupported_supportedPart
  obtain ⟨whole, stops⟩ := load_of_strict takes m fails opened' hgood'
  have asked : addRequests loaded.1.solver.2 = (m.requests b.acceptance).filter Request.isAdd := by
    rw [addRequests, requests]
    rfl
  have asked' : addRequests part.1.solver.2 =
      ((m.supportedPart b.acceptance).requests b.acceptance).filter Request.isAdd := by
    rw [addRequests, requests']
    rfl
  refine ⟨⟨loaded, part, run, run', ?_, requests, ?_, skipped⟩, ?_, stops⟩
  · rw [asked, asked', m.filter_isAdd_supportedPart]
  · rw [asked]
    exact fun r hr => m.isOffered_of_mem_requests r (List.mem_filter.1 hr).1
  · cases rejected : m.unsupported b.acceptance with
    | nil =>
      obtain ⟨loaded, run, -⟩ := whole rejected
      rw [run]
      exact iff_of_true rfl rfl
    | cons first rest =>
      obtain ⟨e, failed, run, -⟩ := stops first.1 first.2 rest rejected
      rw [run]
      exact iff_of_false nofun nofun

end Runs

open Exact.SquareOnly in
/-- A linear solver is asked for the row and the linear objective and not for the square. -/
theorem load_permissive_square :
    let b := @Scripted.bare Exact _ .linear
    let square : Body Exact := .ofExpr (.mul (.var ⟨0⟩) (.var ⟨0⟩))
    let m : Problem Exact :=
      { domains := [.binary]
        objectives := [⟨.minimize, .ofAffine (.ofVar ⟨0⟩)⟩, ⟨.minimize, square⟩]
        constraints := [.le square 1, .le (.ofAffine (.ofVar ⟨0⟩)) 1] }
    ∃ w v, Session.Opens b.traced ({ script := { objective := 0 } }, []) { permissive := true } w ∧
      Session.Opens b.traced ({ script := { objective := 0 } }, []) {} v ∧
      (∃ loaded, (Session.load b.traced m).run w = (.ok (), loaded) ∧
        loaded.1.skipped = [(.objective 1, .quadratic), (.constraint 0, .quadratic)]) ∧
      ∃ e failed, (Session.load b.traced m).run v = (.error e, failed) ∧
        e.fault = .unsupported (.objective 1) .quadratic := by
  intro b square m
  have opens (config : SessionConfig) : ∃ w, Session.Opens b.traced
      ({ script := { objective := 0 } }, []) config w ∧
      ∀ r, w.1.solver.1.script.failure r = none := by
    obtain ⟨w, opened, solver⟩ := Session.exists_opens (b := b.traced)
      ({ script := { objective := 0 } }, []) .initial (by decide +kernel) config rfl rfl
    refine ⟨w, opened, ?_⟩
    rw [solver]
    exact fun _ => rfl
  obtain ⟨w, opened, good⟩ := opens { permissive := true }
  obtain ⟨v, opened', good'⟩ := opens {}
  have rejected : m.unsupported b.acceptance =
      [(.objective 1, .quadratic), (.constraint 0, .quadratic)] := by
    decide +kernel
  obtain ⟨⟨loaded, _, run, -, -, -, -, skipped⟩, -, stops⟩ :=
    load_permissive Scripted.takesAdds_bare m rfl opened good rfl opened' good'
  rw [rejected] at skipped
  exact ⟨w, v, opened, opened', ⟨loaded, run, skipped⟩, stops _ _ _ rejected⟩

end SolverBridge
