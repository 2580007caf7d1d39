import SolverBridge.Backend.Scripted
import SolverBridge.Proofs.Moves
import SolverBridge.Proofs.Resolution

/-! Loading keeps the problem. Where no element may be skipped, a problem that was loaded was
asked for as planned: the variables, then for each objective the objective that it was
classified as, then for each constraint what it was resolved into. What the backend was
asked for therefore has the same variables, the same objectives and the same points. -/

namespace SolverBridge

/-! ### What a backend was asked for -/

section Requests

variable {α β : Type}

def Request.domain? : Request α → Option (Domain α)
  | .addVariable d => some d
  | _ => none

def Request.objective? : Request α → Option (FlatObjective α)
  | .postObjective o => some o
  | _ => none

def Request.constraint? : Request α → Option (FlatConstraint α)
  | .postConstraint c => some c
  | _ => none

/-- The domains of the variables added, in order. -/
def addedDomains (calls : List (Call α)) : List (Domain α) := calls.filterMap fun c => c.1.domain?

def postedObjectives (calls : List (Call α)) : List (FlatObjective α) :=
  calls.filterMap fun c => c.1.objective?

def postedConstraints (calls : List (Call α)) : List (FlatConstraint α) :=
  calls.filterMap fun c => c.1.constraint?

/-- The step is a request. -/
def Step.IsCall : Step α → Prop
  | .call _ => True
  | .reject _ _ => False

/-- What a plan asks for, of one sort. -/
def asked (f : Request α → Option β) (plan : List (Step α)) : List β :=
  plan.filterMap fun
    | .call r => f r
    | .reject _ _ => none

theorem asked_append (f : Request α → Option β) (plan more : List (Step α)) :
    asked f (plan ++ more) = asked f plan ++ asked f more := List.filterMap_append

theorem asked_map {γ : Type} (f : Request α → Option β) (g : γ → Request α) (xs : List γ) :
    asked f (xs.map fun x => .call (g x)) = xs.filterMap fun x => f (g x) :=
  List.filterMap_map

/-- Where nothing may be skipped, a plan that was followed to its end is what was asked for. -/
theorem Follows.eq_calls {plan : List (Step α)} {calls : List (Call α)}
    (h : Follows false plan calls .done) : plan = calls.map fun c => .call c.1 := by
  generalize e : Progress.done = progress at h
  induction h with
  | done => rfl
  | call _ _ ih => rw [ih e, List.map_cons]
  | skip skips => cases skips
  | failed | reject => cases e

variable [Scalar α] {table : AcceptanceTable} {domains : List (Domain α)}

theorem objectiveSteps_of_isCall {i : Nat} {o : Objective α}
    (h : ∀ s ∈ objectiveSteps table i o, s.IsCall) :
    objectiveSteps table i o = [.call (.postObjective (classifyObjective o))] := by
  rw [objectiveSteps] at h ⊢
  rw [resolveObjective] at h ⊢
  split
  · rename_i u hu
    rw [hu] at h
    exact (h _ List.mem_cons_self).elim
  · rename_i flat hflat
    split at hflat
    · cases hflat
      rfl
    · cases hflat

theorem objectivesPlan_of_isCall {i : Nat} {os : List (Objective α)}
    (h : ∀ s ∈ objectivesPlan table i os, s.IsCall) :
    objectivesPlan table i os = os.map fun o => .call (.postObjective (classifyObjective o)) := by
  induction os generalizing i with
  | nil => rfl
  | cons o rest ih =>
    rw [objectivesPlan, List.forall_mem_append] at h
    rw [objectivesPlan, objectiveSteps_of_isCall h.1, ih h.2]
    rfl

theorem constraintSteps_of_isCall {i : Nat} {c : Constraint α}
    (h : ∀ s ∈ constraintSteps table domains i c, s.IsCall) :
    ∃ pieces, resolveConstraint table domains (classifyConstraint c) = .ok pieces ∧
      constraintSteps table domains i c =
        .call (.startConstraint i) :: pieces.map fun d => .call (.postConstraint d) := by
  rw [constraintSteps, List.forall_mem_cons] at h
  cases resolved : resolveConstraint table domains (classifyConstraint c) with
  | error u =>
    rw [resolved] at h
    exact (h.2 _ List.mem_cons_self).elim
  | ok pieces => exact ⟨pieces, rfl, by rw [constraintSteps, resolved]⟩

omit [Scalar α] in
theorem asked_constraintSteps {f : Request α → Option β} {i : Nat}
    {pieces : List (FlatConstraint α)} (start : f (.startConstraint i) = none) :
    asked f (.call (.startConstraint i) :: pieces.map fun d => .call (.postConstraint d)) =
      pieces.filterMap fun d => f (.postConstraint d) := by
  rw [← asked_map]
  simp only [asked, List.filterMap_cons, start]

theorem asked_constraintsPlan {f : Request α → Option β}
    (start : ∀ i, f (.startConstraint i) = none) (post : ∀ d, f (.postConstraint d) = none)
    {i : Nat} {cs : List (Constraint α)}
    (h : ∀ s ∈ constraintsPlan table domains i cs, s.IsCall) :
    asked f (constraintsPlan table domains i cs) = [] := by
  induction cs generalizing i with
  | nil => rfl
  | cons c rest ih =>
    rw [constraintsPlan, List.forall_mem_append] at h
    obtain ⟨pieces, -, steps⟩ := constraintSteps_of_isCall h.1
    rw [constraintsPlan, asked_append, ih h.2, steps, asked_constraintSteps (start i)]
    simp only [post, List.filterMap_none, List.append_nil]

/-- What is asked for a list of constraints means what the constraints mean. -/
theorem forall_asked_constraintsPlan {P : Constraint α → Prop} {Q : FlatConstraint α → Prop}
    {i : Nat} {cs : List (Constraint α)}
    (resolves : ∀ c ∈ cs, ∀ pieces,
      resolveConstraint table domains (classifyConstraint c) = .ok pieces →
        (P c ↔ ∀ d ∈ pieces, Q d))
    (h : ∀ s ∈ constraintsPlan table domains i cs, s.IsCall) :
    (∀ c ∈ cs, P c) ↔
      ∀ d ∈ asked Request.constraint? (constraintsPlan table domains i cs), Q d := by
  induction cs generalizing i with
  | nil => exact iff_of_true (List.forall_mem_nil _) (List.forall_mem_nil _)
  | cons c rest ih =>
    rw [constraintsPlan, List.forall_mem_append] at h
    rw [List.forall_mem_cons] at resolves
    obtain ⟨pieces, resolved, steps⟩ := constraintSteps_of_isCall h.1
    have posted : asked Request.constraint? (constraintSteps table domains i c) = pieces := by
      rw [steps, asked_constraintSteps rfl]
      exact List.filterMap_some
    rw [constraintsPlan, asked_append, posted, List.forall_mem_append, List.forall_mem_cons,
      resolves.1 pieces resolved, ih resolves.2 h.2]

theorem asked_plan {before : List (Domain α)} {m : Problem α}
    (h : ∀ s ∈ m.plan table before, s.IsCall) :
    asked Request.domain? (m.plan table before) = m.domains ∧
      asked Request.objective? (m.plan table before) = m.objectives.map classifyObjective ∧
      asked Request.constraint? (m.plan table before) =
        asked Request.constraint?
          (constraintsPlan table (before ++ m.domains) 0 m.constraints) := by
  rw [Problem.plan, List.forall_mem_append, List.forall_mem_append] at h
  rw [Problem.plan, objectivesPlan_of_isCall h.2.1]
  have constraints {β : Type} {f : Request α → Option β}
      (start : ∀ i, f (.startConstraint i) = none) (post : ∀ d, f (.postConstraint d) = none) :=
    asked_constraintsPlan start post h.2.2
  refine ⟨?_, ?_, ?_⟩
  · rw [asked_append, asked_append, constraints (fun _ => rfl) fun _ => rfl, asked_map, asked_map]
    simp [Request.domain?]
  · rw [asked_append, asked_append, constraints (fun _ => rfl) fun _ => rfl, asked_map, asked_map]
    simp [Request.objective?]
  · rw [asked_append, asked_append, asked_map, asked_map]
    simp [Request.constraint?]

end Requests

/-! ### Loading -/

/-- All numbers in the problem but for bounds are rational. -/
structure Problem.IsRational (m : Problem Exact) : Prop where
  objectives : ∀ o ∈ m.objectives, o.body.IsRational
  constraints : ∀ c ∈ m.constraints, c.IsRational

/-- The calls of a fresh session that loaded a problem. -/
theorem calls_of_load {σ α : Type} [Scalar α] {b : Backend σ α} {solver : σ}
    {config : SessionConfig} {s : Session (σ × List (Call α)) α}
    (created : Session.create b.traced (solver, []) config = .ok s)
    {flags : StopFlags} {opened loaded : Session (σ × List (Call α)) α × StopFlags}
    (hopened : (Session.acquire b.traced).run (s, flags) = (.ok (), opened)) {m : Problem α}
    (hloaded : (Session.load b.traced m).run opened = (.ok (), loaded)) :
    ∃ a a' calls, Follows config.permissive (m.plan b.acceptance []) calls .done ∧
      loaded.1.solver.2 = ⟨.acquire, a⟩ :: ⟨.beginModification, a'⟩ :: calls := by
  obtain ⟨registry, -, control⟩ := Session.control_create created
  obtain ⟨-, a, a', -, -, hcontrol⟩ := meets_acquire.of_run control hopened
  obtain ⟨calls, followed, hcalls⟩ :=
    (Carries.load (b := b) (c := opened.1.control) (hcontrol ▸ ⟨rfl, rfl⟩) m).of_run rfl hloaded
  rw [hcontrol] at followed hcalls
  exact ⟨a, a', calls, followed, congrArg Control.calls hcalls⟩

/-- A problem that a fresh session loads without skipping anything reaches the backend as it is:
its variables in order, each objective with its sense and its values, and the points of its
constraints. -/
theorem load_exact [Exact.SquareLaw] {σ : Type} {b : Backend σ Exact} {solver : σ}
    {config : SessionConfig} (strict : config.permissive = false)
    {s : Session (σ × List (Call Exact)) Exact}
    (created : Session.create b.traced (solver, []) config = .ok s)
    {flags : StopFlags} {opened loaded : Session (σ × List (Call Exact)) Exact × StopFlags}
    (hopened : (Session.acquire b.traced).run (s, flags) = (.ok (), opened))
    {m : Problem Exact} (hrational : m.IsRational) (hunit : ∀ c ∈ m.constraints, c.UnitRatio)
    (hloaded : (Session.load b.traced m).run opened = (.ok (), loaded)) :
    let calls := loaded.1.solver.2
    addedDomains calls = m.domains ∧
      List.Forall₂ (fun o flat => flat.sense = o.sense ∧
        ∀ p : Point Exact, p.IsRational → o.body.DefinedAt p → flat.evaluate p = o.evaluate p)
        m.objectives (postedObjectives calls) ∧
      ∀ p : Point Exact, p.IsRational → p.Respects m.domains →
        (∀ c ∈ m.constraints, c.DefinedAt p ∧ c.TriggerIsBit p) →
        ((∀ c ∈ m.constraints, c.isSatisfied p (.finite 0) = true) ↔
          ∀ d ∈ postedConstraints calls, d.isSatisfied p (.finite 0) = true) := by
  obtain ⟨a, a', calls, followed, hcalls⟩ := calls_of_load created hopened hloaded
  rw [strict] at followed
  have planned := followed.eq_calls
  have isCall : ∀ s ∈ m.plan b.acceptance [], s.IsCall := by
    rw [planned, List.forall_mem_map]
    exact fun _ _ => trivial
  obtain ⟨domains, objectives, constraints⟩ := asked_plan isCall
  rw [planned, asked_map] at domains objectives constraints
  rw [hcalls]
  refine ⟨domains, ?_, fun p hp hin regular => ?_⟩
  · have posted : postedObjectives (⟨.acquire, a⟩ :: ⟨.beginModification, a'⟩ :: calls) =
        m.objectives.map classifyObjective := objectives
    rw [posted, List.forall₂_map_right_iff, List.forall₂_same]
    exact fun o ho => ⟨sense_classifyObjective o, fun p hp hd =>
      evaluate_classifyObjective_eq hp (hrational.objectives o ho) hd⟩
  · have posted : postedConstraints (⟨.acquire, a⟩ :: ⟨.beginModification, a'⟩ :: calls) =
        asked Request.constraint?
          (constraintsPlan b.acceptance m.domains 0 m.constraints) := constraints
    rw [posted]
    refine forall_asked_constraintsPlan (fun c hc pieces resolved => ?_) ?_
    · exact isSatisfied_resolveConstraint hp hin (hrational.constraints c hc)
        (regular c hc).1 (hunit c hc) (regular c hc).2 resolved
    · exact fun s hs => isCall s (List.mem_append_right _ (List.mem_append_right _ hs))

open Exact.SquareOnly in
/-- The backend takes the definition of a variable only as a row. -/
theorem load_exact_definition :
    let m : Problem Exact :=
      { domains := [.binary, .binary]
        constraints := [.defining ⟨0⟩ ⟨⟨[(.finite 1, ⟨1⟩)], .finite 0⟩, none⟩] }
    let p : Point Exact := [.finite 1, .finite 1]
    ∃ s, Session.create (@Scripted.bare Exact _ .linear).traced
          ({ script := { objective := 0 } }, []) {} = .ok s ∧
      let opened := ((Session.acquire (@Scripted.bare Exact _ .linear).traced).run (s, .initial)).2
      let loaded := ((Session.load (@Scripted.bare Exact _ .linear).traced m).run opened).2
      addedDomains loaded.1.solver.2 = m.domains ∧
        ((∀ c ∈ m.constraints, c.isSatisfied p (.finite 0) = true) ↔
          ∀ d ∈ postedConstraints loaded.1.solver.2, d.isSatisfied p (.finite 0) = true) := by
  intro m p
  obtain ⟨s, created, opens, loads⟩ : ∃ s, Session.create (@Scripted.bare Exact _ .linear).traced
        ({ script := { objective := 0 } }, []) {} = .ok s ∧
      let opening := (Session.acquire (@Scripted.bare Exact _ .linear).traced).run (s, .initial)
      let loading := (Session.load (@Scripted.bare Exact _ .linear).traced m).run opening.2
      opening.1.isOk = true ∧ loading.1.isOk = true :=
    ⟨_, rfl, by decide +kernel, by decide +kernel⟩
  have rational : m.IsRational := by
    refine ⟨List.forall_mem_nil _, List.forall_mem_singleton.2 ?_⟩
    exact ⟨List.forall_mem_singleton.2 ⟨1, rfl⟩, ⟨0, rfl⟩, nofun⟩
  have unit : ∀ c ∈ m.constraints, c.UnitRatio := by
    refine List.forall_mem_singleton.2 fun b l u f g range => ?_
    cases range
  have rationalPoint : p.IsRational := by
    intro x hx
    simp only [p, List.mem_cons, List.not_mem_nil, or_false, or_self] at hx
    exact hx ▸ Exact.isRational_finite _
  have respects : p.Respects m.domains := by
    intro v d hd
    obtain ⟨_ | _ | n⟩ := v <;> cases hd
    all_goals exact ⟨by decide +kernel, by decide +kernel, fun _ => ⟨1, rfl⟩⟩
  have regular : ∀ c ∈ m.constraints, c.DefinedAt p ∧ c.TriggerIsBit p := by
    refine List.forall_mem_singleton.2 ⟨⟨?_, ?_⟩, ?_⟩
    · unfold Exact.IsDefined
      decide +kernel
    · refine ⟨List.forall_mem_singleton.2 ?_, nofun⟩
      unfold Exact.IsDefined
      decide +kernel
    · have kind : (classifyConstraint (.defining ⟨0⟩
          (⟨⟨[(.finite 1, ⟨1⟩)], .finite 0⟩, none⟩ : Body Exact))).kind = .linearDefining := by
        decide +kernel
      intro i h
      rw [h] at kind
      cases kind
  obtain ⟨added, -, points⟩ :=
    load_exact rfl created (SessionAction.run_of_isOk opens) rational unit
      (SessionAction.run_of_isOk loads)
  refine ⟨s, created, ?_⟩
  exact ⟨added, points p rationalPoint respects regular⟩
end SolverBridge
