import SolverBridge.Proofs.Permissive
import SolverBridge.Proofs.RenamedResolution

/-! Which variables a load is about. The variables of a session are numbered in the order in which
they are added, and those of a problem by their positions in the problem. Loading adds the variables
of the problem behind those that are there and then hands over its elements as they are, so the
positions in the elements are read as numbers of the session. Elements that are written with the
numbers of the session are posted about the problem's own variables, and so are those of the first
problem that is loaded. Behind other variables the elements of a problem are posted about the
first variables of the session, and reformulated with their domains. -/

namespace SolverBridge

variable {α : Type}

/-! ### Variables that keep their names -/

/-- What keeps its name one by one is kept as a list. -/
theorem map_eq_self_iff {β : Type} {f : β → β} {xs : List β} :
    xs.map f = xs ↔ ∀ x ∈ xs, f x = x := by
  have pointwise := List.map_inj_left (f := f) (g := id) (l := xs)
  rwa [List.map_id] at pointwise

variable {ρ : Renaming}

namespace Renaming

/-- The first `n` variables keep their names, and the others move up. -/
def above (n : Nat) : Renaming where
  name v := if v.index < n then v else ⟨v.index + 1⟩
  order v w := by
    simp only [Var.le]
    split <;> split <;> simp only [decide_eq_decide] <;> omega

theorem above_eq_self_iff {n : Nat} {v : Var} : above n v = v ↔ v.index < n := by
  show (if v.index < n then v else ⟨v.index + 1⟩) = v ↔ v.index < n
  split
  · exact iff_of_true rfl ‹_›
  · exact iff_of_false (fun h => absurd (congrArg Var.index h) (Nat.succ_ne_self _)) ‹_›

end Renaming

namespace Expr

theorem children_renamed (ρ : Renaming) (e : Expr α) :
    (e.renamed ρ).children = e.children.map (renamed ρ) := by
  cases e <;> simp [renamed, children, renamedEach_eq_map]

/-- What holds of an expression when it holds of its operands holds of every expression. -/
theorem induction_children {motive : Expr α → Prop}
    (step : ∀ e : Expr α, (∀ a ∈ e.children, motive a) → motive e) (e : Expr α) : motive e := by
  have forall_one {a : Expr α} (ha : motive a) : ∀ x ∈ [a], motive x :=
    List.forall_mem_singleton.2 ha
  have forall_two {a b : Expr α} (ha : motive a) (hb : motive b) : ∀ x ∈ [a, b], motive x :=
    List.forall_mem_cons.2 ⟨ha, forall_one hb⟩
  induction e using Expr.induction with
  | const | var => exact step _ nofun
  | neg a ha | unary f a ha | logBase k a ha | not a ha => exact step _ (forall_one ha)
  | mul a b ha hb | div a b ha hb | pow a b ha hb | compare r a b ha hb | implies a b ha hb =>
    exact step _ (forall_two ha hb)
  | sum es h | max es h | min es h | and es h | or es h | call f es h => exact step _ h

theorem parts_renamed (ρ : Renaming) (e : Expr α) :
    (e.renamed ρ).parts = e.parts.map (renamed ρ) := by
  induction e using induction_children with
  | step e ih =>
    rw [parts_eq, parts_eq, children_renamed, List.flatMap_map, List.map_cons, List.map_flatMap]
    exact congrArg _ (List.flatMap_congr ih)

theorem vars_renamed (ρ : Renaming) (e : Expr α) : (e.renamed ρ).vars = e.vars.map ρ := by
  rw [vars, vars, parts_renamed, List.filterMap_map, List.map_filterMap]
  congr 1
  funext s
  cases s <;> rfl

theorem vars_subset {a e : Expr α} (h : a ∈ e.children) : a.vars ⊆ e.vars :=
  List.filterMap_subset _ (parts_subset h)

/-- An expression stays as it is when its variables keep their names. -/
theorem renamed_eq_self {e : Expr α} (h : ∀ v ∈ e.vars, ρ v = v) : e.renamed ρ = e := by
  induction e using induction_children with
  | step e ih =>
    have kept : ∀ a ∈ e.children, a.renamed ρ = a :=
      fun a ha => ih a ha fun v hv => h v (vars_subset ha hv)
    cases e with
    | const => rfl
    | var v => exact congrArg Expr.var (h v List.mem_cons_self)
    | neg a | unary f a | logBase k a | not a => rw [renamed, kept a (.head _)]
    | mul a b | div a b | pow a b | compare r a b | implies a b =>
      rw [renamed, kept a (.head _), kept b (.tail _ (.head _))]
    | sum es | max es | min es | and es | or es | call f es =>
      have kept : ∀ a ∈ es, a.renamed ρ = a := kept
      rw [renamed, renamedEach_eq_map, map_eq_self_iff.2 kept]

end Expr

/-! ### Variables of elements and of what is posted -/

/-- The variables that a request is about. -/
def Request.vars : Request α → List Var
  | .postObjective o => o.vars
  | .postConstraint c => c.vars
  | _ => []

/-- What is posted, about the variables with the other names. -/
def Request.renamed (ρ : Renaming) : Request α → Request α
  | .postObjective o => .postObjective (o.renamed ρ)
  | .postConstraint c => .postConstraint (c.renamed ρ)
  | r => r

section Renamed

variable (ρ)

theorem Body.vars_renamed (b : Body α) : (b.renamed ρ).vars = b.vars.map ρ := by
  obtain ⟨a, e⟩ := b
  cases e <;> simp [vars, renamed, Affine.renamed, renamedTerms, Expr.vars_renamed]

theorem Constraint.vars_renamed (c : Constraint α) : (c.renamed ρ).vars = c.vars.map ρ := by
  cases c <;> simp [vars, renamed, Body.vars_renamed, Expr.vars_renamed]

theorem LinearForm.vars_renamed (f : LinearForm α) : (f.renamed ρ).vars = f.vars.map ρ := by
  simp [vars, renamed, renamedTerms]

theorem QuadForm.vars_renamed (q : QuadForm α) :
    ((q.renamed ρ).terms.flatMap fun t => [t.first, t.second]) =
      (q.terms.flatMap fun t => [t.first, t.second]).map ρ := by
  simp [renamed, QuadTerm.renamed, List.flatMap_map, List.map_flatMap]

theorem FlatConstraint.vars_renamed (c : FlatConstraint α) :
    (c.renamed ρ).vars = c.vars.map ρ := by
  cases c <;> simp [vars, renamed, LinearRow.renamed, FuncGraph.renamed, Indicator.renamed,
    LinearForm.vars_renamed, QuadForm.vars_renamed, Constraint.vars_renamed]

theorem FlatObjective.vars_renamed (o : FlatObjective α) : (o.renamed ρ).vars = o.vars.map ρ := by
  cases o <;> simp [vars, renamed, LinearObjective.renamed, Objective.renamed, Objective.vars,
    LinearForm.vars_renamed, QuadForm.vars_renamed, Body.vars_renamed]

theorem Request.vars_renamed (r : Request α) : (r.renamed ρ).vars = r.vars.map ρ := by
  cases r with
  | postObjective o => exact o.vars_renamed ρ
  | postConstraint c => exact c.vars_renamed ρ
  | _ => rfl

end Renamed

theorem Body.renamed_eq_self {b : Body α} (h : ∀ v ∈ b.vars, ρ v = v) : b.renamed ρ = b := by
  obtain ⟨⟨terms, k⟩, e⟩ := b
  rw [vars, List.forall_mem_append] at h
  have terms : renamedTerms ρ terms = terms := map_eq_self_iff.2 fun t ht =>
    Prod.ext rfl (h.1 t.2 (List.mem_map_of_mem ht))
  cases e with
  | none => rw [renamed, Affine.renamed, terms, Option.map_none]
  | some e => rw [renamed, Affine.renamed, terms, Option.map_some, Expr.renamed_eq_self h.2]

theorem Objective.renamed_eq_self {o : Objective α} (h : ∀ v ∈ o.vars, ρ v = v) :
    o.renamed ρ = o := by
  rw [renamed, Body.renamed_eq_self h]

theorem Constraint.renamed_eq_self {c : Constraint α} (h : ∀ v ∈ c.vars, ρ v = v) :
    c.renamed ρ = c := by
  cases c with
  | range b l u => rw [renamed, Body.renamed_eq_self h]
  | defining r b =>
    obtain ⟨result, body⟩ := List.forall_mem_cons.1 h
    rw [renamed, result, Body.renamed_eq_self body]
  | logical e => rw [renamed, Expr.renamed_eq_self h]

/-! ### What is posted for an element -/

/-- The first domains are kept when the variables behind them move up. -/
theorem Renaming.keeps_above (n : Nat) (domains : List (Domain α)) :
    (above n).Keeps (domains.take n) (domains.take n) := by
  intro v
  by_cases below : v.index < n
  · rw [above_eq_self_iff.2 below]
  · have name : (above n v).index = v.index + 1 := congrArg Var.index (if_neg below)
    rw [name, List.getElem?_eq_none, List.getElem?_eq_none] <;> rw [List.length_take] <;> omega

/-- Requests that stay as they are when the variables from `n` on move up are about the others. -/
theorem vars_below_of_renamed {n : Nat} {rs : List (Request α)}
    (kept : rs.map (Request.renamed (.above n)) = rs) : ∀ r ∈ rs, ∀ v ∈ r.vars, v.index < n := by
  intro r hr v hv
  have vars := r.vars_renamed (.above n)
  rw [map_eq_self_iff.1 kept r hr] at vars
  exact Renaming.above_eq_self_iff.1 (map_eq_self_iff.1 vars.symm v hv)

section Posts

variable [Scalar α] (table : AcceptanceTable) {domains domains' : List (Domain α)} {n : Nat}

theorem Objective.posts_renamed (ρ : Renaming) (o : Objective α) :
    (o.renamed ρ).posts table = (o.posts table).map (Request.renamed ρ) := by
  rw [posts, posts, classifyObjective_renamed, resolveObjective_renamed]
  cases resolveObjective table (classifyObjective o) <;> rfl

theorem Constraint.posts_renamed (h : ρ.Keeps domains domains') (c : Constraint α) :
    (c.renamed ρ).posts table domains' = (c.posts table domains).map (Request.renamed ρ) := by
  rw [posts, posts, classifyConstraint_renamed, resolveConstraint_renamed table h]
  cases resolveConstraint table domains (classifyConstraint c) with
  | error u => rfl
  | ok pieces =>
    simp only [Except.map, List.map_map]
    rfl

/-- An objective about the first variables is posted about the first variables. -/
theorem Objective.posts_below {o : Objective α} (h : ∀ v ∈ o.vars, v.index < n) :
    ∀ r ∈ o.posts table, ∀ v ∈ r.vars, v.index < n := by
  have kept : o.renamed (.above n) = o :=
    renamed_eq_self fun v hv => Renaming.above_eq_self_iff.2 (h v hv)
  have posts := o.posts_renamed table (.above n)
  rw [kept] at posts
  exact vars_below_of_renamed posts.symm

/-- A constraint about the first variables is posted about the first variables, and only their
domains are asked for. -/
theorem Constraint.posts_below (domains : List (Domain α)) {c : Constraint α}
    (h : ∀ v ∈ c.vars, v.index < n) : c.posts table domains = c.posts table (domains.take n) ∧
      ∀ r ∈ c.posts table domains, ∀ v ∈ r.vars, v.index < n := by
  have kept : c.renamed (.above n) = c :=
    renamed_eq_self fun v hv => Renaming.above_eq_self_iff.2 (h v hv)
  have same : c.posts table domains = c.posts table (domains.take n) := by
    have classified := (classifyConstraint c).vars_renamed (.above n)
    rw [← classifyConstraint_renamed, kept] at classified
    have below : ∀ v ∈ (classifyConstraint c).vars, v.index < n := fun v hv =>
      Renaming.above_eq_self_iff.1 (map_eq_self_iff.1 classified.symm v hv)
    have agree : Agree (classifyConstraint c).vars domains (domains.take n) :=
      fun v hv => List.getElem?_take_of_lt (below v hv)
    rw [posts, posts, resolveConstraint_congr table agree]
  have posts := c.posts_renamed table (Renaming.keeps_above n domains)
  rw [kept, ← same] at posts
  exact ⟨same, vars_below_of_renamed posts.symm⟩

/-! ### What is posted for a problem -/

namespace Problem

/-- The elements are about the variables of the problem. -/
structure Closed {α : Type} (m : Problem α) : Prop where
  objectives : ∀ o ∈ m.objectives, ∀ v ∈ o.vars, v.index < m.domains.length
  constraints : ∀ c ∈ m.constraints, ∀ v ∈ c.vars, v.index < m.domains.length

/-- The problem with `n` added to the number of each variable in its elements. -/
def renumbered {α : Type} (n : Nat) (m : Problem α) : Problem α :=
  ⟨m.domains, m.objectives.map (Objective.renamed (.shift n)),
    m.constraints.map (Constraint.renamed (.shift n))⟩

/-- What is posted for the elements of the problem where variables have these domains. -/
def posted (domains : List (Domain α)) (m : Problem α) : List (Request α) :=
  m.objectives.flatMap (·.posts table) ++
    m.constraints.zipIdx.flatMap fun e => .startConstraint e.2 :: e.1.posts table domains

/-- What is to be posted when the variables of the problem have the numbers from `n` on. -/
def postedFrom (n : Nat) (m : Problem α) : List (Request α) :=
  (m.posted table m.domains).map (Request.renamed (.shift n))

theorem request?_plan (before : List (Domain α)) (m : Problem α) :
    (m.plan table before).filterMap Step.request? =
      m.domains.map .addVariable ++ m.posted table (before ++ m.domains) := by
  rw [plan, List.filterMap_append, List.filterMap_append, (objectivesPlan_parts table 0 _).1,
    (constraintsPlan_parts table _ 0 _).1, posted, List.filterMap_map]
  exact congrArg (· ++ _) (congrFun List.filterMap_eq_map _)

/-- Elements that are written with the numbers of the session are posted about the problem's own
variables, by their domains. -/
theorem posted_renumbered (before : List (Domain α)) (m : Problem α) :
    (m.renumbered before.length).posted table (before ++ m.domains) =
      m.postedFrom table before.length := by
  have keeps := Renaming.keeps_shift before m.domains
  simp only [posted, postedFrom, renumbered, List.flatMap_map, List.map_flatMap, List.map_append,
    List.zipIdx_map, Prod.map_fst, Prod.map_snd, id_eq, Objective.posts_renamed,
    Constraint.posts_renamed table keeps, List.map_cons]
  rfl

/-- The first problem is written with the numbers of the session. -/
theorem renumbered_zero {α : Type} (m : Problem α) : m.renumbered 0 = m := by
  have kept (v : Var) : Renaming.shift 0 v = v := congrArg Var.mk (Nat.zero_add _)
  have objectives : m.objectives.map (Objective.renamed (.shift 0)) = m.objectives :=
    map_eq_self_iff.2 fun o _ => o.renamed_eq_self fun v _ => kept v
  have constraints : m.constraints.map (Constraint.renamed (.shift 0)) = m.constraints :=
    map_eq_self_iff.2 fun c _ => c.renamed_eq_self fun v _ => kept v
  rw [renumbered, objectives, constraints]

/-- The elements of a closed problem are posted about as many first variables as the problem
has, by the domains of these. -/
theorem Closed.posted_below {m : Problem α} (h : m.Closed) (domains : List (Domain α)) :
    m.posted table domains = m.posted table (domains.take m.domains.length) ∧
      ∀ r ∈ m.posted table domains, ∀ v ∈ r.vars, v.index < m.domains.length := by
  have constraints : ∀ e ∈ m.constraints.zipIdx, _ := fun e he =>
    Constraint.posts_below table domains (h.constraints e.1 (List.fst_mem_of_mem_zipIdx he))
  constructor
  · rw [posted, posted]
    exact congrArg _ (List.flatMap_congr fun e he => congrArg _ (constraints e he).1)
  · rw [posted, List.forall_mem_append, List.forall_mem_flatMap, List.forall_mem_flatMap]
    exact ⟨fun o ho => o.posts_below table (h.objectives o ho), fun e he =>
      List.forall_mem_cons.2 ⟨List.forall_mem_nil _, (constraints e he).2⟩⟩

end Problem

end Posts

/-! ### Loading -/

variable {σ : Type} [Scalar α]

theorem modifiable_of_load {b : Backend σ α} {w w' : World σ α} {m : Problem α}
    (loaded : (Session.load b m).run w = (.ok (), w')) : w.Modifiable := by
  have ends : Ends (Session.load b m) w (fun _ _ => w.Modifiable) fun _ _ => True :=
    .bind <| .bind <| .expectStage (fun stage => .expectNotAborted (fun aborted =>
      .always (fun _ _ => ⟨stage, aborted⟩) fun _ _ => trivial) fun _ => trivial) fun _ => trivial
  exact ends.of_run loaded

/-- What a load has added and posted. The variables of the problem stand behind those that were
there. The elements are about them when nothing was there, and when they are written with the
numbers of the session. But the elements of a closed problem are posted about the first variables
of the session, as many as the problem has, and reformulated by the domains of these, whichever
problem they belong to. -/
theorem posted_of_load (b : Backend σ α) {w w' : World (σ × List (Call α)) α} {m : Problem α}
    (loaded : (Session.load b.traced m).run w = (.ok (), w')) :
    ∃ posted : List (Request α),
      w'.1.domains = w.1.domains ++ m.domains ∧
      w'.1.solver.2.map (·.1) =
        w.1.solver.2.map (·.1) ++ (m.domains.map .addVariable ++ posted) ∧
      (w.1.domains = [] → posted = m.postedFrom b.acceptance 0) ∧
      (∀ own : Problem α, m = own.renumbered w.1.domains.length →
        posted = own.postedFrom b.acceptance w.1.domains.length) ∧
      (m.Closed →
        posted = m.posted b.acceptance ((w.1.domains ++ m.domains).take m.domains.length) ∧
        ∀ r ∈ posted, ∀ v ∈ r.vars, v.index < m.domains.length) := by
  have followed := (Executes.load (b := b.traced) (modifiable_of_load loaded) m).of_run loaded
  have requests := Backend.requests_follow followed.done
  have numbered (own : Problem α) (h : m = own.renumbered w.1.domains.length) :
      m.posted b.acceptance (w.1.domains ++ m.domains) =
        own.postedFrom b.acceptance w.1.domains.length := by
    rw [h]
    exact own.posted_renumbered b.acceptance w.1.domains
  refine ⟨m.posted b.acceptance (w.1.domains ++ m.domains), followed.domains, ?_, fun first => ?_,
    numbered, fun closed => closed.posted_below b.acceptance _⟩
  · rw [followed.solver, ← m.request?_plan]
    exact requests
  · have h := numbered m (by rw [first]; exact m.renumbered_zero.symm)
    rwa [first] at h ⊢

/-! ### Behind a binary variable -/

open Exact.SquareOnly in
/-- An indicator that is written with the numbers of the session becomes a row about the variables
of its problem. -/
theorem posted_of_load_renumbered :
    let b := @Scripted.bare Exact _ .linear
    let own : Problem Exact :=
      { domains := [.binary, .continuous 0 (.finite 5)]
        constraints := [.logical (.implies (.compare .eq (.var ⟨0⟩) (.const 1))
          (.compare .le (.var ⟨1⟩) (.const (.finite 2))))] }
    ∃ w₀ w w', Session.Opens b.traced ({ script := { objective := 0 } }, []) {} w₀ ∧
      (Session.addVariables b.traced [.binary]).run w₀ = (.ok (), w) ∧
      (Session.load b.traced (own.renumbered 1)).run w = (.ok (), w') ∧
      ∃ posted, w'.1.solver.2.map (·.1) =
          w.1.solver.2.map (·.1) ++ (own.domains.map .addVariable ++ posted) ∧
        posted.map Request.vars = [[], [⟨2⟩, ⟨1⟩]] := by
  intro b own
  have computed : (Session.create b.traced ({ script := { objective := 0 } }, []) {}).toOption.any
      (fun s =>
        let opening := (Session.acquire b.traced).run (s, .initial)
        let adding := (Session.addVariables b.traced [.binary]).run opening.2
        opening.1.isOk && adding.1.isOk &&
          ((Session.load b.traced (own.renumbered 1)).run adding.2).1.isOk &&
          adding.2.1.domains.length = 1) = true := by
    decide +kernel
  obtain ⟨s, created, facts⟩ := (Option.any_eq_true _ _).1 computed
  simp only [Bool.and_eq_true, decide_eq_true_eq] at facts
  obtain ⟨⟨⟨opens, adds⟩, loads⟩, before⟩ := facts
  have loaded := SessionAction.run_of_isOk loads
  obtain ⟨posted, -, requests, -, numbered, -⟩ := posted_of_load b loaded
  refine ⟨_, _, _, ⟨s, .initial, eq_ok_of_toOption created, SessionAction.run_of_isOk opens⟩,
    SessionAction.run_of_isOk adds, loaded, posted, requests, ?_⟩
  rw [numbered own (by rw [before]), before]
  decide +kernel

open Exact.SquareOnly in
/-- The same indicator as it stands in its problem is lost. It is read with the bounds of another
variable, and within these it always holds. -/
theorem posted_behind_binary :
    let b := @Scripted.bare Exact _ .linear
    let m : Problem Exact :=
      { domains := [.binary, .continuous 0 (.finite 5)]
        constraints := [.logical (.implies (.compare .eq (.var ⟨0⟩) (.const 1))
          (.compare .le (.var ⟨1⟩) (.const (.finite 2))))] }
    ∃ w₀ w w', Session.Opens b.traced ({ script := { objective := 0 } }, []) {} w₀ ∧
      (Session.addVariables b.traced [.binary]).run w₀ = (.ok (), w) ∧
      (Session.load b.traced m).run w = (.ok (), w') ∧ m.Closed ∧
      w'.1.solver.2.map (·.1) ≠ w.1.solver.2.map (·.1) ++
        (m.domains.map .addVariable ++ m.postedFrom b.acceptance w.1.domains.length) := by
  intro b m
  have computed : (Session.create b.traced ({ script := { objective := 0 } }, []) {}).toOption.any
      (fun s =>
        let opening := (Session.acquire b.traced).run (s, .initial)
        let adding := (Session.addVariables b.traced [.binary]).run opening.2
        let loading := (Session.load b.traced m).run adding.2
        opening.1.isOk && adding.1.isOk && loading.1.isOk &&
          loading.2.1.solver.2.length ≠ adding.2.1.solver.2.length + (m.domains.length +
            (m.postedFrom b.acceptance adding.2.1.domains.length).length)) = true := by
    decide +kernel
  obtain ⟨s, created, facts⟩ := (Option.any_eq_true _ _).1 computed
  simp only [Bool.and_eq_true, decide_eq_true_eq] at facts
  obtain ⟨⟨⟨opens, adds⟩, loads⟩, other⟩ := facts
  refine ⟨_, _, _, ⟨s, .initial, eq_ok_of_toOption created, SessionAction.run_of_isOk opens⟩,
    SessionAction.run_of_isOk adds, SessionAction.run_of_isOk loads, ⟨nofun, ?_⟩, fun same => ?_⟩
  · decide +kernel
  · have lengths := congrArg List.length same
    simp only [List.length_append, List.length_map] at lengths
    exact other lengths

end SolverBridge
