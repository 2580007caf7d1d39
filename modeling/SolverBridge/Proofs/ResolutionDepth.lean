import Mathlib.Order.Bounds.Basic
import SolverBridge.Proofs.TableResolution

/-! How deep resolution goes. Read without a bound, it is a recursion without a measure of its own:
a piece is resolved in turn, and before pieces are preferred each of them is tested in turn. What
ends it is that reformulations follow the relation between kinds, which has no cycle. So every
piece is closer than its constraint to the end of each path, every run ends, and no more
reformulations follow one another in it than there are steps on the longest path. A bounded
resolution gives the outcome of the run as soon as its bound reaches that far. -/

namespace SolverBridge

/-! ### Paths of kinds -/

namespace Kind

/-- Each kind is the target of the kind before it. -/
def IsPath (ks : List Kind) : Prop := ks.IsChain fun k l => k.reformulationTarget = some l

theorem length_le_of_isPath {k : Kind} {ks : List Kind} (h : IsPath (k :: ks)) :
    ks.length ≤ k.reformulationDepth := by
  induction ks generalizing k with
  | nil => exact Nat.zero_le _
  | cons l ks ih =>
    obtain ⟨target, rest⟩ := List.isChain_cons_cons.1 h
    exact (ih rest).trans_lt (reformulationDepth_target target)

theorem exists_isPath_within (n : Nat) (k : Kind) :
    ∃ ks, IsPath (k :: ks) ∧ ks.length = reformulationDepthWithin n k := by
  induction n generalizing k with
  | zero => exact ⟨[], .singleton k, rfl⟩
  | succ n ih =>
    rw [reformulationDepthWithin]
    split
    · rename_i t target
      obtain ⟨ks, path, length⟩ := ih t
      exact ⟨t :: ks, List.isChain_cons_cons.2 ⟨target, path⟩, by rw [List.length_cons, length]⟩
    · exact ⟨[], .singleton k, rfl⟩

theorem reformulationDepth_le (k : Kind) : k.reformulationDepth ≤ all.length := by
  have within (n : Nat) (k : Kind) : reformulationDepthWithin n k ≤ n := by
    induction n generalizing k with
    | zero => exact Nat.le_refl _
    | succ n ih =>
      rw [reformulationDepthWithin]
      split
      · exact Nat.succ_le_succ (ih _)
      · exact Nat.zero_le _
  exact within _ k

/-- The depth of a kind is the number of steps on the longest path from it. -/
theorem isGreatest_reformulationDepth (k : Kind) :
    IsGreatest {n | ∃ ks, IsPath (k :: ks) ∧ ks.length = n} k.reformulationDepth := by
  refine ⟨exists_isPath_within _ k, ?_⟩
  rintro n ⟨ks, path, rfl⟩
  exact length_le_of_isPath path

-- As the relation stands, a path has one step at most.
example : ∀ k ∈ all, k.reformulationDepth ≤ 1 := by decide

end Kind

section Runs

variable {α : Type} [Scalar α] {table : AcceptanceTable} {domains : List (Domain α)}
  {c : FlatConstraint α} {cs pieces : List (FlatConstraint α)}

/-! ### Along the relation -/

namespace FlatConstraint

theorem target_of_reformulate? (h : c.reformulate? domains = some pieces) :
    ∃ t, c.kind.reformulationTarget = some t ∧ ∀ d ∈ pieces, d.kind = t :=
  ⟨.linear, reformulationTarget_of_reformulate? h, fun _ => kind_of_mem_reformulate? h⟩

theorem reformulate?_of_target_none (h : c.kind.reformulationTarget = none) :
    c.reformulate? domains = none := by
  cases hc : c.reformulate? domains with
  | none => rfl
  | some pieces =>
    obtain ⟨t, target, -⟩ := target_of_reformulate? hc
    cases h.symm.trans target

/-- Every piece is a step closer to the end of each path. -/
theorem depth_of_reformulate? (h : c.reformulate? domains = some pieces) :
    ∃ m, c.kind.reformulationDepth = m + 1 ∧ ∀ d ∈ pieces, d.kind.reformulationDepth ≤ m := by
  obtain ⟨t, target, kind⟩ := target_of_reformulate? h
  have closer := Kind.reformulationDepth_target target
  refine ⟨c.kind.reformulationDepth - 1, by omega, fun d hd => ?_⟩
  rw [kind d hd]
  omega

/-- What holds of a constraint as soon as it holds of its pieces holds of every constraint. -/
theorem reformulation_induction (domains : List (Domain α)) {P : FlatConstraint α → Prop}
    (step : ∀ c, (∀ pieces, c.reformulate? domains = some pieces → ∀ d ∈ pieces, P d) → P c)
    (c : FlatConstraint α) : P c := by
  induction depth : c.kind.reformulationDepth using Nat.strong_induction_on generalizing c with
  | h n ih =>
    refine step c fun pieces h d hd => ?_
    obtain ⟨m, eq, le⟩ := depth_of_reformulate? h
    exact ih _ (by have := le d hd; omega) d rfl

end FlatConstraint

/-! ### Runs -/

mutual

/-- A run of the test whether a constraint ends up recommended, its answer, and the number of
reformulations that follow one another in it. -/
inductive TestRun (table : AcceptanceTable) (domains : List (Domain α)) :
    FlatConstraint α → Bool → Nat → Prop
  | recommended {c : FlatConstraint α} (hk : table.constraint c.kind = .recommended) :
      TestRun table domains c true 0
  | whole {c : FlatConstraint α} (hk : table.constraint c.kind ≠ .recommended)
      (h : c.reformulate? domains = none) : TestRun table domains c false 0
  | pieces {c : FlatConstraint α} {pieces : List (FlatConstraint α)} {b : Bool} {n : Nat}
      (hk : table.constraint c.kind ≠ .recommended) (h : c.reformulate? domains = some pieces)
      (each : TestRuns table domains pieces b n) : TestRun table domains c b (n + 1)

/-- Constraints are tested in order, up to the first that does not end up recommended. -/
inductive TestRuns (table : AcceptanceTable) (domains : List (Domain α)) :
    List (FlatConstraint α) → Bool → Nat → Prop
  | nil : TestRuns table domains [] true 0
  | stop {d : FlatConstraint α} {rest : List (FlatConstraint α)} {n : Nat}
      (first : TestRun table domains d false n) : TestRuns table domains (d :: rest) false n
  | next {d : FlatConstraint α} {rest : List (FlatConstraint α)} {b : Bool} {m n : Nat}
      (first : TestRun table domains d true m) (more : TestRuns table domains rest b n) :
      TestRuns table domains (d :: rest) b (max m n)

end

mutual

/-- A run of the resolution of a constraint, its outcome, and the number of reformulations that
follow one another in it. -/
inductive ResolutionRun (table : AcceptanceTable) (domains : List (Domain α)) :
    FlatConstraint α → Except Unsupported (List (FlatConstraint α)) → Nat → Prop
  | recommended {c : FlatConstraint α} (hk : table.constraint c.kind = .recommended) :
      ResolutionRun table domains c (.ok [c]) 0
  | whole {c : FlatConstraint α} (hk : table.constraint c.kind = .accepted)
      (h : c.reformulate? domains = none) : ResolutionRun table domains c (.ok [c]) 0
  | unwelcome {c : FlatConstraint α} {pieces : List (FlatConstraint α)} {n : Nat}
      (hk : table.constraint c.kind = .accepted) (h : c.reformulate? domains = some pieces)
      (test : TestRuns table domains pieces false n) :
      ResolutionRun table domains c (.ok [c]) (n + 1)
  | preferred {c : FlatConstraint α} {pieces : List (FlatConstraint α)}
      {outcome : Except Unsupported (List (FlatConstraint α))} {m n : Nat}
      (hk : table.constraint c.kind = .accepted) (h : c.reformulate? domains = some pieces)
      (test : TestRuns table domains pieces true m)
      (each : ResolutionRuns table domains pieces outcome n) :
      ResolutionRun table domains c outcome (max m n + 1)
  | unsupported {c : FlatConstraint α} (hk : table.constraint c.kind = .notAccepted)
      (h : c.reformulate? domains = none) : ResolutionRun table domains c (.error ⟨c.kind⟩) 0
  | replaced {c : FlatConstraint α} {pieces resolved : List (FlatConstraint α)} {n : Nat}
      (hk : table.constraint c.kind = .notAccepted) (h : c.reformulate? domains = some pieces)
      (each : ResolutionRuns table domains pieces (.ok resolved) n) :
      ResolutionRun table domains c (.ok resolved) (n + 1)
  | failed {c : FlatConstraint α} {pieces : List (FlatConstraint α)} {u : Unsupported} {n : Nat}
      (hk : table.constraint c.kind = .notAccepted) (h : c.reformulate? domains = some pieces)
      (each : ResolutionRuns table domains pieces (.error u) n) :
      ResolutionRun table domains c (.error ⟨c.kind⟩) (n + 1)

/-- Constraints are resolved in order, up to the first failure. -/
inductive ResolutionRuns (table : AcceptanceTable) (domains : List (Domain α)) :
    List (FlatConstraint α) → Except Unsupported (List (FlatConstraint α)) → Nat → Prop
  | nil : ResolutionRuns table domains [] (.ok []) 0
  | stop {d : FlatConstraint α} {rest : List (FlatConstraint α)} {u : Unsupported} {n : Nat}
      (first : ResolutionRun table domains d (.error u) n) :
      ResolutionRuns table domains (d :: rest) (.error u) n
  | next {d : FlatConstraint α} {resolved rest : List (FlatConstraint α)}
      {outcome : Except Unsupported (List (FlatConstraint α))} {m n : Nat}
      (first : ResolutionRun table domains d (.ok resolved) m)
      (more : ResolutionRuns table domains rest outcome n) :
      ResolutionRuns table domains (d :: rest) (outcome.map (resolved ++ ·)) (max m n)

end

/-! ### Every run ends -/

theorem exists_testRuns (h : ∀ d ∈ cs, ∃ b n, TestRun table domains d b n) :
    ∃ b n, TestRuns table domains cs b n := by
  induction cs with
  | nil => exact ⟨_, _, .nil⟩
  | cons d rest ih =>
    obtain ⟨⟨b, n, first⟩, more⟩ := List.forall_mem_cons.1 h
    cases b with
    | false => exact ⟨_, _, .stop first⟩
    | true =>
      obtain ⟨b, n, more⟩ := ih more
      exact ⟨_, _, .next first more⟩

theorem exists_testRun (table : AcceptanceTable) (domains : List (Domain α))
    (c : FlatConstraint α) : ∃ b n, TestRun table domains c b n := by
  induction c using FlatConstraint.reformulation_induction domains with
  | step c ih =>
    by_cases hk : table.constraint c.kind = .recommended
    · exact ⟨_, _, .recommended hk⟩
    · cases h : c.reformulate? domains with
      | none => exact ⟨_, _, .whole hk h⟩
      | some pieces =>
        obtain ⟨b, n, each⟩ := exists_testRuns (ih pieces h)
        exact ⟨_, _, .pieces hk h each⟩

theorem exists_resolutionRuns (h : ∀ d ∈ cs, ∃ outcome n, ResolutionRun table domains d outcome n) :
    ∃ outcome n, ResolutionRuns table domains cs outcome n := by
  induction cs with
  | nil => exact ⟨_, _, .nil⟩
  | cons d rest ih =>
    obtain ⟨⟨outcome, n, first⟩, more⟩ := List.forall_mem_cons.1 h
    cases outcome with
    | error u => exact ⟨_, _, .stop first⟩
    | ok resolved =>
      obtain ⟨outcome, n, more⟩ := ih more
      exact ⟨_, _, .next first more⟩

theorem exists_resolutionRun (table : AcceptanceTable) (domains : List (Domain α))
    (c : FlatConstraint α) : ∃ outcome n, ResolutionRun table domains c outcome n := by
  induction c using FlatConstraint.reformulation_induction domains with
  | step c ih =>
    cases hk : table.constraint c.kind with
    | recommended => exact ⟨_, _, .recommended hk⟩
    | accepted =>
      cases h : c.reformulate? domains with
      | none => exact ⟨_, _, .whole hk h⟩
      | some pieces =>
        obtain ⟨b, m, test⟩ := exists_testRuns fun d (_ : d ∈ pieces) =>
          exists_testRun table domains d
        cases b with
        | false => exact ⟨_, _, .unwelcome hk h test⟩
        | true =>
          obtain ⟨outcome, n, each⟩ := exists_resolutionRuns (ih pieces h)
          exact ⟨_, _, .preferred hk h test each⟩
    | notAccepted =>
      cases h : c.reformulate? domains with
      | none => exact ⟨_, _, .unsupported hk h⟩
      | some pieces =>
        obtain ⟨outcome, n, each⟩ := exists_resolutionRuns (ih pieces h)
        cases outcome with
        | ok resolved => exact ⟨_, _, .replaced hk h each⟩
        | error u => exact ⟨_, _, .failed hk h each⟩

/-! ### No run is deeper than the longest path -/

mutual

theorem TestRun.le_depth {c : FlatConstraint α} {b : Bool} {n : Nat} :
    TestRun table domains c b n → n ≤ c.kind.reformulationDepth
  | .recommended _ | .whole _ _ => Nat.zero_le _
  | .pieces _ h each => by
    obtain ⟨m, eq, le⟩ := FlatConstraint.depth_of_reformulate? h
    exact eq ▸ Nat.succ_le_succ (each.le_of_depth m le)

theorem TestRuns.le_of_depth {cs : List (FlatConstraint α)} {b : Bool} {n : Nat} :
    TestRuns table domains cs b n →
      ∀ m, (∀ d ∈ cs, d.kind.reformulationDepth ≤ m) → n ≤ m
  | .nil, _, _ => Nat.zero_le _
  | .stop first, _, le => first.le_depth.trans (le _ List.mem_cons_self)
  | .next first more, m, le => by
    obtain ⟨head, tail⟩ := List.forall_mem_cons.1 le
    exact Nat.max_le.2 ⟨first.le_depth.trans head, more.le_of_depth m tail⟩

end

mutual

theorem ResolutionRun.le_depth {c : FlatConstraint α}
    {outcome : Except Unsupported (List (FlatConstraint α))} {n : Nat} :
    ResolutionRun table domains c outcome n → n ≤ c.kind.reformulationDepth
  | .recommended _ | .whole _ _ | .unsupported _ _ => Nat.zero_le _
  | .unwelcome _ h test => by
    obtain ⟨m, eq, le⟩ := FlatConstraint.depth_of_reformulate? h
    exact eq ▸ Nat.succ_le_succ (test.le_of_depth m le)
  | .preferred _ h test each => by
    obtain ⟨m, eq, le⟩ := FlatConstraint.depth_of_reformulate? h
    exact eq ▸ Nat.succ_le_succ (Nat.max_le.2 ⟨test.le_of_depth m le, each.le_of_depth m le⟩)
  | .replaced _ h each | .failed _ h each => by
    obtain ⟨m, eq, le⟩ := FlatConstraint.depth_of_reformulate? h
    exact eq ▸ Nat.succ_le_succ (each.le_of_depth m le)

theorem ResolutionRuns.le_of_depth {cs : List (FlatConstraint α)}
    {outcome : Except Unsupported (List (FlatConstraint α))} {n : Nat} :
    ResolutionRuns table domains cs outcome n →
      ∀ m, (∀ d ∈ cs, d.kind.reformulationDepth ≤ m) → n ≤ m
  | .nil, _, _ => Nat.zero_le _
  | .stop first, _, le => first.le_depth.trans (le _ List.mem_cons_self)
  | .next first more, m, le => by
    obtain ⟨head, tail⟩ := List.forall_mem_cons.1 le
    exact Nat.max_le.2 ⟨first.le_depth.trans head, more.le_of_depth m tail⟩

end

/-! ### What a run gives -/

mutual

theorem TestRun.endsRecommended_eq {c : FlatConstraint α} {b : Bool} {n : Nat} :
    TestRun table domains c b n → ∀ k, n ≤ k → endsRecommended table domains k c = b
  | .recommended hk, k, _ => by
    unfold endsRecommended
    rw [decide_eq_true hk, Bool.true_or]
  | .whole hk h, k, _ => by rw [endsRecommended_of_none k h, decide_eq_false hk]
  | .pieces hk h each, k + 1, le => by
    rw [endsRecommended, h, decide_eq_false hk, Bool.false_or, Option.any_some]
    exact each.all_eq k (Nat.le_of_succ_le_succ le)

theorem TestRuns.all_eq {cs : List (FlatConstraint α)} {b : Bool} {n : Nat} :
    TestRuns table domains cs b n → ∀ k, n ≤ k → cs.all (endsRecommended table domains k) = b
  | .nil, _, _ => rfl
  | .stop first, k, le => by rw [List.all_cons, first.endsRecommended_eq k le, Bool.false_and]
  | .next first more, k, le => by
    obtain ⟨head, tail⟩ := Nat.max_le.1 le
    rw [List.all_cons, first.endsRecommended_eq k head, Bool.true_and, more.all_eq k tail]

end

mutual

theorem ResolutionRun.resolveWithin_eq {c : FlatConstraint α}
    {outcome : Except Unsupported (List (FlatConstraint α))} {n : Nat} :
    ResolutionRun table domains c outcome n →
      ∀ k, n ≤ k → resolveWithin table domains k c = outcome
  | .recommended hk, k, _ => by
    unfold resolveWithin
    rw [hk]
  | .whole hk h, k, _ | .unsupported hk h, k, _ => by
    rw [resolveWithin_of_none k h, hk]
    rfl
  | .unwelcome hk h test, k + 1, le => by
    have refused := test.all_eq k (Nat.le_of_succ_le_succ le)
    unfold resolveWithin
    rw [hk, h]
    dsimp only
    rw [refused]
    rfl
  | .preferred hk h test each, k + 1, le => by
    obtain ⟨tested, resolved⟩ := Nat.max_le.1 (Nat.le_of_succ_le_succ le)
    unfold resolveWithin
    rw [hk, h]
    dsimp only
    rw [if_pos (test.all_eq k tested), each.mapM_eq k resolved]
  | .replaced hk h each, k + 1, le => by
    have resolved := each.mapM_eq k (Nat.le_of_succ_le_succ le)
    unfold resolveWithin
    rw [hk, h]
    dsimp only
    split
    · rename_i found
      rw [found] at resolved
      exact resolved
    · rename_i found
      rw [found] at resolved
      cases resolved
  | .failed hk h each, k + 1, le => by
    have refused := each.mapM_eq k (Nat.le_of_succ_le_succ le)
    unfold resolveWithin
    rw [hk, h]
    dsimp only
    split
    · rename_i found
      rw [found] at refused
      cases refused
    · rfl

theorem ResolutionRuns.mapM_eq {cs : List (FlatConstraint α)}
    {outcome : Except Unsupported (List (FlatConstraint α))} {n : Nat} :
    ResolutionRuns table domains cs outcome n →
      ∀ k, n ≤ k → (cs.mapM (resolveWithin table domains k)).map List.flatten = outcome
  | .nil, _, _ => rfl
  | .stop first, k, le => by
    rw [List.mapM_cons, first.resolveWithin_eq k le]
    rfl
  | .next first more, k, le => by
    obtain ⟨head, tail⟩ := Nat.max_le.1 le
    rw [List.mapM_cons, first.resolveWithin_eq k head, ← more.mapM_eq k tail]
    cases List.mapM (resolveWithin table domains k) _ <;> rfl

end

/-- More bound than the depth of its kind changes nothing for a constraint. -/
theorem resolveWithin_of_depth_le {k : Nat} (le : c.kind.reformulationDepth ≤ k) :
    resolveWithin table domains k c = resolveConstraint table domains c := by
  obtain ⟨outcome, n, run⟩ := exists_resolutionRun table domains c
  rw [resolveConstraint, run.resolveWithin_eq k (run.le_depth.trans le),
    run.resolveWithin_eq _ run.le_depth]

theorem ResolutionRuns.eq_mapM {outcome : Except Unsupported (List (FlatConstraint α))} {n : Nat}
    (run : ResolutionRuns table domains cs outcome n) :
    outcome = (cs.mapM (resolveConstraint table domains)).map List.flatten := by
  -- a bound that is enough for this run and for every constraint
  have same : resolveWithin table domains (max n Kind.all.length) =
      resolveConstraint table domains := funext fun c =>
    resolveWithin_of_depth_le ((Kind.reformulationDepth_le c.kind).trans (Nat.le_max_right _ _))
  rw [← same, run.mapM_eq _ (Nat.le_max_left _ _)]

/-- Reformulations follow the relation between kinds: the kind of a constraint that is reformulated
has a target, and every piece is of it. So the test and the resolution end for every constraint,
and the resolution also for every list, whatever the table and the domains; they give what the
bounded recursion gives, and no more reformulations follow one another than there are steps on the
longest path from the kind. -/
theorem resolution_terminates (table : AcceptanceTable) (domains : List (Domain α))
    (c : FlatConstraint α) :
    (∀ pieces, c.reformulate? domains = some pieces →
      ∃ t, c.kind.reformulationTarget = some t ∧ ∀ d ∈ pieces, d.kind = t) ∧
    (c.kind.reformulationTarget = none → c.reformulate? domains = none) ∧
    IsGreatest {n | ∃ ks, Kind.IsPath (c.kind :: ks) ∧ ks.length = n} c.kind.reformulationDepth ∧
    ((∃ b n, TestRun table domains c b n) ∧ ∀ b n, TestRun table domains c b n →
      b = endsRecommended table domains c.kind.reformulationDepth c ∧
        n ≤ c.kind.reformulationDepth) ∧
    ((∃ outcome n, ResolutionRun table domains c outcome n) ∧
      ∀ outcome n, ResolutionRun table domains c outcome n →
        outcome = resolveConstraint table domains c ∧ n ≤ c.kind.reformulationDepth) ∧
    ∀ cs : List (FlatConstraint α),
      (∃ outcome n, ResolutionRuns table domains cs outcome n) ∧
      ∀ outcome n, ResolutionRuns table domains cs outcome n →
        outcome = (cs.mapM (resolveConstraint table domains)).map List.flatten ∧
          ∀ m, (∀ d ∈ cs, d.kind.reformulationDepth ≤ m) → n ≤ m := by
  refine ⟨fun _ => FlatConstraint.target_of_reformulate?,
    FlatConstraint.reformulate?_of_target_none, Kind.isGreatest_reformulationDepth c.kind,
    ⟨exists_testRun table domains c, fun b n run => ?_⟩,
    ⟨exists_resolutionRun table domains c, fun outcome n run => ?_⟩,
    fun cs => ⟨exists_resolutionRuns fun d _ => exists_resolutionRun table domains d,
      fun outcome n run => ⟨run.eq_mapM, run.le_of_depth⟩⟩⟩
  · exact ⟨(run.endsRecommended_eq _ run.le_depth).symm, run.le_depth⟩
  · exact ⟨(run.resolveWithin_eq _ run.le_depth).symm, run.le_depth⟩

end Runs

open Exact.SquareOnly in
/-- A disjunction of binary variables that is taken but gives way to recommended rows: its three
pieces are linear, they are the outcome of its run, and one reformulation is all there is. A
maximum is never reformulated. -/
theorem resolution_terminates_disjunction :
    let g : FuncGraph Exact := ⟨⟨0⟩, [⟨1⟩, ⟨2⟩], []⟩
    let c : FlatConstraint Exact := .function .disjunction g
    let domains : List (Domain Exact) := [.binary, .binary, .binary]
    let table : AcceptanceTable :=
      ⟨[], [(.function .disjunction, .accepted), (.linear, .recommended)]⟩
    ∃ pieces, c.reformulate? domains = some pieces ∧ pieces.length = 3 ∧
      (∀ d ∈ pieces, d.kind = .linear) ∧
      (∃ n ≤ 1, ResolutionRun table domains c (.ok pieces) n) ∧
      (FlatConstraint.function .max g).reformulate? domains = none := by
  intro g c domains table
  have rows : c.reformulate? domains = some (g.disjunctionRows.map .linear) := by
    have binary : g.isBinary domains = true := by decide +kernel
    rw [FlatConstraint.reformulate?, FlatConstraint.rows?, if_pos binary, Option.map_some]
  obtain ⟨follows, -, -, -, ⟨⟨outcome, n, run⟩, decided⟩, -⟩ :=
    resolution_terminates table domains c
  obtain ⟨-, whole, -⟩ := resolution_terminates table domains (.function .max g)
  obtain ⟨t, target, kinds⟩ := follows _ rows
  obtain ⟨answer, le⟩ := decided outcome n run
  cases target
  have recommended : ∀ d ∈ g.disjunctionRows.map FlatConstraint.linear,
      table.constraint d.kind = .recommended := by
    intro d hd
    rw [kinds d hd]
    rfl
  rw [(resolved_resolveConstraint table domains c).eq_of_preferred rfl rows recommended] at answer
  exact ⟨_, rows, rfl, kinds, ⟨n, le, answer ▸ run⟩, whole rfl⟩

end SolverBridge
