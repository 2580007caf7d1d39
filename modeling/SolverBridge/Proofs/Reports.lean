import SolverBridge.Proofs.CallOrder
import SolverBridge.Proofs.Questions

/-! Reports are consistent with what happened. The session remembers the failure of its solve, and
its calls tell which solve that was, because there is one at most. A report is then a function of
the stop flag, of that solve and of the answers that were given for the report: its status, its
code, the solution it carries and what the sink receives. This holds however the flag was
written before, by whom ever. -/

namespace SolverBridge

variable {σ α : Type}

/-! ### The solve that a session remembers -/

theorem Call.eq_solve {c : Call α} (h : c.role = .solve) :
    ∃ answer : Except Failure Unit, c = ⟨.solve, answer⟩ := by
  obtain ⟨r, a⟩ := c
  cases r with
  | solve => exact ⟨a, rfl⟩
  | _ => cases h

/-- The failure of a call that is a solve. -/
def Call.solveFailure? : Call α → Option String
  | ⟨.solve, .error f⟩ => some f.chain
  | _ => none

theorem Call.solveFailure?_eq_none {c : Call α} (h : c.role ≠ .solve) : c.solveFailure? = none := by
  obtain ⟨r, a⟩ := c
  cases r with
  | solve => exact absurd rfl h
  | _ => rfl

/-- The failures of the solves among some calls. -/
def solveFailures (calls : List (Call α)) : List String := calls.filterMap Call.solveFailure?

theorem solveFailures_concat {calls : List (Call α)} {c : Call α} (h : c.role ≠ .solve) :
    solveFailures (calls ++ [c]) = solveFailures calls := by
  rw [solveFailures, List.filterMap_append, List.filterMap_cons_none (Call.solveFailure?_eq_none h)]
  exact List.append_nil _

/-- The session has the failure of its last solve, and its options make no call. -/
structure Remembers (w : World (σ × List (Call α)) α) : Prop where
  last : w.1.solveFailure = (solveFailures w.1.solver.2).getLast?
  keeps : w.1.registry.KeepsCalls

variable {b : Backend σ α}

theorem endures_remembers : Endures b (Remembers (σ := σ) (α := α)) where
  alike same h :=
    ⟨by rw [same.calls, same.solveFailure]; exact h.last, by rw [same.registry]; exact h.keeps⟩
  asked plain h :=
    ⟨by rw [b.asked_traced_calls, solveFailures_concat (c := ⟨_, _⟩) plain.2]; exact h.last,
      h.keeps⟩
  keeps h := h.keeps

theorem Remembers.asked {r : Request α} {w : World (σ × List (Call α)) α} (h : Remembers w)
    (hr : r.role ≠ .solve) : Remembers (b.traced.asked r w) :=
  ⟨by rw [b.asked_traced_calls, solveFailures_concat (c := ⟨_, _⟩) hr]; exact h.last, h.keeps⟩

theorem Remembers.agrees {w w' : World (σ × List (Call α)) α} (h : Remembers w)
    (same : w.Agrees w') : Remembers w' :=
  ⟨by rw [same.solver, same.solveFailure]; exact h.last, by rw [same.registry]; exact h.keeps⟩

/-- The failure that is noted is the last one. -/
theorem Remembers.solved {w : World (σ × List (Call α)) α} (h : Remembers w) :
    Remembers ({ (b.traced.asked .solve w).1 with
      solveFailure := Session.notedFailure (b.traced.answer .solve w) w.1.solveFailure },
      (b.traced.asked .solve w).2) := by
  refine ⟨?_, h.keeps⟩
  dsimp only
  rw [b.asked_traced_calls, solveFailures, List.filterMap_append, ← solveFailures, h.last]
  cases b.traced.answer .solve w with
  | ok => exact congrArg List.getLast? (List.append_nil _).symm
  | error f => exact List.getLast?_concat.symm

theorem preserves_remembers_solve : Preserves Remembers (Session.solve b.traced) := by
  intro w hw
  have lowered : Remembers w.lowered := ⟨hw.last, hw.keeps⟩
  have outcome := Session.solve_outcome b.traced w
  generalize ((Session.solve b.traced).run w).1 = x, ((Session.solve b.traced).run w).2 = w'
    at outcome ⊢
  cases outcome with
  | refused same => exact hw.agrees same
  | unflagged closed same => exact (lowered.asked (r := .takeStopFlag _) nofun).agrees same
  | @solved _ started _ closed ready same =>
    have remembers : Remembers started ∧ started.1.solveFailure = w.1.solveFailure := by
      rcases ready with ⟨rfl, -⟩ | ⟨rfl, -⟩
      · exact ⟨lowered, rfl⟩
      · exact ⟨lowered.asked nofun, rfl⟩
    have solved := remembers.1.solved (b := b)
    rw [remembers.2] at solved
    exact solved.agrees same

theorem remembers_create {solver : σ} {config : SessionConfig} {s : Session (σ × List (Call α)) α}
    (h : Session.create b.traced (solver, []) config = .ok s) (flags : StopFlags) :
    Remembers (s, flags) := by
  delta Session.create at h
  split at h
  · cases h
  · rename_i registered
    cases h
    exact ⟨rfl, .registry registered⟩

/-! ### The calls of a solved session -/

namespace Phase

theorem solved_queries {calls : List (Call α)} (h : Phase.solved.after? calls = some .solved) :
    ∀ c ∈ calls, c.role = .query := by
  induction calls with
  | nil => exact List.forall_mem_nil _
  | cons c rest ih =>
    obtain ⟨mid, step, accepted⟩ := after?_cons h
    rcases next?_solved step with ⟨role, rfl⟩ | ⟨-, rfl⟩
    · exact List.forall_mem_cons.2 ⟨role, ih accepted⟩
    · cases rest with
      | nil => cases accepted
      | cons d rest =>
        obtain ⟨_, step, -⟩ := after?_cons accepted
        rw [next?_over] at step
        cases step

/-- A solve is made once, and leads to the phase after it. -/
theorem next?_solve {ph next : Phase} {role : Role} {failed : Bool} (h : ph ≠ .solved)
    (step : ph.next? role failed = some next) : role = .solve ↔ next = .solved := by
  constructor
  · rintro rfl
    cases ph <;> cases step
    rfl
  · rintro rfl
    cases ph <;> cases role <;> cases failed <;>
      first | exact absurd rfl h | rfl | cases step

/-- The calls of a solved session have one solve, and only questions after it. -/
theorem solved_split (ph : Phase) {calls : List (Call α)} (hph : ph ≠ .solved)
    (h : ph.after? calls = some .solved) :
    ∃ before answer between, calls = before ++ ⟨.solve, answer⟩ :: between ∧
      (∀ c ∈ before, c.role ≠ .solve) ∧ ∀ c ∈ between, c.role = .query := by
  induction calls generalizing ph with
  | nil => exact absurd (Option.some.inj h) hph
  | cons c rest ih =>
    obtain ⟨mid, step, accepted⟩ := after?_cons h
    have solve := next?_solve hph step
    by_cases hmid : mid = .solved
    · subst hmid
      obtain ⟨answer, rfl⟩ := Call.eq_solve (solve.2 rfl)
      exact ⟨[], answer, rest, rfl, List.forall_mem_nil _, solved_queries accepted⟩
    · obtain ⟨before, answer, between, rfl, others, queries⟩ := ih mid hmid accepted
      exact ⟨c :: before, answer, between, rfl,
        List.forall_mem_cons.2 ⟨fun role => hmid (solve.1 role), others⟩, queries⟩

end Phase

/-- What a session remembers of its only solve. -/
theorem solveFailures_solved {before between : List (Call α)} {answer : Except Failure Unit}
    (others : ∀ c ∈ before, c.role ≠ .solve) (queries : ∀ c ∈ between, c.role = .query) :
    (solveFailures (before ++ ⟨.solve, answer⟩ :: between)).getLast? =
      Session.notedFailure answer none := by
  have nothing {calls : List (Call α)} (h : ∀ c ∈ calls, c.role ≠ .solve) :
      calls.filterMap Call.solveFailure? = [] :=
    List.filterMap_eq_nil_iff.2 fun c hc => Call.solveFailure?_eq_none (h c hc)
  rw [solveFailures, List.filterMap_append, nothing others, List.nil_append]
  have questions : between.filterMap Call.solveFailure? = [] :=
    nothing fun c hc => by rw [queries c hc]; nofun
  cases answer with
  | ok => rw [List.filterMap_cons_none (f := Call.solveFailure?) rfl, questions]; rfl
  | error f => rw [List.filterMap_cons_some (f := Call.solveFailure?) rfl, questions]; rfl

/-! ### The table -/

namespace StatusTable

/-- The first entry for a result code. -/
def IsFirst (t : StatusTable) (native : Int) (e : StatusEntry) : Prop :=
  ∃ before after, t = before ++ e :: after ∧ e.native = native ∧ ∀ x ∈ before, x.native ≠ native

theorem isFirst_iff {t : StatusTable} {native : Int} {e : StatusEntry} :
    t.IsFirst native e ↔ t.find? (·.native = native) = some e := by
  rw [List.find?_eq_some_iff_append, IsFirst]
  constructor
  · rintro ⟨before, after, rfl, same, others⟩
    exact ⟨decide_eq_true same, before, after, rfl, fun x hx => by simp [others x hx]⟩
  · rintro ⟨same, before, after, rfl, others⟩
    exact ⟨before, after, rfl, of_decide_eq_true same, fun x hx => by simpa using others x hx⟩

theorem status_interpret_of_isFirst {t : StatusTable} {native : Int} {e : StatusEntry}
    (h : t.IsFirst native e) (feasible : Bool) : (t.interpret native false feasible).status =
      if e.status = .feasibleUncertain ∧ feasible = false then .unknown else e.status := by
  rw [interpret, isFirst_iff.1 h]
  dsimp only
  rw [if_neg Bool.false_ne_true]
  split <;> rfl

theorem status_interpret_of_unmapped {t : StatusTable} {native : Int}
    (h : ∀ e ∈ t, e.native ≠ native) (feasible : Bool) :
    (t.interpret native false feasible).status = .unknown := by
  have none : t.find? (·.native = native) = none :=
    List.find?_eq_none.2 fun e he same => h e he (of_decide_eq_true same)
  rw [interpret, none, if_neg Bool.false_ne_true]

/-- A status that is not unknown is that of an entry. -/
theorem isFirst_of_status_interpret {t : StatusTable} {native : Int} {feasible : Bool}
    (h : (t.interpret native false feasible).status ≠ .unknown) :
    ∃ e, t.IsFirst native e ∧ e.status = (t.interpret native false feasible).status := by
  cases found : t.find? (·.native = native) with
  | none => exact absurd (status_interpret_of_unmapped (fun e he same =>
      List.find?_eq_none.1 found e he (decide_eq_true same)) feasible) h
  | some e =>
    have first := isFirst_iff.2 found
    refine ⟨e, first, ?_⟩
    rw [status_interpret_of_isFirst first] at h ⊢
    split at h
    · exact absurd rfl h
    · rw [if_neg ‹_›]

end StatusTable

/-! ### Consistency -/

/-- The first time that the request was made it was answered so. -/
def FirstAnswer (calls : List (Call α)) (r : Request α) (a : r.Answer) : Prop :=
  ∃ before after, calls = before ++ ⟨r, a⟩ :: after ∧ ∀ c ∈ before, c.1 ≠ r

namespace FirstAnswer

variable {calls : List (Call α)} {r : Request α} {a a' : r.Answer}

theorem here : FirstAnswer (⟨r, a⟩ :: calls) r a := ⟨[], calls, rfl, List.forall_mem_nil _⟩

theorem behind {others : List (Call α)} (h : FirstAnswer calls r a)
    (others_ne : ∀ c ∈ others, c.1 ≠ r) : FirstAnswer (others ++ calls) r a := by
  obtain ⟨before, after, rfl, before_ne⟩ := h
  exact ⟨others ++ before, after, (List.append_assoc _ _ _).symm,
    List.forall_mem_append.2 ⟨others_ne, before_ne⟩⟩

theorem cons {c : Call α} (h : FirstAnswer calls r a) (hc : c.1 ≠ r) :
    FirstAnswer (c :: calls) r a :=
  show FirstAnswer ([c] ++ calls) r a from h.behind (List.forall_mem_singleton.2 hc)

theorem unique (h : FirstAnswer calls r a) (h' : FirstAnswer calls r a') : a = a' := by
  obtain ⟨before, after, rfl, others⟩ := h
  obtain ⟨before', after', same, others'⟩ := h'
  induction before generalizing before' with
  | nil =>
    cases before' with
    | nil =>
      cases same
      rfl
    | cons c before' =>
      cases same
      exact absurd rfl (others' _ List.mem_cons_self)
  | cons c before ih =>
    cases before' with
    | nil =>
      cases same
      exact absurd rfl (others _ List.mem_cons_self)
    | cons d before' =>
      rw [List.forall_mem_cons] at others others'
      exact ih others.2 before' (List.cons.inj same).2 others'.2

end FirstAnswer

namespace Session

/-- A report carries a solution if its status promises one, as it was read for the report. -/
structure CarriesSolution (asked : List (Call α)) (r : SolveReport α) : Prop where
  primal : r.primal.isSome = r.status.hasSolution
  primal_read : ∀ values, r.primal = some values → FirstAnswer asked .primal (.ok values)
  dual : ∀ values, r.dual = some values → r.primal.isSome = true ∧
    FirstAnswer asked .isMixedInteger false ∧ FirstAnswer asked .dual (.ok values)
  objective : r.objective.isSome = true ↔ r.primal.isSome = true ∧
    ∃ count, FirstAnswer asked .objectiveCount count ∧ 0 < count
  objective_read : ∀ x, r.objective = some x → FirstAnswer asked .objectiveValue (.ok x)

/-- A report tells what happened: `stopped` says whether the flag was up, `answer` is what the
backend gave for the solve, and `asked` are the questions of the report with their answers. -/
structure Consistent (t : StatusTable) (name : String) (stopped : Bool)
    (answer : Except Failure Unit) (asked : List (Call α)) (r : SolveReport α) : Prop
    extends CarriesSolution asked r where
  interrupted : stopped = true → r.status = .interrupted
  failed : stopped = false → ∀ f, answer = .error f →
    r.status = .error ∧ r.message = Report.summaryLine name f.chain
  interpreted : stopped = false → answer = .ok () → ∃ native feasible,
    FirstAnswer asked .nativeStatus (.ok native) ∧ FirstAnswer asked .hasFeasible feasible ∧
    (∀ e, t.IsFirst native e → r.status =
      if e.status = .feasibleUncertain ∧ feasible = false then .unknown else e.status) ∧
    ((∀ e ∈ t, e.native ≠ native) → r.status = .unknown)
  optimal : r.status = .optimal → stopped = false ∧ answer = .ok () ∧ ∃ native e,
    FirstAnswer asked .nativeStatus (.ok native) ∧ t.IsFirst native e ∧ e.status = .optimal
  code : SolveStatus.ofCode r.solveCode = r.status

variable {t : StatusTable} {name : String} {stopped : Bool} {answer : Except Failure Unit}
  {asked : List (Call α)} {r : SolveReport α}

theorem carriesSolution_absent (status : r.status.hasSolution = false) (primal : r.primal = none)
    (dual : r.dual = none) (objective : r.objective = none) : CarriesSolution asked r where
  primal := by rw [primal, status]; rfl
  primal_read _ h := by rw [primal] at h; cases h
  dual _ h := by rw [dual] at h; cases h
  objective := by
    rw [objective, primal]
    exact ⟨nofun, fun h => nomatch h.1⟩
  objective_read _ h := by rw [objective] at h; cases h

/-- Without a promised solution nothing is read. -/
theorem ReadResults.absent {status : SolveStatus} {failure : Option String} {reading : Reading α}
    (h : ReadResults status failure reading asked) (none : status.hasSolution = false) :
    reading = {} := by
  cases h with
  | skipped => rfl
  | read solution =>
    cases solution with
    | absent => rfl
    | present some =>
      rw [none] at some
      cases some

theorem ReadDual.only {mixedInteger : Bool} {dual : Option (List α)} {calls : List (Call α)}
    (h : ReadDual mixedInteger dual calls) : ∀ c ∈ calls, c.1 = .dual := by
  cases h with
  | skipped => exact List.forall_mem_nil _
  | read => exact List.forall_mem_singleton.2 rfl

/-- What is read after other questions is carried. -/
theorem carriesSolution_read {status : SolveStatus} {mixedInteger : Bool} {reading : Reading α}
    {judging calls rest : List (Call α)} (hstatus : r.status = status)
    (hprimal : r.primal = reading.primal) (hdual : r.dual = reading.dual)
    (hobjective : r.objective = reading.objective)
    (solution : ReadSolution status mixedInteger reading calls)
    (others : ∀ c ∈ judging, c.1 = .nativeStatus ∨ c.1 = .hasFeasible) :
    CarriesSolution (judging ++ ⟨.isMixedInteger, mixedInteger⟩ :: (calls ++ rest)) r := by
  cases solution with
  | absent none => exact carriesSolution_absent (hstatus ▸ none) hprimal hdual hobjective
  | @present values dual objective count dualCalls objectiveCalls some readDual readObjective =>
    have mixed : FirstAnswer (judging ++ ⟨.isMixedInteger, mixedInteger⟩ ::
        (⟨.primal, .ok values⟩ :: (dualCalls ++ ⟨.objectiveCount, count⟩ :: objectiveCalls) ++
          rest)) .isMixedInteger mixedInteger :=
      FirstAnswer.here.behind fun c hc => by rcases others c hc with h | h <;> rw [h] <;> nofun
    -- what comes first after the kind of problem comes first
    have later {q : Request α} {a : q.Answer} (hq : q ≠ .nativeStatus ∧ q ≠ .hasFeasible ∧
        q ≠ .isMixedInteger) (h : FirstAnswer (⟨.primal, .ok values⟩ :: (dualCalls ++
          ⟨.objectiveCount, count⟩ :: (objectiveCalls ++ rest))) q a) :
        FirstAnswer (judging ++ ⟨.isMixedInteger, mixedInteger⟩ ::
          (⟨.primal, .ok values⟩ :: (dualCalls ++ ⟨.objectiveCount, count⟩ :: objectiveCalls) ++
            rest)) q a := by
      rw [List.cons_append, List.append_assoc, List.cons_append]
      refine (h.cons (c := ⟨.isMixedInteger, mixedInteger⟩) hq.2.2.symm).behind fun c hc => ?_
      rcases others c hc with h | h <;> rw [h]
      · exact hq.1.symm
      · exact hq.2.1.symm
    have pastDual {q : Request α} {a : q.Answer} (hq : q ≠ .dual ∧ q ≠ .primal)
        (h : FirstAnswer (⟨.objectiveCount, count⟩ :: (objectiveCalls ++ rest)) q a) :
        FirstAnswer (⟨.primal, .ok values⟩ :: (dualCalls ++ ⟨.objectiveCount, count⟩ ::
          (objectiveCalls ++ rest))) q a :=
      (h.behind fun c hc => by rw [readDual.only c hc]; exact hq.1.symm).cons hq.2.symm
    have counted := later (q := .objectiveCount) ⟨nofun, nofun, nofun⟩
      (pastDual ⟨nofun, nofun⟩ .here)
    have carries : r.primal.isSome = true := by rw [hprimal]; rfl
    constructor
    · rw [hstatus, some, carries]
    · intro xs h
      rw [hprimal] at h
      cases h
      exact later ⟨nofun, nofun, nofun⟩ .here
    · intro ys h
      rw [hdual] at h
      cases readDual with
      | skipped => cases h
      | read zs =>
        obtain ⟨-, same⟩ := Option.ite_none_left_eq_some.1 h
        cases same
        exact ⟨carries, mixed, later ⟨nofun, nofun, nofun⟩ (FirstAnswer.here.cons nofun)⟩
    · rw [hobjective]
      constructor
      · intro present
        cases readObjective with
        | skipped => cases present
        | read positive => exact ⟨carries, count, counted, positive⟩
      · rintro ⟨-, n, first, positive⟩
        cases counted.unique first
        cases readObjective with
        | skipped => cases positive
        | read => rfl
    · intro x h
      rw [hobjective] at h
      cases readObjective with
      | skipped => cases h
      | read _ y =>
        cases h
        exact later ⟨nofun, nofun, nofun⟩
          (pastDual ⟨nofun, nofun⟩ (FirstAnswer.here.cons nofun))

theorem notedFailure_eq_none : notedFailure answer none = none ↔ answer = .ok () := by
  cases answer with
  | ok => exact ⟨fun _ => rfl, fun _ => rfl⟩
  | error f => exact ⟨nofun, nofun⟩

/-- What a report is made of makes it consistent. -/
theorem Reported.consistent (h : Reported t name stopped (notedFailure answer none) r asked) :
    Consistent t name stopped answer asked r := by
  obtain ⟨judged, results, titled, bare⟩ := h
  rename_i v reading title statistics judging calls
  cases judged with
  | interrupted up =>
    cases results.absent rfl
    exact {
      carriesSolution_absent rfl rfl rfl rfl with
      interrupted := fun _ => rfl
      failed := fun down => absurd (up.symm.trans down) nofun
      interpreted := fun down => absurd (up.symm.trans down) nofun
      optimal := nofun
      code := rfl }
  | failed down noted =>
    cases results.absent rfl
    have silent : statistics = "" := bare (by rw [noted]; rfl)
    exact {
      carriesSolution_absent rfl rfl rfl rfl with
      interrupted := fun up => absurd (down.symm.trans up) nofun
      failed := fun _ f hf => by
        subst hf
        cases noted
        rw [titled rfl, silent]
        exact ⟨rfl, String.append_empty⟩
      interpreted := fun _ ok => by
        subst ok
        cases noted
      optimal := nofun
      code := rfl }
  | @interpreted native feasible down solved =>
    have ok := notedFailure_eq_none.1 solved
    rw [solved] at results
    cases results with
    | @read mixedInteger _ calls rest solution =>
      exact {
        carriesSolution_read rfl rfl rfl rfl solution (by
          refine List.forall_mem_cons.2 ⟨.inl rfl, List.forall_mem_singleton.2 (.inr rfl)⟩) with
        interrupted := fun up => absurd (down.symm.trans up) nofun
        failed := fun _ f hf => absurd (ok.symm.trans hf) nofun
        interpreted := fun _ _ => ⟨native, feasible, .here, FirstAnswer.here.cons nofun,
          fun e first => StatusTable.status_interpret_of_isFirst first feasible,
          fun unmapped => StatusTable.status_interpret_of_unmapped unmapped feasible⟩
        optimal := fun optimal => by
          dsimp only at optimal
          have known : (t.interpret native false feasible).status ≠ .unknown := by
            rw [optimal]
            nofun
          obtain ⟨e, first, status⟩ := StatusTable.isFirst_of_status_interpret known
          exact ⟨down, ok, native, e, .here, first, status.trans optimal⟩
        code := SolveStatus.ofCode_code _ }

end Session

/-! ### Whole sessions -/

/-- What happens to a session: an operation, or a write to a stop flag by anyone. -/
inductive SessionEvent (α : Type)
  | perform (o : Operation α)
  | write (h : StopHandle) (up : Bool)

variable [Scalar α] [Numeral α]

/-- The session and the flags after an event. -/
def SessionEvent.apply (b : Backend σ α) (w : World σ α) : SessionEvent α → World σ α
  | .perform o => ((o.perform b).run w).2
  | .write h up => (w.1, w.2.write h up)

namespace Session

/-- The session and the flags after some events. -/
def follow (b : Backend σ α) (events : List (SessionEvent α)) (w : World σ α) : World σ α :=
  events.foldl (fun w e => e.apply b w) w

/-- What holds of every session that can be reached. -/
theorem follow_spec (events : List (SessionEvent α)) {w : World (σ × List (Call α)) α}
    (sound : w.1.control.Sound) (remembers : Remembers w) :
    w.1.control.Moves (follow b.traced events w).1.control ∧
      Remembers (follow b.traced events w) := by
  induction events generalizing w with
  | nil => exact ⟨.refl, remembers⟩
  | cons e rest ih =>
    cases e with
    | perform o =>
      have moves := (o.perform_control (b := b) sound).1
      have preserved :=
        (endures_remembers (b := b)).operation preserves_remembers_solve o w remembers
      obtain ⟨moves', remembers'⟩ := ih (sound.moves moves) preserved
      exact ⟨moves.trans moves', remembers'⟩
    | write h up => exact ih (w := (w.1, w.2.write h up)) sound ⟨remembers.last, remembers.keeps⟩

/-- A report is made in the stage after a solve. -/
theorem solved_of_report {b : Backend σ α} {w w' : World σ α} {r : SolveReport α}
    (h : (report b).run w = (.ok r, w')) : w.1.stage = .solved := by
  refine Ends.of_run (Q := fun _ _ => w.1.stage = .solved) (E := fun _ _ => True) ?_ h
  exact .bind <| .expectStage (fun solved => .always (fun _ _ => solved) fun _ _ => trivial)
    fun _ => trivial

/-- The events of a run before its report. -/
def runEvents (m : Problem α) : List (SessionEvent α) :=
  [.perform .acquire, .perform (.load m), .perform .finish, .perform .solve]

/-- The steps of a run that gives a report. -/
def Ran (b : Backend σ α) (m : Problem α) (w : World σ α) (r : SolveReport α) : Prop :=
  ∃ w₁ w₂ w₃ w₄ w₅, (acquire b).run w = (.ok (), w₁) ∧ (load b m).run w₁ = (.ok (), w₂) ∧
    (finish b).run w₂ = (.ok (), w₃) ∧ (solve b).run w₃ = (.ok (), w₄) ∧
    (report b).run w₄ = (.ok r, w₅)

theorem ends_drive (b : Backend σ α) (m : Problem α) (w : World σ α) :
    Ends (drive b m) w (fun r _ => Ran b m w r) fun _ _ => True := by
  refine .bind <| .mono .run (fun _ w₁ acquired => ?_) fun _ _ _ => trivial
  refine .bind <| .mono .run (fun _ w₂ loaded => ?_) fun _ _ _ => trivial
  refine .bind <| .mono .run (fun _ w₃ finished => ?_) fun _ _ _ => trivial
  refine .bind <| .tryCatch <| .mono .run (fun _ w₄ solved => ?_) fun e w₄ _ => ?_
  · exact .mono .run (fun r w₅ reported => ⟨w₁, w₂, w₃, w₄, w₅, acquired, loaded, finished, solved,
      reported⟩) fun _ _ _ => trivial
  · exact .bind <| .getSession <| .ite
      (fun _ => .bind <| .always (fun _ _ => .throw trivial) fun _ _ => trivial)
      fun _ => .throw trivial

/-- A run that gives a report made all its steps. -/
theorem ran_of_run {b : Backend σ α} {w w' : World σ α} {m : Problem α} {r : SolveReport α}
    (h : (run b m).run w = (.ok r, w')) : Ran b m w r := by
  refine Ends.of_run (E := fun _ _ => True) (Q := fun r _ => Ran b m w r) ?_ h
  refine .bind <| .tryCatch <| .bind <| .mono (ends_drive b m w) ?_ ?_
  · intro r w₁ ran
    exact .bind <| .always (fun _ _ => .pure <| .pure ran) fun _ _ =>
      .bind <| .always (fun _ _ => .bind <| .throw trivial) fun _ _ => trivial
  · intro e w₁ _
    exact .bind <| .always (fun _ _ => .bind <| .throw trivial) fun _ _ => trivial

/-- The events of a run lead to where its solve leaves the session. -/
theorem follow_runEvents {b : Backend σ α} {m : Problem α} {w w₁ w₂ w₃ : World σ α}
    (acquired : (acquire b).run w = (.ok (), w₁)) (loaded : (load b m).run w₁ = (.ok (), w₂))
    (finished : (finish b).run w₂ = (.ok (), w₃)) :
    follow b (runEvents m) w = ((solve b).run w₃).2 := by
  have first : SessionEvent.apply b w (.perform .acquire) = w₁ :=
    (snd_run_andReturn _ _ w).trans (congrArg Prod.snd acquired)
  have second : SessionEvent.apply b w₁ (.perform (.load m)) = w₂ :=
    (snd_run_andReturn _ _ w₁).trans (congrArg Prod.snd loaded)
  have third : SessionEvent.apply b w₂ (.perform .finish) = w₃ :=
    (snd_run_andReturn _ _ w₂).trans (congrArg Prod.snd finished)
  rw [follow, runEvents, List.foldl_cons, first, List.foldl_cons, second, List.foldl_cons, third,
    List.foldl_cons, List.foldl_nil]
  exact snd_run_andReturn _ _ w₃

/-- The report of a run is made after its events. -/
theorem Ran.report {b : Backend σ α} {w : World σ α} {m : Problem α} {r : SolveReport α}
    (h : Ran b m w r) :
    ∃ w', (Session.report b).run (follow b (runEvents m) w) = (.ok r, w') := by
  obtain ⟨w₁, w₂, w₃, w₄, w₅, acquired, loaded, finished, solved, reported⟩ := h
  refine ⟨w₅, ?_⟩
  rw [follow_runEvents acquired loaded finished, solved, reported]

/-- Every report of a session is consistent with what happened to the session, whatever was asked
of it before, whatever the backend did and whoever wrote to the stop flag, as long as the
backend's questions do not. The report of a whole run is such a report. -/
theorem report_consistent {solver : σ} {config : SessionConfig}
    {s : Session (σ × List (Call α)) α}
    (created : create b.traced (solver, []) config = .ok s)
    (keeps : b.QuestionsKeep config.stopHandle) (flags : StopFlags)
    (events : List (SessionEvent α)) :
    let w := follow b.traced events (s, flags)
    (∀ r w', (report b.traced).run w = (.ok r, w') →
      ∃ before answer between asked suffixes prints,
        w.1.solver.2 = before ++ ⟨.solve, answer⟩ :: between ∧
        (∀ c ∈ before, c.role ≠ .solve) ∧ (∀ c ∈ between, c.role = .query) ∧
        LeftByReport w w' r asked suffixes prints ∧
        Consistent b.statuses (b.traced.longName w.1.solver)
          (w.2.isStopped config.stopHandle) answer asked r) ∧
    ∀ m r w', (run b.traced m).run w = (.ok r, w') →
      ∃ w'', (report b.traced).run (follow b.traced (events ++ runEvents m) (s, flags)) =
        (.ok r, w'') := by
  intro w
  obtain ⟨sound, hconfig⟩ := sound_create created
  have fresh : Remembers (s, flags) := remembers_create created flags
  obtain ⟨moves, remembers⟩ := follow_spec (b := b) (w := (s, flags)) events sound fresh
  refine ⟨fun r w' reported => ?_, fun m r w' ran => ?_⟩
  · have solved := solved_of_report reported
    have handle : w.1.config.stopHandle = config.stopHandle :=
      congrArg _ (moves.same.2.trans hconfig)
    obtain ⟨asked, suffixes, prints, made, left⟩ :=
      (ends_report (fun _ => keeps) handle solved).of_run reported
    obtain ⟨calls, -⟩ := (sound.moves moves).inOrder.solved solved
    obtain ⟨before, answer, between, hcalls, others, queries⟩ :=
      Phase.start.solved_split nofun calls
    refine ⟨before, answer, between, asked, suffixes, prints, hcalls, others, queries, left, ?_⟩
    have noted : w.1.solveFailure = notedFailure answer none := by
      rw [remembers.last]
      exact (congrArg _ (congrArg _ hcalls)).trans (solveFailures_solved others queries)
    rw [noted] at made
    exact made.consistent
  · obtain ⟨w'', reported⟩ := (ran_of_run ran).report
    exact ⟨w'', by rw [follow, List.foldl_append]; exact reported⟩

omit [Numeral α] in
theorem questionsKeep_bare (policy : Scripted.Policy) (h : StopHandle) :
    (Scripted.bare (α := α) policy).QuestionsKeep h := by
  intro r w hr
  cases r with
  | nativeStatus | hasFeasible | primal | dual | objectiveValue | iterations | nodes
  | isMixedInteger | objectiveCount | findIis | mipGap => rfl
  | _ => cases hr

/-- A time limit without a solution is reported as unknown. -/
theorem report_consistent_downgraded :
    let b : Backend (ScriptedState Float) Float := Scripted.bare .linear
    let script : Script Float := { nativeStatus := 9, feasible := false, objective := 0 }
    ∃ s r w', create b.traced ({ script := script }, []) {} = .ok s ∧
      let w := follow b.traced [.perform .acquire, .perform .finish, .perform .solve] (s, .initial)
      (report b.traced).run w = (.ok r, w') ∧ r.status = .unknown ∧ ∃ answer asked,
        Consistent Scripted.statuses (b.traced.longName w.1.solver)
          (w.2.isStopped StopFlags.shared) answer asked r := by
  intro b script
  let events : List (SessionEvent Float) := [.perform .acquire, .perform .finish, .perform .solve]
  have facts : (create b.traced ({ script := script }, []) {}).toOption.map
      (fun s => ((report b.traced).run (follow b.traced events (s, .initial))).1.toOption.map
        (·.status)) = some (some .unknown) := by decide +kernel
  obtain ⟨s, created, outcome⟩ := Option.map_eq_some_iff.1 facts
  obtain ⟨r, reported, status⟩ := Option.map_eq_some_iff.1 outcome
  obtain ⟨w', reported⟩ := exists_run_of_toOption reported
  have created := eq_ok_of_toOption created
  obtain ⟨before, answer, between, asked, suffixes, prints, -, -, -, -, consistent⟩ :=
    (report_consistent created (questionsKeep_bare .linear _) .initial events).1 r w' reported
  exact ⟨s, r, w', created, reported, status, answer, asked, consistent⟩

end Session

end SolverBridge
