import SolverBridge.Proofs.Outcomes

/-! What a report asks. A report looks at the stop flag and at the failure of the solve, asks the
backend questions, and gives something to the sink. The questions with their answers and what is
given are added up along the report, so that a report that succeeds is laid out once: the verdict
with the questions it rests on, the solution with the questions it was read by, and the report
made of both. -/

namespace SolverBridge

variable {σ α : Type}

/-- No question writes to the stop flag. -/
def Backend.QuestionsKeep (b : Backend σ α) (h : StopHandle) : Prop :=
  ∀ (r : Request α) (w : σ × StopFlags), r.role = .query →
    (b.perform r w).2.2.isStopped h = w.2.isStopped h

/-- From the first session to the second questions were asked of the backend and things were given
to the sink. -/
structure Asks (b : Backend σ α) (h : StopHandle) (w w' : World (σ × List (Call α)) α)
    (asked : List (Call α)) (given : List (Delivery α)) : Prop where
  calls : w'.1.solver.2 = w.1.solver.2 ++ asked
  queries : ∀ c ∈ asked, c.role = .query
  idle : asked = [] → w'.1.solver = w.1.solver
  deliveries : w'.1.deliveries = w.1.deliveries ++ given
  solveFailure : w'.1.solveFailure = w.1.solveFailure
  config : w'.1.config = w.1.config
  stopped : b.QuestionsKeep h → w'.2.isStopped h = w.2.isStopped h

namespace Asks

variable {b : Backend σ α} {h : StopHandle} {w w' w'' : World (σ × List (Call α)) α}
  {calls calls' : List (Call α)} {ds ds' : List (Delivery α)}

/-- Nothing was asked, and the session differs in nothing that matters here. -/
theorem nothing (solver : w'.1.solver = w.1.solver) (deliveries : w'.1.deliveries = w.1.deliveries)
    (solveFailure : w'.1.solveFailure = w.1.solveFailure) (config : w'.1.config = w.1.config)
    (flags : w'.2 = w.2) : Asks b h w w' [] [] where
  calls := by rw [solver, List.append_nil]
  queries := List.forall_mem_nil _
  idle _ := solver
  deliveries := by rw [deliveries, List.append_nil]
  solveFailure := solveFailure
  config := config
  stopped _ := by rw [flags]

theorem trans (first : Asks b h w w' calls ds) (second : Asks b h w' w'' calls' ds') :
    Asks b h w w'' (calls ++ calls') (ds ++ ds') where
  calls := by rw [second.calls, first.calls, List.append_assoc]
  queries := List.forall_mem_append.2 ⟨first.queries, second.queries⟩
  idle none := by
    obtain ⟨none, none'⟩ := List.append_eq_nil_iff.1 none
    rw [second.idle none', first.idle none]
  deliveries := by rw [second.deliveries, first.deliveries, List.append_assoc]
  solveFailure := second.solveFailure.trans first.solveFailure
  config := second.config.trans first.config
  stopped keeps := (second.stopped keeps).trans (first.stopped keeps)

end Asks

/-- The action asks, and what it gives, asks and delivers is as `P` says. It fails only if
`E` holds. -/
def Asking {β : Type} (b : Backend σ α) (h : StopHandle) (a : SessionAction (σ × List (Call α)) α β)
    (w : World (σ × List (Call α)) α) (P : β → List (Call α) → List (Delivery α) → Prop)
    (E : Prop) : Prop :=
  Ends a w (fun x w' => ∃ calls ds, Asks b h w w' calls ds ∧ P x calls ds) fun _ _ => E

namespace Asking

variable {β γ : Type} {b : Backend σ α} {h : StopHandle} {E : Prop}
  {a : SessionAction (σ × List (Call α)) α β} {w : World (σ × List (Call α)) α}
  {P : β → List (Call α) → List (Delivery α) → Prop}

theorem pure {x : β} (hP : P x [] []) : Asking b h (Pure.pure x) w P E :=
  Ends.pure ⟨[], [], .nothing rfl rfl rfl rfl rfl, hP⟩

theorem bind {f : β → SessionAction (σ × List (Call α)) α γ}
    {Q : γ → List (Call α) → List (Delivery α) → Prop} (ha : Asking b h a w P E)
    (hf : ∀ x w' calls ds, Asks b h w w' calls ds → P x calls ds →
      Asking b h (f x) w' (fun y calls' ds' => Q y (calls ++ calls') (ds ++ ds')) E) :
    Asking b h (a >>= f) w Q E := by
  refine Ends.bind (Ends.mono ha ?_ fun _ _ he => he)
  rintro x w' ⟨calls, ds, first, hP⟩
  refine Ends.mono (hf x w' calls ds first hP) ?_ fun _ _ he => he
  rintro y w'' ⟨calls', ds', second, hQ⟩
  exact ⟨_, _, first.trans second, hQ⟩

theorem ite {C : Prop} [Decidable C] {a' : SessionAction (σ × List (Call α)) α β}
    (ht : C → Asking b h a w P E) (hf : ¬C → Asking b h a' w P E) :
    Asking b h (if C then a else a') w P E := Ends.ite ht hf

theorem request {r : Request α} (hr : r.role = .query)
    {P : r.Answer → List (Call α) → List (Delivery α) → Prop}
    (hP : ∀ answer, P answer [⟨r, answer⟩] []) : Asking b h (Session.request b.traced r) w P E := by
  refine Ends.request ⟨_, [], ⟨Backend.asked_traced_calls b r w, ?_, nofun, ?_, rfl, rfl, ?_⟩, hP _⟩
  · exact List.forall_mem_singleton.2 hr
  · exact (List.append_nil _).symm
  · exact fun keeps => keeps r (w.1.solver.1, w.2) hr

/-- A question, and what is done with the answer. -/
theorem ask {r : Request α} (hr : r.role = .query)
    {f : r.Answer → SessionAction (σ × List (Call α)) α β}
    (hf : ∀ answer w', Asks b h w w' [⟨r, answer⟩] [] →
      Asking b h (f answer) w' (fun y calls ds => P y (⟨r, answer⟩ :: calls) ds) E) :
    Asking b h (Session.request b.traced r >>= f) w P E := by
  refine bind (P := fun answer calls ds => calls = [⟨r, answer⟩] ∧ ds = [])
    (request hr fun _ => ⟨rfl, rfl⟩) ?_
  rintro answer w' calls ds asks ⟨rfl, rfl⟩
  exact hf answer w' asks

theorem pure_bind {x : γ} {f : γ → SessionAction (σ × List (Call α)) α β}
    (hf : Asking b h (f x) w P E) : Asking b h (Pure.pure x >>= f) w P E :=
  Ends.bind (Ends.pure hf)

theorem getSession {f : Session (σ × List (Call α)) α → SessionAction (σ × List (Call α)) α β}
    (hf : Asking b h (f w.1) w P E) : Asking b h (Session.getSession >>= f) w P E :=
  Ends.bind (Ends.getSession hf)

theorem isStopped {f : Bool → SessionAction (σ × List (Call α)) α β}
    (hf : Asking b h (f (w.2.isStopped w.1.config.stopHandle)) w P E) :
    Asking b h (Session.isStopped >>= f) w P E :=
  Ends.bind (Ends.isStopped hf)

theorem demand {operation : String} {answer : Except Failure β}
    {f : β → SessionAction (σ × List (Call α)) α γ}
    {P : γ → List (Call α) → List (Delivery α) → Prop}
    (hok : ∀ x, answer = .ok x → Asking b h (f x) w P E) (herror : E) :
    Asking b h (Session.demand b.traced operation answer >>= f) w P E :=
  Ends.bind (Ends.demand hok fun _ _ => herror)

theorem log {level : EventLevel} {operation : String} {fields : List (String × EventField)}
    {message : String} {P : Unit → List (Call α) → List (Delivery α) → Prop} (hP : P () [] []) :
    Asking b h (Session.log level operation fields message) w P E :=
  Ends.log ⟨[], [], .nothing rfl rfl rfl rfl rfl, hP⟩

theorem deliver {d : Delivery α} {P : Unit → List (Call α) → List (Delivery α) → Prop}
    (hP : P () [] [d]) : Asking b h (Session.deliver d) w P E :=
  Ends.modifySession ⟨[], [d], ⟨(List.append_nil _).symm, List.forall_mem_nil _, fun _ => rfl, rfl,
    rfl, rfl, fun _ => rfl⟩, hP⟩

end Asking

/-! ### The verdict -/

/-- A verdict with the questions that it rests on. -/
inductive Session.Judged (t : StatusTable) (stopped : Bool) (failure : Option String) :
    Verdict → List (Call α) → Prop
  | interrupted (up : stopped = true) : Judged t stopped failure ⟨.interrupted, "interrupted"⟩ []
  | failed {message : String} (down : stopped = false) (noted : failure = some message) :
      Judged t stopped failure ⟨.error, message⟩ []
  | interpreted {native : Int} {feasible : Bool} (down : stopped = false)
      (solved : failure = none) :
      Judged t stopped failure (t.interpret native false feasible)
        [⟨.nativeStatus, .ok native⟩, ⟨.hasFeasible, feasible⟩]

/-! ### The solution -/

/-- Duals are asked for without integrality. -/
inductive Session.ReadDual : Bool → Option (List α) → List (Call α) → Prop
  | skipped : ReadDual true none []
  | read (values : List α) :
      ReadDual false (if values.isEmpty then none else some values) [⟨.dual, .ok values⟩]

/-- The objective's value is asked for when there is an objective. -/
inductive Session.ReadObjective : Nat → Option α → List (Call α) → Prop
  | skipped : ReadObjective 0 none []
  | read {count : Nat} (positive : 0 < count) (x : α) :
      ReadObjective count (some x) [⟨.objectiveValue, .ok x⟩]

/-- A solution with the questions that it was read by. -/
inductive Session.ReadSolution (status : SolveStatus) (mixedInteger : Bool) :
    Reading α → List (Call α) → Prop
  | absent (none : status.hasSolution = false) : ReadSolution status mixedInteger {} []
  | present {values : List α} {dual : Option (List α)} {objective : Option α} {count : Nat}
      {dualCalls objectiveCalls : List (Call α)} (some : status.hasSolution = true)
      (readDual : ReadDual mixedInteger dual dualCalls)
      (readObjective : ReadObjective count objective objectiveCalls) :
      ReadSolution status mixedInteger ⟨.some values, dual, objective⟩
        (⟨.primal, .ok values⟩ :: (dualCalls ++ ⟨.objectiveCount, count⟩ :: objectiveCalls))

/-- All that is read for a report. Nothing is read after a failed solve. -/
inductive Session.ReadResults (status : SolveStatus) :
    Option String → Reading α → List (Call α) → Prop
  | skipped {message : String} : ReadResults status (some message) {} []
  | read {mixedInteger : Bool} {reading : Reading α} {calls rest : List (Call α)}
      (solution : ReadSolution status mixedInteger reading calls) :
      ReadResults status none reading (⟨.isMixedInteger, mixedInteger⟩ :: (calls ++ rest))

/-- A report with the questions that were asked for it. A failed solve leaves no statistics to
report, and the backend has its name from before the first question. -/
inductive Session.Reported (t : StatusTable) (name : String) (stopped : Bool)
    (failure : Option String) : SolveReport α → List (Call α) → Prop
  | mk {v : Verdict} {reading : Reading α} {title statistics : String}
      {judging calls : List (Call α)} (judged : Judged t stopped failure v judging)
      (results : ReadResults v.status failure reading calls)
      (titled : judging = [] → title = name)
      (bare : failure.isSome = true → statistics = "") :
      Reported t name stopped failure
        { status := v.status
          solveCode := v.status.code
          message := Report.summaryLine title v.message ++ statistics
          objective := reading.objective
          primal := reading.primal
          dual := reading.dual }
        (judging ++ calls)

def Delivery.IsSuffix : Delivery α → Prop
  | .intSuffix _ _ | .numSuffix _ _ => True
  | _ => False

def Delivery.IsPrint : Delivery α → Prop
  | .print _ => True
  | _ => False

namespace Asking

variable {b : Backend σ α} {h : StopHandle} {w : World (σ × List (Call α)) α}

theorem verdict (keeps : w.2.isStopped h = false → b.QuestionsKeep h)
    (handle : w.1.config.stopHandle = h) :
    Asking b h (Session.verdict b.traced) w
      (fun v calls ds => ds = [] ∧
        Session.Judged b.statuses (w.2.isStopped h) w.1.solveFailure v calls)
      (w.2.isStopped h = false) := by
  refine isStopped <| ite (fun up => ?_) fun down => getSession ?_
  · rw [handle] at up
    exact pure ⟨rfl, .interrupted up⟩
  · rw [handle, Bool.not_eq_true] at down
    split
    · exact pure ⟨rfl, .failed down ‹_›⟩
    · rename_i solved
      refine ask rfl fun native w' asks => demand ?_ down
      rintro n rfl
      refine isStopped <| ask rfl fun feasible w'' asks' => pure ⟨rfl, ?_⟩
      rw [asks.config, handle, asks.stopped (keeps down), down]
      exact .interpreted rfl solved

theorem readSolution {status : SolveStatus} {mixedInteger : Bool} :
    Asking b h (Session.readSolution b.traced status mixedInteger) w
      (fun reading calls ds => ds = [] ∧ Session.ReadSolution status mixedInteger reading calls)
      (status.hasSolution = true) := by
  refine ite (fun some => ?_) fun none => pure ⟨rfl, .absent (Bool.eq_false_iff.2 none)⟩
  refine ask rfl fun answer w asks => demand ?_ some
  rintro values rfl
  extract_lets readRest
  have reads (dual : Option (List α)) (dualCalls : List (Call α))
      (readDual : Session.ReadDual mixedInteger dual dualCalls)
      (w : World (σ × List (Call α)) α) :
      Asking b h (readRest dual) w (fun reading calls ds => ds = [] ∧
        Session.ReadSolution status mixedInteger reading
          (⟨.primal, .ok values⟩ :: (dualCalls ++ calls))) (status.hasSolution = true) := by
    refine ask rfl fun count w asks => ?_
    extract_lets finish
    refine ite (fun positive => ?_) fun zero => ?_
    · refine ask rfl fun answer w asks => demand ?_ some
      rintro x rfl
      exact pure_bind <| pure ⟨rfl, .present some readDual (.read positive x)⟩
    · rw [Nat.eq_zero_of_not_pos zero]
      exact pure_bind <| pure ⟨rfl, .present some readDual .skipped⟩
  refine ite (fun mixed => ?_) fun unmixed => ?_
  · subst mixed
    exact pure_bind (reads none [] .skipped w)
  · rw [Bool.eq_false_iff.2 unmixed] at reads ⊢
    refine ask rfl fun answer w asks => demand ?_ some
    rintro ys rfl
    exact pure_bind (reads _ [⟨.dual, .ok ys⟩] (.read ys) w)

theorem reportIis {options : BaseOptions} {status : SolveStatus}
    {E : Prop} : Asking b h (Session.reportIis b.traced options status) w
      (fun _ _ ds => ∀ d ∈ ds, d.IsSuffix) E := by
  refine ite (fun _ => ask rfl fun answer w asks => ?_) fun _ => pure (List.forall_mem_nil _)
  split
  · refine bind (P := fun _ _ ds => ∀ d ∈ ds, d.IsSuffix)
      (deliver (List.forall_mem_singleton.2 trivial)) fun _ w calls ds asks suffixes => ?_
    exact deliver (List.forall_mem_append.2 ⟨suffixes, List.forall_mem_singleton.2 trivial⟩)
  · exact log (List.forall_mem_nil _)

theorem reportGap [Scalar α] {options : BaseOptions}
    {mixedInteger : Bool} {E : Prop} :
    Asking b h (Session.reportGap b.traced options mixedInteger) w
      (fun _ _ ds => ∀ d ∈ ds, d.IsSuffix) E := by
  refine ite (fun _ => ask rfl fun gap w asks => ?_) fun _ => pure (List.forall_mem_nil _)
  extract_lets _ deliverRest
  have delivers (w : World (σ × List (Call α)) α) (before : List (Delivery α))
      (suffixes : ∀ d ∈ before, d.IsSuffix) :
      Asking b h (deliverRest ()) w (fun _ _ ds => ∀ d ∈ before ++ ds, d.IsSuffix) E :=
    ite (fun _ => deliver (List.forall_mem_append.2
        ⟨suffixes, List.forall_mem_singleton.2 trivial⟩))
      fun _ => pure (List.forall_mem_append.2 ⟨suffixes, List.forall_mem_nil _⟩)
  refine ite (fun _ => ask rfl fun count w asks => ?_)
    fun _ => delivers w [] (List.forall_mem_nil _)
  exact bind (P := fun _ _ ds => ∀ d ∈ ds, d.IsSuffix)
    (deliver (List.forall_mem_singleton.2 trivial))
    fun _ w _ ds _ suffixes => delivers w ds suffixes

theorem readResults [Scalar α] [Numeral α] {status : SolveStatus} :
    Asking b h (Session.readResults b.traced status) w
      (fun x calls ds => (∀ d ∈ ds, d.IsSuffix) ∧
        Session.ReadResults status w.1.solveFailure x.1 calls ∧
        (w.1.solveFailure.isSome = true → x.2 = ""))
      (status.hasSolution = true) := by
  refine getSession <| ite (fun failed => ?_) fun solved => ?_
  · obtain ⟨message, noted⟩ := Option.isSome_iff_exists.1 failed
    rw [noted]
    exact pure ⟨List.forall_mem_nil _, .skipped, fun _ => rfl⟩
  · rw [Option.not_isSome_iff_eq_none.1 solved]
    refine ask rfl fun mixedInteger w asks => bind readSolution ?_
    rintro reading w calls ds asks ⟨rfl, solution⟩
    extract_lets finish
    have finishes (nodes : Option Nat) (w : World (σ × List (Call α)) α) (before : List (Call α)) :
        Asking b h (finish nodes) w (fun x more ds => (∀ d ∈ ds, d.IsSuffix) ∧
          Session.ReadResults status none x.1
            (⟨.isMixedInteger, mixedInteger⟩ :: (calls ++ (before ++ more))) ∧
          ((none : Option String).isSome = true → x.2 = "")) (status.hasSolution = true) := by
      refine ask rfl fun iterations w asks => getSession <| bind reportIis ?_
      intro _ w calls ds asks suffixes
      refine bind reportGap fun _ w calls ds' asks suffixes' => pure ?_
      refine ⟨?_, .read solution, nofun⟩
      rw [List.append_nil]
      exact List.forall_mem_append.2 ⟨suffixes, suffixes'⟩
    refine ite (fun _ => ?_) fun _ => pure_bind (finishes none w [])
    refine bind (P := fun _ _ ds => ds = []) (Ends.map (request rfl fun _ => rfl)) ?_
    rintro nodes w calls ds asks rfl
    exact finishes nodes w calls

end Asking

/-! ### The report -/

namespace Session

/-- What a report leaves: the questions are the last calls, and the sink was given suffixes, the
outcome and what is printed after it. -/
structure LeftByReport (w w' : World (σ × List (Call α)) α) (r : SolveReport α)
    (asked : List (Call α)) (suffixes prints : List (Delivery α)) : Prop where
  calls : w'.1.solver.2 = w.1.solver.2 ++ asked
  queries : ∀ c ∈ asked, c.role = .query
  deliveries : w'.1.deliveries = w.1.deliveries ++ suffixes ++ .outcome r.outcome :: prints
  only_suffixes : ∀ d ∈ suffixes, d.IsSuffix
  only_prints : ∀ d ∈ prints, d.IsPrint
  stage : w'.1.stage = .reported

theorem Judged.hasSolution {t : StatusTable} {stopped : Bool} {failure : Option String}
    {v : Verdict} {calls : List (Call α)} (judged : Judged t stopped failure v calls)
    (h : v.status.hasSolution = true) : stopped = false ∧ failure = none := by
  cases judged with
  | interrupted => cases h
  | failed => cases h
  | interpreted down solved => exact ⟨down, solved⟩

variable [Scalar α] [Numeral α] {b : Backend σ α} {h : StopHandle}
  {w : World (σ × List (Call α)) α}

/-- What a report of a solved session is made of. It does not fail while the stop flag is up, and
then it does not matter who writes to it meanwhile. -/
theorem ends_report (keeps : w.2.isStopped h = false → b.QuestionsKeep h)
    (handle : w.1.config.stopHandle = h) (solved : w.1.stage = .solved) :
    Ends (report b.traced) w
      (fun r w' => ∃ asked suffixes prints,
        Reported b.statuses (b.traced.longName w.1.solver) (w.2.isStopped h) w.1.solveFailure r
          asked ∧ LeftByReport w w' r asked suffixes prints)
      (fun _ _ => w.2.isStopped h = false) := by
  refine .bind <| .expectStage (fun _ => ?_) fun other => absurd solved other
  refine .bind <| .mono (Asking.verdict keeps handle) ?_ fun _ _ down => down
  rintro v w₁ ⟨judging, _, asks, rfl, judged⟩
  refine .bind <| .backendName <| .bind <| .mono (Asking.readResults (h := h)) ?_
    fun _ _ some => (judged.hasSolution some).1
  rintro ⟨reading, statistics⟩ w₂ ⟨calls, suffixes, asks', only, results, bare⟩
  rw [asks.solveFailure] at results bare
  have titled (none : judging = []) :
      b.traced.longName w₁.1.solver = b.traced.longName w.1.solver :=
    congrArg _ (asks.idle none)
  have both := asks.trans asks'
  let r : SolveReport α :=
    { status := v.status
      solveCode := v.status.code
      message := Report.summaryLine (b.traced.longName w₁.1.solver) v.message ++ statistics
      objective := reading.objective
      primal := reading.primal
      dual := reading.dual }
  have made : Reported b.statuses (b.traced.longName w.1.solver) (w.2.isStopped h)
      w.1.solveFailure r (judging ++ calls) := .mk judged results titled bare
  refine .bind <| .modifySession <| .bind <| .now <| .bind <| .modifySession <| .bind <|
    .getSession ?_
  extract_lets close
  have closes (w₃ : World (σ × List (Call α)) α) (prints : List (Delivery α))
      (only_prints : ∀ d ∈ prints, d.IsPrint) (solver : w₃.1.solver = w₂.1.solver)
      (deliveries : w₃.1.deliveries = w₂.1.deliveries ++ .outcome r.outcome :: prints) :
      Ends (close ()) w₃ (fun r w' => ∃ asked suffixes prints,
        Reported b.statuses (b.traced.longName w.1.solver) (w.2.isStopped h) w.1.solveFailure r
          asked ∧ LeftByReport w w' r asked suffixes prints)
        (fun _ _ => w.2.isStopped h = false) := by
    refine .bind <| .modifySession <| .bind <| .log <| .pure ⟨_, suffixes, prints, made, ?_⟩
    refine ⟨?_, both.queries, ?_, only, only_prints, rfl⟩
    · rw [← both.calls, ← solver]
    · rw [List.nil_append] at both
      rw [← both.deliveries]
      exact deliveries
  refine .ite (fun _ => .bind <| .modifySession ?_) fun _ => ?_
  · exact closes _ [.print _] (List.forall_mem_singleton.2 trivial) rfl (List.append_assoc _ _ _)
  · exact closes _ [] (List.forall_mem_nil _) rfl rfl

end Session

end SolverBridge
