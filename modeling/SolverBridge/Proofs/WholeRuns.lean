import SolverBridge.Proofs.Deliveries
import SolverBridge.Proofs.Reports

/-! Whole runs. A run goes through its steps until one fails, and closes the session in either case.
Three things can come of it. It gives a report, which the sink has received; the backend fails the
solve, and the sink has received a report of that failure; or something else fails, and the sink
has received nothing. The solves that failed are part of the calls, so that the three cases can be
told apart by what the backend saw. The report of a failed solve asks nothing, so it cannot
fail and hide the failure that it reports. -/

namespace SolverBridge

variable {σ α : Type}

/-! ### Acquisitions and releases -/

namespace Phase

/-- One while native resources are held. -/
def held : Phase → Nat
  | .start | .over => 0
  | _ => 1

theorem next?_held {ph next : Phase} {role : Role} {failed : Bool}
    (h : ph.next? role failed = some next) :
    next.held + (if role = .release then 1 else 0) =
      ph.held + if role = .acquire ∧ failed = false then 1 else 0 := by
  cases ph <;> cases role <;> first | cases h; done | (cases failed <;> cases h <;> rfl)

/-- The backend is released as often as it was acquired, but for the resources still held. -/
theorem after?_held {ph last : Phase} {calls : List (Call α)} (h : ph.after? calls = some last) :
    last.held + calls.countP (·.role = .release) =
      ph.held + calls.countP fun c => c.role = .acquire ∧ c.failed = false := by
  induction calls generalizing ph with
  | nil =>
    cases h
    rfl
  | cons c rest ih =>
    obtain ⟨mid, step, accepted⟩ := after?_cons h
    have further := ih accepted
    have first := next?_held step
    rw [List.countP_cons, List.countP_cons]
    simp only [decide_eq_true_eq] at first ⊢
    omega

end Phase

/-- A closed session has released what it acquired. -/
theorem Control.InOrder.released_of_closed {c : Control σ α} (h : c.InOrder)
    (closed : c.stage = .closed) :
    c.calls.countP (·.role = .release) =
      c.calls.countP fun c => c.role = .acquire ∧ c.failed = false := by
  obtain ⟨ph, accepted, fits⟩ := h
  rw [Fits, closed] at fits
  have balance := Phase.after?_held accepted
  rcases fits.2 with rfl | rfl <;> simpa [Phase.held] using balance

/-! ### Failed solves -/

theorem mem_solveFailures {calls : List (Call α)} {message : String} :
    message ∈ solveFailures calls ↔
      ∃ f : Failure, ⟨.solve, .error f⟩ ∈ calls ∧ f.chain = message := by
  constructor
  · intro h
    obtain ⟨⟨r, a⟩, called, noted⟩ := List.mem_filterMap.1 h
    cases r with
    | solve =>
      cases a with
      | ok => cases noted
      | error f => exact ⟨f, called, Option.some.inj noted⟩
    | _ => cases noted
  · rintro ⟨f, called, rfl⟩
    exact List.mem_filterMap.2 ⟨_, called, rfl⟩

/-- The solves that failed did so with these messages, and the session has the last of them. -/
structure FailedSolves (messages : List String) (w : World (σ × List (Call α)) α) : Prop
    extends Remembers w where
  failures : solveFailures w.1.solver.2 = messages

variable {b : Backend σ α} {messages : List String}

namespace FailedSolves

theorem noted {w : World (σ × List (Call α)) α} (h : FailedSolves messages w) :
    w.1.solveFailure = messages.getLast? := by
  rw [h.last, h.failures]

theorem asked {w : World (σ × List (Call α)) α} (h : FailedSolves messages w) {r : Request α}
    (hr : r.role ≠ .solve) : FailedSolves messages (b.traced.asked r w) :=
  ⟨h.toRemembers.asked hr, by
    rw [b.asked_traced_calls, solveFailures_concat (c := ⟨_, _⟩) hr]
    exact h.failures⟩

theorem endures : Endures b (FailedSolves messages) where
  alike same h := ⟨endures_remembers (b := b).alike same h.toRemembers, by
    rw [same.calls]
    exact h.failures⟩
  asked plain h := h.asked plain.2
  keeps h := h.keeps

/-- A solve adds its own failure to those before. -/
theorem solved {w w' : World (σ × List (Call α)) α} (h : FailedSolves messages w)
    (remembers : Remembers w') (same : w'.1.solver = (b.traced.asked .solve w).1.solver) :
    b.traced.answer .solve w = .ok () ∧ FailedSolves messages w' ∨
      ∃ f : Failure, b.traced.answer .solve w = .error f ∧
        FailedSolves (messages ++ [f.chain]) w' := by
  have calls : solveFailures w'.1.solver.2 =
      messages ++ solveFailures [⟨.solve, b.traced.answer .solve w⟩] := by
    rw [same, b.asked_traced_calls, ← h.failures]
    exact List.filterMap_append
  cases answer : b.traced.answer .solve w with
  | ok =>
    rw [answer] at calls
    exact .inl ⟨rfl, remembers, calls.trans (List.append_nil _)⟩
  | error f =>
    rw [answer] at calls
    exact .inr ⟨f, rfl, remembers, calls⟩

end FailedSolves

namespace Session

/-- A solve that the backend failed is told by the stage. -/
theorem ends_solve_failures {w : World (σ × List (Call α)) α} (h : FailedSolves messages w) :
    Ends (solve b.traced) w (fun _ => FailedSolves messages) fun _ w' =>
      FailedSolves messages w' ∧ w'.1.stage = w.1.stage ∨
        w'.1.stage = .solved ∧ ∃ f : Failure, FailedSolves (messages ++ [f.chain]) w' := by
  have remembers := preserves_remembers_solve (b := b) w h.toRemembers
  have outcome := solve_outcome b.traced w
  rw [Ends]
  generalize (solve b.traced).run w = reached at remembers outcome ⊢
  obtain ⟨x, w'⟩ := reached
  have lowered : FailedSolves messages w.lowered := ⟨⟨h.last, h.keeps⟩, h.failures⟩
  have flagged (handle : StopHandle) :
      FailedSolves messages (b.traced.asked (.takeStopFlag handle) w.lowered) :=
    lowered.asked fun same => by cases same
  cases outcome with
  | refused same stage =>
    exact .inl ⟨⟨remembers, by rw [same.solver]; exact h.failures⟩, stage⟩
  | unflagged closed same stage =>
    exact .inl ⟨⟨remembers, by rw [same.solver]; exact (flagged _).failures⟩, stage⟩
  | @solved _ started _ closed ready same stage answered =>
    have before : FailedSolves messages started := by
      rcases ready with ⟨rfl, -⟩ | ⟨rfl, -⟩
      · exact lowered
      · exact flagged _
    rcases before.solved (b := b) remembers same.solver with ⟨ok, after⟩ | ⟨f, failed, after⟩
    · rw [ok] at answered
      cases x with
      | ok => exact after
      | error => cases answered
    · rw [failed] at answered
      cases x with
      | ok => cases answered
      | error => exact .inr ⟨stage, f, after⟩

/-! ### The report of a failed solve -/

/-- What the sink receives of a failed solve. -/
def failedOutcome (name : String) (stopped : Bool) (message : String) : Outcome α where
  solveCode := if stopped then 600 else 500
  message := Report.summaryLine name (if stopped then "interrupted" else message)
  primal := none
  dual := none
  objective := none

variable [Scalar α] [Numeral α]

/-- The report of a failed solve asks nothing and does not fail. -/
theorem ends_report_failed {b : Backend σ α} {w : World σ α} {message : String}
    (solved : w.1.stage = .solved) (noted : w.1.solveFailure = some message)
    {E : SessionError → World σ α → Prop} :
    Ends (report b) w (fun _ w' => ∃ prints, (∀ d ∈ prints, d.IsPrint) ∧
      w'.1.deliveries = w.1.deliveries ++ .outcome (failedOutcome (b.longName w.1.solver)
        (w.2.isStopped w.1.config.stopHandle) message) :: prints) E := by
  refine ends_report_of (fun other => absurd solved other) <| .bind <| .isStopped ?_
  have nothing (status : SolveStatus) {Q : Reading α × String → World σ α → Prop}
      (h : Q ({}, "") w) : Ends (readResults b status) w Q E :=
    .bind <| .getSession <| .ite (fun _ => .pure h) fun some => absurd (noted ▸ rfl) some
  cases stopped : w.2.isStopped w.1.config.stopHandle with
  | true =>
    refine .pure <| nothing _ ?_
    rintro r rfl prints w' only given
    refine ⟨prints, only, ?_⟩
    simpa [SolveReport.outcome, failedOutcome, SolveStatus.code] using given
  | false =>
    refine .bind <| .getSession ?_
    rw [noted]
    refine .pure <| nothing _ ?_
    rintro r rfl prints w' only given
    refine ⟨prints, only, ?_⟩
    simpa [SolveReport.outcome, failedOutcome, SolveStatus.code] using given

/-! ### Runs -/

omit [Scalar α] [Numeral α] in
/-- What comes of a run: its result, what it gave to the sink and the messages of the solves that
failed. The name of the backend and the stop flag are those at the time of the report. -/
inductive RunOutcome (name : String) (stopped : Bool) :
    Except SessionError (SolveReport α) → List (Delivery α) → List String → Prop
  | reported (r : SolveReport α) {suffixes prints : List (Delivery α)}
      (only_suffixes : ∀ d ∈ suffixes, d.IsSuffix) (only_prints : ∀ d ∈ prints, d.IsPrint) :
      RunOutcome name stopped (.ok r) (suffixes ++ .outcome r.outcome :: prints) []
  | unsolved (message : String) {prints : List (Delivery α)}
      (only_prints : ∀ d ∈ prints, d.IsPrint) :
      RunOutcome name stopped (.error ⟨name, .native "solve" message⟩)
        (.outcome (failedOutcome name stopped message) :: prints) [message]
  | failed (e : SessionError) : RunOutcome name stopped (.error e) [] []

/-- A run from `w` came to `w'` with this result. If it got as far as a report, that was made
from `v`. -/
def RanTo (b : Backend σ α) (w v : World (σ × List (Call α)) α)
    (x : Except SessionError (SolveReport α)) (w' : World (σ × List (Call α)) α) : Prop :=
  ∃ given messages, w'.1.deliveries = w.1.deliveries ++ given ∧ FailedSolves messages w' ∧
    RunOutcome (b.longName v.1.solver.1) (v.2.isStopped v.1.config.stopHandle) x given messages

omit [Scalar α] [Numeral α] in
theorem RanTo.failed {w v w' : World (σ × List (Call α)) α} {e : SessionError}
    (same : w'.1.deliveries = w.1.deliveries) (solves : FailedSolves [] w') :
    RanTo b w v (.error e) w' := ⟨[], [], by rw [same, List.append_nil], solves, .failed e⟩

theorem ends_drive_outcome (m : Problem α) {w : World (σ × List (Call α)) α}
    (solves : FailedSolves [] w) :
    Ends (drive b.traced m) w (fun r => RanTo b w (follow b.traced (runEvents m) w) (.ok r))
      fun e => RanTo b w (follow b.traced (runEvents m) w) (.error e) := by
  have endures : Endures b (FailedSolves (σ := σ) (α := α) []) := FailedSolves.endures
  refine .bind <| .mono (.and .run (.and (silent_acquire (R := True) fun _ => trivial)
    (endures.acquire.ends solves))) ?_ fun _ _ h => .failed h.2.1.1 h.2.2
  rintro _ w₁ ⟨acquired, same₁, solves₁⟩
  refine .bind <| .mono (.and .run (.and (silent_load trivial m)
    ((endures.load m).ends solves₁))) ?_ fun _ _ h => .failed (h.2.1.1.trans same₁) h.2.2
  rintro _ w₂ ⟨loaded, same₂, solves₂⟩
  replace same₂ := same₂.trans same₁
  refine .bind <| .mono (.and .run (.and (ends_finish (R := True) fun _ => trivial)
    (endures.finish.ends solves₂))) ?_ fun _ _ h => .failed (h.2.1.1.trans same₂) h.2.2
  rintro _ w₃ ⟨finished, ⟨closed, same₃⟩, solves₃⟩
  replace same₃ := same₃.trans same₂
  have due := follow_runEvents acquired loaded finished
  refine .bind <| .tryCatch <| .mono (.and .run (.and (ends_solve (R := True) fun _ => trivial)
    (ends_solve_failures solves₃))) ?_ ?_
  · rintro - w₄ ⟨-, same₄, solves₄⟩
    replace same₄ := same₄.trans same₃
    refine .mono (.and (ends_report_deliveries (R := True) fun _ => trivial)
      (endures.report.ends solves₄)) ?_ fun _ _ h => .failed (h.1.1.trans same₄) h.2
    rintro r w₅ ⟨⟨suffixes, prints, only_suffixes, only_prints, given⟩, solves₅⟩
    refine ⟨_, [], ?_, solves₅, .reported r only_suffixes only_prints⟩
    rw [given, same₄, List.append_assoc]
  · rintro e w₄ ⟨solved, ⟨⟨same₄, -⟩, native⟩, failures⟩
    replace same₄ := same₄.trans same₃
    rw [solved] at due
    have unsolved : w₃.1.stage ≠ .solved := by
      rw [closed]
      nofun
    refine .bind <| .getSession <| .ite (fun stage => ?_) fun other => .throw ?_
    · obtain ⟨f, rfl, noted⟩ := native unsolved stage
      rcases failures with ⟨-, same⟩ | ⟨-, f', solves₄⟩
      · exact absurd (same.symm.trans stage) unsolved
      · have chain : f'.chain = f.chain := Option.some.inj (solves₄.noted.symm.trans noted)
        rw [chain] at solves₄
        refine .bind <| .mono (.and (ends_report_failed (E := fun _ _ => False) stage noted)
          (FailedSolves.endures.report.ends solves₄)) ?_ fun _ _ h => h.1.elim
        rintro r w₅ ⟨⟨prints, only_prints, given⟩, solves₅⟩
        refine .throw ⟨_, [f.chain], given.trans (by rw [same₄]), solves₅, ?_⟩
        rw [due]
        exact .unsolved f.chain only_prints
    · rcases failures with ⟨solves₄, -⟩ | ⟨stage, -⟩
      · exact .failed same₄ solves₄
      · exact absurd stage other

/-- A run ends as its steps do, and the session is closed after it. -/
theorem ends_run_outcome (m : Problem α) {w : World (σ × List (Call α)) α}
    (solves : FailedSolves [] w) :
    let v := follow b.traced (runEvents m) w
    Ends (run b.traced m) w (fun r w' => RanTo b w v (.ok r) w' ∧ w'.1.stage = .closed)
      fun e w' => RanTo b w v (.error e) w' ∧ w'.1.stage = .closed := by
  intro v
  have settles {x : Except SessionError (SolveReport α)} {w₁ : World (σ × List (Call α)) α}
      (ran : RanTo b w v x w₁) :
      Ends (settle b.traced) w₁ (fun _ w' => RanTo b w v x w' ∧ w'.1.stage = .closed)
        fun _ _ => False := by
    obtain ⟨given, messages, delivered, solves₁, outcome⟩ := ran
    refine .mono (.and (ends_settle b.traced w₁) (FailedSolves.endures.settle.ends solves₁)) ?_
      fun _ _ h => h.1
    rintro - w' ⟨⟨closed, same⟩, solves'⟩
    exact ⟨⟨given, messages, same.trans delivered, solves', outcome⟩, closed⟩
  refine .bind <| .tryCatch <| .bind <| .mono (ends_drive_outcome m solves) ?_ ?_
  · intro r w₁ ran
    exact .bind <| .mono (settles ran) (fun _ _ closed => .pure <| .pure closed)
      fun _ _ h => h.elim
  · intro e w₁ ran
    exact .bind <| .mono (settles ran) (fun _ _ closed => .bind <| .throw closed)
      fun _ _ h => h.elim

/-- A run from `w` came to `w'` with this result, and the calls tell what came of it. A report would
have been made from `v`. -/
structure Settled (b : Backend σ α) (w v : World (σ × List (Call α)) α)
    (x : Except SessionError (SolveReport α)) (w' : World (σ × List (Call α)) α) : Prop where
  closed : w'.1.stage = .closed
  released : w'.1.solver.2.countP (·.role = .release) =
    w'.1.solver.2.countP fun c => c.role = .acquire ∧ c.failed = false
  /-- A report is the only outcome that the sink received. -/
  reported : ∀ r, x = .ok r → ∃ suffixes prints,
    (∀ d ∈ suffixes, d.IsSuffix) ∧ (∀ d ∈ prints, d.IsPrint) ∧
      w'.1.deliveries = w.1.deliveries ++ (suffixes ++ .outcome r.outcome :: prints)
  /-- The failure of a solve is given back after the sink received its report. -/
  unsolved : ∀ f, ⟨.solve, .error f⟩ ∈ w'.1.solver.2 →
    x = .error ⟨b.longName v.1.solver.1, nativeFault "solve" f⟩ ∧
    ∃ prints, (∀ d ∈ prints, d.IsPrint) ∧
      w'.1.deliveries = w.1.deliveries ++ .outcome (failedOutcome (b.longName v.1.solver.1)
        (v.2.isStopped v.1.config.stopHandle) f.chain) :: prints
  /-- Of every other failure the sink is told nothing. -/
  silent : ∀ e, x = .error e → (∀ f, ⟨.solve, .error f⟩ ∉ w'.1.solver.2) →
    w'.1.deliveries = w.1.deliveries

omit [Scalar α] [Numeral α] in
/-- The calls tell the three ends of a run apart. -/
theorem RanTo.settled {w v w' : World (σ × List (Call α)) α}
    {x : Except SessionError (SolveReport α)} (h : RanTo b w v x w')
    (ordered : w'.1.control.InOrder) (closed : w'.1.stage = .closed) : Settled b w v x w' := by
  obtain ⟨given, messages, delivered, failures, outcome⟩ := h
  have called (f : Failure) (h : ⟨.solve, .error f⟩ ∈ w'.1.solver.2) : f.chain ∈ messages := by
    rw [← failures.failures]
    exact mem_solveFailures.2 ⟨f, h, rfl⟩
  have released := ordered.released_of_closed closed
  cases outcome with
  | reported r only_suffixes only_prints =>
    refine ⟨closed, released, fun r' same => ?_, fun f h => absurd (called f h) List.not_mem_nil,
      nofun⟩
    cases same
    exact ⟨_, _, only_suffixes, only_prints, delivered⟩
  | unsolved message only_prints =>
    refine ⟨closed, released, nofun, fun f h => ?_, fun e _ none => ?_⟩
    · cases List.mem_singleton.1 (called f h)
      exact ⟨rfl, _, only_prints, delivered⟩
    · obtain ⟨f, h, -⟩ := mem_solveFailures.1 (failures.failures ▸ List.mem_singleton_self message)
      exact absurd h (none f)
  | failed e =>
    exact ⟨closed, released, nofun, fun f h => absurd (called f h) List.not_mem_nil,
      fun _ _ _ => delivered.trans (List.append_nil _)⟩

theorem inOrder_run (m : Problem α) {w : World (σ × List (Call α)) α}
    (sound : w.1.control.Sound) : ((run b.traced m).run w).2.1.control.InOrder := by
  have moves := ((Operation.run m).perform_control (b := b) sound).1
  have same : (((Operation.run m).perform b.traced).run w).2 = ((run b.traced m).run w).2 :=
    snd_run_andReturn _ _ w
  rw [same] at moves
  exact sound.inOrder.moves moves

/-- A run of a session that was not opened before closes it and releases what was acquired. If it
gives a report, the sink received that report as its only outcome. If the backend failed the solve,
the run fails with that failure, and the sink received one outcome without any values: an
error, or an interruption when the stop flag was up at the time of the report. If the run
fails otherwise the sink received nothing. -/
theorem run_settled {solver : σ} {config : SessionConfig} {s : Session (σ × List (Call α)) α}
    (created : create b.traced (solver, []) config = .ok s) (flags : StopFlags)
    (events : List (SessionEvent α)) (m : Problem α) :
    let w := follow b.traced events (s, flags)
    w.1.stage = .created →
      Settled b w (follow b.traced (runEvents m) w) ((run b.traced m).run w).1
        ((run b.traced m).run w).2 := by
  intro w fresh
  obtain ⟨moves, remembers⟩ := follow_spec (b := b) (w := (s, flags)) events
    (sound_create created).1 (remembers_create created flags)
  have sound : w.1.control.Sound := (sound_create created).1.moves moves
  -- before it is opened the session has not made any call
  have none : w.1.solver.2 = [] := Phase.start_calls (sound.inOrder.created fresh).1
  have solves : FailedSolves [] w := ⟨remembers, by rw [none]; rfl⟩
  obtain ⟨ranTo, closed⟩ :=
    Ends.outcome (P := fun x w' =>
        RanTo b w (follow b.traced (runEvents m) w) x w' ∧ w'.1.stage = .closed)
      (ends_run_outcome m solves)
  exact ranTo.settled (inOrder_run m sound) closed

omit [Scalar α] [Numeral α] in
/-- Nothing was delivered from a new session. -/
theorem deliveries_create {b : Backend σ α} {solver : σ} {config : SessionConfig}
    {s : Session σ α} (h : create b solver config = .ok s) : s.deliveries = [] := by
  delta create at h
  split at h
  · cases h
  · cases h
    rfl

/-- A backend that raises the stop flag while it solves, and then fails. -/
theorem run_settled_crashed :
    let b : Backend (ScriptedState Float) Float := Scripted.full .linear
    let script : Script Float :=
      { failure := fun | .solve => some ⟨"no licence", []⟩ | _ => none
        stopDuringSolve := true
        objective := 0 }
    ∃ s, create b.traced ({ script := script }, []) {} = .ok s ∧
      let ran := (run b.traced {}).run (s, .initial)
      ran.2.1.stage = .closed ∧ ∃ prints, (∀ d ∈ prints, d.IsPrint) ∧
        ran.2.1.deliveries = .outcome (failedOutcome "scripted 1.0" true "no licence") ::
          prints := by
  intro b script
  have facts : (create b.traced ({ script := script }, []) {}).toOption.map (fun s =>
      let v := follow b.traced (runEvents {}) (s, .initial)
      (s.stage, solveFailures ((run b.traced {}).run (s, .initial)).2.1.solver.2,
        b.longName v.1.solver.1, v.2.isStopped v.1.config.stopHandle)) =
      some (.created, ["no licence"], "scripted 1.0", true) := by decide +kernel
  obtain ⟨s, created, outcome⟩ := Option.map_eq_some_iff.1 facts
  rw [Prod.mk.injEq, Prod.mk.injEq, Prod.mk.injEq] at outcome
  obtain ⟨fresh, failures, name, stopped⟩ := outcome
  have created := eq_ok_of_toOption created
  have settled := run_settled created .initial [] {} fresh
  rw [show follow b.traced [] (s, .initial) = (s, .initial) from rfl] at settled
  obtain ⟨f, called, chain⟩ := mem_solveFailures.1 (failures ▸ List.mem_singleton_self _)
  obtain ⟨-, prints, only_prints, delivered⟩ := settled.unsolved f called
  rw [name, stopped, chain, deliveries_create created, List.nil_append] at delivered
  exact ⟨s, created, settled.closed, prints, only_prints, delivered⟩

end Session

end SolverBridge
