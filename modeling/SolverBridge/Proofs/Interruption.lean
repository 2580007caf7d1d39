import SolverBridge.Backend.Cbc
import SolverBridge.Proofs.Reports

/-! Whose solve a stop interrupts. Two sessions share a stop flag, and a stop can fall between any
two operations or into a native call. A stop that falls into a solve is reported, as long as the
other session starts no solve before the report, because every solve lowers the flag that both
share. And what is reported as interrupted was stopped, or the native solver says it was. -/

namespace SolverBridge

variable {σ τ α : Type}

/-! ### Stops that fall into native calls -/

namespace StopFlags

theorem Holds.write {s : StopFlags} {h k : StopHandle} (hs : s.Holds h) (up : Bool) :
    (s.write k up).Holds h := by
  rw [Holds, StopFlags.write, List.length_set]
  exact hs

/-- A flag that is up is there. -/
theorem Holds.of_isStopped {s : StopFlags} {h : StopHandle} (up : s.isStopped h = true) :
    s.Holds h := by
  refine Nat.lt_of_not_le fun beyond => ?_
  rw [isStopped, List.getElem?_eq_none beyond] at up
  cases up

theorem isStopped_stop {s : StopFlags} {h : StopHandle} (hs : s.Holds h) :
    (s.stop h).isStopped h = true :=
  isStopped_write hs true

end StopFlags

namespace Backend

/-- The backend while somebody else stops it during some of its native calls. -/
def stoppedDuring (b : Backend σ α) (h : StopHandle) (during : σ → Request α → Bool) :
    Backend σ α :=
  { b with
    perform := fun r w =>
      let (answer, (s, flags)) := b.perform r w
      (answer, (s, if during w.1 r then flags.stop h else flags)) }

/-- Native calls do nothing to the flag but to raise it. -/
structure OnlyStops (b : Backend σ α) (h : StopHandle) : Prop where
  holds : ∀ (r : Request α) (w : σ × StopFlags), w.2.Holds h → (b.perform r w).2.2.Holds h
  stopped : ∀ (r : Request α) (w : σ × StopFlags), w.2.isStopped h = true →
    (b.perform r w).2.2.isStopped h = true

/-- Native calls do nothing to the flag. -/
def LeavesFlag (b : Backend σ α) (h : StopHandle) : Prop :=
  ∀ (r : Request α) (w : σ × StopFlags), (b.perform r w).2.2.isStopped h = w.2.isStopped h

variable {b : Backend σ α} {h : StopHandle} {during : σ → Request α → Bool}

theorem OnlyStops.stoppedDuring (stops : b.OnlyStops h) :
    (b.stoppedDuring h during).OnlyStops h where
  holds r w hw := by
    have left := stops.holds r w hw
    dsimp only [Backend.stoppedDuring]
    split
    · exact left.write true
    · exact left
  stopped r w hw := by
    have left := stops.stopped r w hw
    dsimp only [Backend.stoppedDuring]
    split
    · exact StopFlags.isStopped_stop (.of_isStopped left)
    · exact left

theorem LeavesFlag.stoppedDuring (leaves : b.LeavesFlag h) (never : ∀ s r, during s r = false) :
    (b.stoppedDuring h during).LeavesFlag h := by
  intro r w
  dsimp only [Backend.stoppedDuring]
  rw [never, if_neg Bool.false_ne_true]
  exact leaves r w

theorem stopped_stoppedDuring (stops : b.OnlyStops h) {r : Request α}
    (now : ∀ s, during s r = true) {w : σ × StopFlags} (holds : w.2.Holds h) :
    ((b.stoppedDuring h during).perform r w).2.2.isStopped h = true := by
  dsimp only [Backend.stoppedDuring]
  rw [now, if_pos rfl]
  exact StopFlags.isStopped_stop (stops.holds r w holds)

end Backend

/-- A linear solver whose solve leaves the flags alone always leaves them alone. -/
theorem LinearSolver.perform_flags [Scalar α] {l : LinearSolver σ α} {name : σ → String}
    (solve : ∀ w, (l.solve w).2.2 = w.2) (r : Request α) (w : σ × StopFlags) :
    (l.perform name r w).2.2 = w.2 := by
  obtain ⟨s, flags⟩ := w
  cases r with
  | solve => exact solve (s, flags)
  | exportModel path =>
    rw [LinearSolver.perform]
    split <;> rfl
  | postObjective o => cases o <;> rfl
  | postConstraint c => cases c <;> rfl
  | _ => rfl

section Backends

variable [Scalar α] [Numeral α] {h : StopHandle}

theorem Cbc.perform_flags (native : CbcState α → CbcResult α) (r : Request α)
    (w : CbcState α × StopFlags) : ((Cbc.backend native).perform r w).2.2 = w.2 :=
  LinearSolver.perform_flags (fun _ => rfl) r w

theorem Cbc.leavesFlag (native : CbcState α → CbcResult α) : (Cbc.backend native).LeavesFlag h :=
  fun r w => congrArg (StopFlags.isStopped · h) (perform_flags native r w)

theorem Cbc.onlyStops (native : CbcState α → CbcResult α) :
    (Cbc.backend native).OnlyStops h where
  holds r w hw := (perform_flags native r w).symm ▸ hw
  stopped r w hw := (perform_flags native r w).symm ▸ hw

end Backends

/-! ### What an operation does to the flag -/

/-- The session uses the flag, and its options make no call. -/
structure Session.Uses (h : StopHandle) (s : Session (σ × List (Call α)) α) : Prop where
  keeps : s.registry.KeepsCalls
  handle : s.config.stopHandle = h

/-- Two sessions agree in their calls and in what decides about the flag. -/
structure World.Matches (w w' : World (σ × List (Call α)) α) : Prop where
  calls : w'.1.solver.2 = w.1.solver.2
  registry : w'.1.registry = w.1.registry
  config : w'.1.config = w.1.config
  flags : w'.2 = w.2

theorem World.Agrees.matches {w w' : World (σ × List (Call α)) α} (h : w.Agrees w') :
    w.Matches w' :=
  ⟨congrArg Prod.snd h.solver, h.registry, h.config, h.flags⟩

/-- From the first session to the second a raised flag stays up unless a solve was begun, and
one that is down stays down unless the backend raises it. -/
structure FlagKept (b : Backend σ α) (h : StopHandle) (w w' : World (σ × List (Call α)) α) :
    Prop where
  uses : w'.1.Uses h
  holds : w'.2.Holds h
  up : ∃ made, w'.1.solver.2 = w.1.solver.2 ++ made ∧
    ((∀ c ∈ made, c.1.IsPlain) → w.2.isStopped h = true → w'.2.isStopped h = true)
  down : b.LeavesFlag h → w.2.isStopped h = false → w'.2.isStopped h = false

/-- From the first session to the second the flag was lowered for a solve. -/
structure FlagLowered (b : Backend σ α) (h : StopHandle) (w w' : World (σ × List (Call α)) α) :
    Prop where
  uses : w'.1.Uses h
  holds : w'.2.Holds h
  calls : ∃ made, w'.1.solver.2 = w.1.solver.2 ++ made
  down : b.LeavesFlag h → w'.2.isStopped h = false

section Sessions

variable {b : Backend σ α} {h : StopHandle} {w w' w'' : World (σ × List (Call α)) α}

namespace FlagKept

theorem refl (uses : w.1.Uses h) (holds : w.2.Holds h) : FlagKept b h w w where
  uses := uses
  holds := holds
  up := ⟨[], (List.append_nil _).symm, fun _ => id⟩
  down _ := id

theorem transfer (kept : FlagKept b h w w') (same : w'.Matches w'') : FlagKept b h w w'' where
  uses :=
    ⟨by rw [same.registry]; exact kept.uses.keeps, by rw [same.config]; exact kept.uses.handle⟩
  holds := by rw [same.flags]; exact kept.holds
  up := by rw [same.calls, same.flags]; exact kept.up
  down := by rw [same.flags]; exact kept.down

theorem lowered (kept : FlagKept b h w w') : FlagLowered b h w w'.lowered where
  uses := kept.uses
  holds := kept.holds.write false
  calls := kept.up.imp fun _ => And.left
  down _ := by
    rw [World.lowered, kept.uses.handle]
    exact StopFlags.isStopped_reset _ _

end FlagKept

namespace FlagLowered

theorem asked (lowered : FlagLowered b h w w') (stops : b.OnlyStops h) (r : Request α) :
    FlagLowered b h w (b.traced.asked r w') where
  uses := ⟨lowered.uses.keeps, lowered.uses.handle⟩
  holds := stops.holds r (w'.1.solver.1, w'.2) lowered.holds
  calls := by
    obtain ⟨made, calls⟩ := lowered.calls
    exact ⟨_, by rw [b.asked_traced_calls, calls, List.append_assoc]⟩
  down leaves := (leaves r (w'.1.solver.1, w'.2)).trans (lowered.down leaves)

/-- What is asked for a solve shows that it was begun. -/
theorem kept (lowered : FlagLowered b h w w') (stops : b.OnlyStops h) {r : Request α}
    (special : ¬r.IsPlain) : FlagKept b h w (b.traced.asked r w') where
  uses := (lowered.asked stops r).uses
  holds := (lowered.asked stops r).holds
  up := by
    obtain ⟨made, calls⟩ := lowered.calls
    refine ⟨made ++ [⟨r, b.traced.answer r w'⟩], ?_, fun plain => absurd ?_ special⟩
    · rw [b.asked_traced_calls, calls, List.append_assoc]
    · exact plain _ List.mem_concat_self
  down leaves _ := (lowered.asked stops r).down leaves

end FlagLowered

theorem endures_flagKept (stops : b.OnlyStops h) (w : World (σ × List (Call α)) α) :
    Endures b (FlagKept b h w) where
  alike same kept := kept.transfer ⟨same.calls, same.registry, same.config, rfl⟩
  asked {r w'} plain kept := by
    obtain ⟨made, calls, up⟩ := kept.up
    refine ⟨⟨kept.uses.keeps, kept.uses.handle⟩, stops.holds r (w'.1.solver.1, w'.2) kept.holds,
      ⟨made ++ [⟨r, b.traced.answer r w'⟩], ?_, fun plains before => ?_⟩, fun leaves before => ?_⟩
    · rw [b.asked_traced_calls, calls, List.append_assoc]
    · exact stops.stopped r (w'.1.solver.1, w'.2)
        (up (fun c hc => plains c (List.mem_append_left _ hc)) before)
    · exact (leaves r (w'.1.solver.1, w'.2)).trans (kept.down leaves before)
  keeps kept := kept.uses.keeps

/-- A solve is refused, or the backend is asked for it with the flag lowered before. -/
theorem Session.SolveOutcome.flag {x : Except SessionError Unit} (stops : b.OnlyStops h)
    (kept : FlagKept b h w w') (outcome : SolveOutcome b.traced w' x w'') :
    w'.Agrees w'' ∧ w''.1.stage = w'.1.stage ∨ ∃ (r : Request α) (mid : World _ α), ¬r.IsPlain ∧
      FlagLowered b h w mid ∧ (b.traced.asked r mid).Matches w'' ∧
      (r = .solve ∨ w''.1.stage = w'.1.stage) := by
  cases outcome with
  | refused same stage => exact .inl ⟨same, stage⟩
  | unflagged closed same stage =>
    exact .inr ⟨_, _, fun plain => plain.1 rfl, kept.lowered, same.matches, .inr stage⟩
  | @solved _ started _ closed ready same =>
    -- the flag is lowered before it is handed over, so both ways to get ready are alike
    refine .inr ⟨.solve, started, fun plain => plain.2 rfl, ?_, ?_, .inl rfl⟩
    · rcases ready with ⟨rfl, -⟩ | ⟨rfl, -⟩
      · exact kept.lowered
      · exact kept.lowered.asked stops _
    · exact ⟨congrArg Prod.snd same.solver, same.registry, same.config, same.flags⟩

theorem preserves_flagKept_solve (stops : b.OnlyStops h) (w : World (σ × List (Call α)) α) :
    Preserves (FlagKept b h w) (Session.solve b.traced) := by
  intro w' kept
  rcases (Session.solve_outcome b.traced w').flag stops kept with
    ⟨same, -⟩ | ⟨r, mid, special, lowered, same, -⟩
  · exact kept.transfer same.matches
  · exact (lowered.kept stops special).transfer same

/-- The flag right after a solve tells whether it was stopped. -/
theorem Session.SolveOutcome.stopped {x : Except SessionError Unit}
    {during : σ → Request α → Bool} (stops : b.OnlyStops h)
    (now : ∀ s, during s .solve = true) (uses : w.1.Uses h) (holds : w.2.Holds h)
    (outcome : SolveOutcome (b.stoppedDuring h during).traced w x w')
    (moved : w'.1.stage ≠ w.1.stage) : w'.2.isStopped h = true := by
  rcases outcome.flag stops.stoppedDuring (.refl uses holds) with
    ⟨-, stage⟩ | ⟨r, mid, -, lowered, same, rfl | stage⟩
  · exact absurd stage moved
  · rw [same.flags]
    exact Backend.stopped_stoppedDuring stops now (w := (mid.1.solver.1, mid.2)) lowered.holds
  · exact absurd stage moved

theorem Session.SolveOutcome.unstopped {x : Except SessionError Unit} (stops : b.OnlyStops h)
    (leaves : b.LeavesFlag h) (uses : w.1.Uses h) (holds : w.2.Holds h)
    (outcome : SolveOutcome b.traced w x w') (moved : w'.1.stage ≠ w.1.stage) :
    w'.2.isStopped h = false := by
  rcases outcome.flag stops (.refl uses holds) with
    ⟨-, stage⟩ | ⟨r, mid, -, lowered, same, -⟩
  · exact absurd stage moved
  · rw [same.flags]
    exact (lowered.asked stops r).down leaves

/-- Between a solve and its report a session only asks questions. -/
theorem Session.plain_of_solved {s s' : Session (σ × List (Call α)) α} (sound : s.control.Sound)
    (moves : s.control.Moves s'.control) (solved : s.stage = .solved) (still : s'.stage = .solved)
    {made : List (Call α)} (calls : s'.solver.2 = s.solver.2 ++ made) :
    ∀ c ∈ made, c.1.IsPlain := by
  obtain ⟨before, -⟩ := sound.inOrder.solved solved
  obtain ⟨after, -⟩ := (sound.moves moves).inOrder.solved still
  have accepted : Phase.start.after? (s.solver.2 ++ made) = some .solved := calls ▸ after
  rw [Phase.after?_append, show Phase.start.after? s.solver.2 = _ from before, Option.bind_some]
    at accepted
  intro c hc
  have query : c.1.role = .query := Phase.solved_queries accepted c hc
  exact ⟨by rw [query]; nofun, by rw [query]; nofun⟩

theorem Session.SolveOutcome.of_ok {b : Backend σ α} {w w' : World σ α}
    (outcome : SolveOutcome b w (.ok ()) w') :
    w.1.stage = .modificationClosed ∧ w'.1.stage = .solved := by
  cases outcome with
  | solved closed _ _ stage => exact ⟨closed, stage⟩

theorem Session.uses_create {solver : σ} {config : SessionConfig}
    {s : Session (σ × List (Call α)) α} (created : create b.traced (solver, []) config = .ok s) :
    s.Uses config.stopHandle :=
  ⟨(sound_create created).1.keeps, congrArg _ (sound_create created).2⟩

end Sessions

/-! ### The report -/

namespace Session

variable {t : StatusTable} {name : String} {failure : Option String} {r : SolveReport α}
  {asked : List (Call α)}

theorem Reported.interrupted (made : Reported t name true failure r asked) :
    r.status = .interrupted := by
  obtain ⟨judged, -, -, -⟩ := made
  cases judged with
  | interrupted => rfl
  | failed down => cases down
  | interpreted down => cases down

/-- While the flag is down only the native solver can say that it was interrupted. -/
theorem Reported.of_interrupted (made : Reported t name false failure r asked)
    (interrupted : r.status = .interrupted) :
    ∃ native e, FirstAnswer asked .nativeStatus (.ok native) ∧ t.IsFirst native e ∧
      e.status = .interrupted := by
  obtain ⟨judged, -, -, -⟩ := made
  cases judged with
  | interrupted up => cases up
  | failed => cases interrupted
  | @interpreted native feasible =>
    dsimp only at interrupted
    have known : (t.interpret native false feasible).status ≠ .unknown := by
      rw [interrupted]
      nofun
    obtain ⟨e, first, status⟩ := StatusTable.isFirst_of_status_interpret known
    exact ⟨native, e, .here, first, status.trans interrupted⟩

section Reports

variable [Scalar α] [Numeral α] {b : Backend σ α} {h : StopHandle}
  {w w' : World (σ × List (Call α)) α}

/-- A report is given while the flag is up, and it is interrupted. -/
theorem report_stopped (handle : w.1.config.stopHandle = h) (solved : w.1.stage = .solved)
    (up : w.2.isStopped h = true) :
    ∃ r w', (report b.traced).run w = (.ok r, w') ∧ r.status = .interrupted := by
  have ends := ends_report (b := b) (fun down => nomatch up.symm.trans down) handle solved
  rw [up] at ends
  obtain ⟨r, w', ran, asked, -, -, made, -⟩ :=
    (ends.mono (fun _ _ => id) fun _ _ down => nomatch down).exists_run
  exact ⟨r, w', ran, made.interrupted⟩

theorem report_unstopped (keeps : b.QuestionsKeep h) (handle : w.1.config.stopHandle = h)
    (down : w.2.isStopped h = false) (reported : (report b.traced).run w = (.ok r, w'))
    (interrupted : r.status = .interrupted) :
    ∃ asked native e, w'.1.solver.2 = w.1.solver.2 ++ asked ∧
      FirstAnswer asked .nativeStatus (.ok native) ∧ b.statuses.IsFirst native e ∧
      e.status = .interrupted := by
  obtain ⟨asked, _, _, made, left⟩ :=
    (ends_report (fun _ => keeps) handle (solved_of_report reported)).of_run reported
  rw [down] at made
  obtain ⟨native, e, answered, first, status⟩ := made.of_interrupted interrupted
  exact ⟨asked, native, e, left.calls, answered, first, status⟩

end Reports

end Session

/-! ### Two sessions -/

/-- Two sessions and the stop flags that they share. -/
structure Pair (σ τ α : Type) where
  first : Session (σ × List (Call α)) α
  second : Session (τ × List (Call α)) α
  flags : StopFlags

/-- What happens to two sessions: a stop, or an operation of one of them with the native calls
that a stop falls into. -/
inductive PairEvent (σ τ α : Type)
  | stop
  | first (o : Operation α) (during : σ → Request α → Bool)
  | second (o : Operation α) (during : τ → Request α → Bool)

/-- No stop falls into the event. -/
def PairEvent.IsQuiet : PairEvent σ τ α → Prop
  | .stop => False
  | .first _ during => ∀ s r, during s r = false
  | .second _ during => ∀ s r, during s r = false

section Pairs

variable [Scalar α] [Numeral α] (a : Backend σ α) (b : Backend τ α) (h : StopHandle)

/-- The sessions and the flags after an event. Both sessions have the flag `h`. -/
def PairEvent.apply (p : Pair σ τ α) : PairEvent σ τ α → Pair σ τ α
  | .stop => { p with flags := p.flags.stop h }
  | .first o during =>
    let w := ((o.perform (a.stoppedDuring h during).traced).run (p.first, p.flags)).2
    { p with first := w.1, flags := w.2 }
  | .second o during =>
    let w := ((o.perform (b.stoppedDuring h during).traced).run (p.second, p.flags)).2
    { p with second := w.1, flags := w.2 }

/-- The sessions and the flags after some events. -/
def Pair.follow (events : List (PairEvent σ τ α)) (p : Pair σ τ α) : Pair σ τ α :=
  events.foldl (fun p e => e.apply a b h p) p

/-- From the first pair to the second a raised flag stays up unless a session began a solve. -/
structure Pair.FlagKept (p p' : Pair σ τ α) : Prop where
  first : p'.first.Uses h
  second : p'.second.Uses h
  holds : p'.flags.Holds h
  up : ∃ made made', p'.first.solver.2 = p.first.solver.2 ++ made ∧
    p'.second.solver.2 = p.second.solver.2 ++ made' ∧
    ((∀ c ∈ made, c.1.IsPlain) → (∀ c ∈ made', c.1.IsPlain) → p.flags.isStopped h = true →
      p'.flags.isStopped h = true)

variable {a b h}

namespace Pair

variable {p p' : Pair σ τ α}

omit [Scalar α] [Numeral α] in
theorem FlagKept.refl (first : p.first.Uses h) (second : p.second.Uses h)
    (holds : p.flags.Holds h) : p.FlagKept h p where
  first := first
  second := second
  holds := holds
  up := ⟨[], [], (List.append_nil _).symm, (List.append_nil _).symm, fun _ _ => id⟩

/-- One operation of a session, whatever stops fall into it. -/
theorem flagKept_perform {b : Backend σ α} (stops : b.OnlyStops h) (o : Operation α)
    (during : σ → Request α → Bool) {w : World (σ × List (Call α)) α} (uses : w.1.Uses h)
    (holds : w.2.Holds h) :
    SolverBridge.FlagKept (b.stoppedDuring h during) h w
      ((o.perform (b.stoppedDuring h during).traced).run w).2 :=
  (endures_flagKept stops.stoppedDuring w).operation
    (preserves_flagKept_solve stops.stoppedDuring w) o w (.refl uses holds)

theorem FlagKept.apply (stops : a.OnlyStops h) (stops' : b.OnlyStops h)
    (kept : p.FlagKept h p') (e : PairEvent σ τ α) : p.FlagKept h (e.apply a b h p') := by
  obtain ⟨first, second, holds, made, made', calls, calls', up⟩ := kept
  cases e with
  | stop =>
    exact ⟨first, second, holds.write true, made, made', calls, calls',
      fun _ _ _ => StopFlags.isStopped_stop holds⟩
  | first o during =>
    have step := flagKept_perform stops o during (w := (p'.first, p'.flags)) first holds
    obtain ⟨more, calls'', up'⟩ := step.up
    refine ⟨step.uses, second, step.holds, made ++ more, made', ?_, calls',
      fun plain plain' hp => ?_⟩
    · exact calls''.trans (by rw [calls, List.append_assoc])
    · obtain ⟨before, after⟩ := List.forall_mem_append.1 plain
      exact up' after (up before plain' hp)
  | second o during =>
    have step := flagKept_perform stops' o during (w := (p'.second, p'.flags)) second holds
    obtain ⟨more, calls'', up'⟩ := step.up
    refine ⟨first, step.uses, step.holds, made, made' ++ more, calls, ?_, fun plain plain' hp => ?_⟩
    · exact calls''.trans (by rw [calls', List.append_assoc])
    · obtain ⟨before, after⟩ := List.forall_mem_append.1 plain'
      exact up' after (up plain before hp)

theorem FlagKept.follow (stops : a.OnlyStops h) (stops' : b.OnlyStops h)
    (events : List (PairEvent σ τ α)) (kept : p.FlagKept h p') :
    p.FlagKept h (follow a b h events p') :=
  List.foldlRecOn events _ kept fun _ kept e _ => kept.apply stops stops' e

/-- A quiet event does not raise the flag. -/
theorem unstopped_apply (stops : a.OnlyStops h) (stops' : b.OnlyStops h) (leaves : a.LeavesFlag h)
    (leaves' : b.LeavesFlag h) (kept : p.FlagKept h p) {e : PairEvent σ τ α} (quiet : e.IsQuiet)
    (down : p.flags.isStopped h = false) : (e.apply a b h p).flags.isStopped h = false := by
  cases e with
  | stop => exact quiet.elim
  | first o during =>
    exact (flagKept_perform stops o during kept.first kept.holds).down
      (leaves.stoppedDuring quiet) down
  | second o during =>
    exact (flagKept_perform stops' o during kept.second kept.holds).down
      (leaves'.stoppedDuring quiet) down

theorem unstopped_follow (stops : a.OnlyStops h) (stops' : b.OnlyStops h) (leaves : a.LeavesFlag h)
    (leaves' : b.LeavesFlag h) {events : List (PairEvent σ τ α)} (quiet : ∀ e ∈ events, e.IsQuiet)
    (kept : p.FlagKept h p) (down : p.flags.isStopped h = false) :
    (follow a b h events p).flags.isStopped h = false := by
  induction events generalizing p with
  | nil => exact down
  | cons e rest ih =>
    obtain ⟨quiet, quiets⟩ := List.forall_mem_cons.1 quiet
    have next := kept.apply stops stops' e
    exact ih quiets (.refl next.first next.second next.holds)
      (unstopped_apply stops stops' leaves leaves' kept quiet down)

theorem follow_moves (events : List (PairEvent σ τ α)) (sound : p.first.control.Sound) :
    p.first.control.Moves (follow a b h events p).first.control := by
  induction events generalizing p with
  | nil => exact .refl
  | cons e rest ih =>
    cases e with
    | first o during =>
      have moves := (o.perform_control (b := a.stoppedDuring h during) (w := (p.first, p.flags))
        sound).1
      exact moves.trans (ih (p := PairEvent.apply a b h p (.first o during)) (sound.moves moves))
    | stop => exact ih (p := PairEvent.apply a b h p .stop) sound
    | second o during => exact ih (p := PairEvent.apply a b h p (.second o during)) sound

/-- From the solve of the first session to its report a raised flag stays up, unless the second
session begins a solve. -/
theorem stopped_follow (stops : a.OnlyStops h) (stops' : b.OnlyStops h)
    (events : List (PairEvent σ τ α)) (kept : p.FlagKept h p) (sound : p.first.control.Sound)
    (solved : p.first.stage = .solved) (still : (follow a b h events p).first.stage = .solved)
    (others : ∀ c ∈ (follow a b h events p).second.solver.2.drop p.second.solver.2.length,
      c.1.IsPlain)
    (up : p.flags.isStopped h = true) : (follow a b h events p).flags.isStopped h = true := by
  obtain ⟨made, made', calls, calls', upheld⟩ := (kept.follow stops stops' events).up
  rw [calls', List.drop_left] at others
  -- the stage of the first session keeps it from beginning a solve
  exact upheld (Session.plain_of_solved sound (follow_moves events sound) solved still calls) others
    up

/-- An operation of the first session. -/
theorem apply_first {β : Type} {during : σ → Request α → Bool} {o : Operation α}
    {action : SessionAction (σ × List (Call α)) α β} {x : β} {f : β → Reply α}
    {w : World (σ × List (Call α)) α}
    (step : o.perform (a.stoppedDuring h during).traced = do return f (← action))
    (ran : action.run (p.first, p.flags) = (.ok x, w)) :
    PairEvent.apply a b h p (.first o during) = ⟨w.1, p.second, w.2⟩ := by
  have same := Session.snd_run_andReturn action f (p.first, p.flags)
  rw [← step, ran] at same
  rw [PairEvent.apply, same]

/-- The report of a whole run follows a solve. -/
theorem report_of_ran {during : σ → Request α → Bool} {m : Problem α} {r : SolveReport α}
    (ran : Session.Ran (a.stoppedDuring h during).traced m (p.first, p.flags) r) :
    let ready := follow a b h
      [.first .acquire during, .first (.load m) during, .first .finish during] p
    let solved := PairEvent.apply a b h ready (.first .solve during)
    ready.first.stage = .modificationClosed ∧ solved.first.stage = .solved ∧
      ∃ w', (Session.report (a.stoppedDuring h during).traced).run
        (solved.first, solved.flags) = (.ok r, w') := by
  obtain ⟨w₁, w₂, w₃, w₄, w₅, acquired, loaded, finished, done, reported⟩ := ran
  intro ready solved
  have hready : ready = ⟨w₃.1, p.second, w₃.2⟩ := by
    have first := apply_first (b := b) (p := p) (o := .acquire) rfl acquired
    have second := apply_first (b := b) (p := ⟨w₁.1, p.second, w₁.2⟩) (o := .load m) rfl loaded
    have third := apply_first (b := b) (p := ⟨w₂.1, p.second, w₂.2⟩) (o := .finish) rfl finished
    change follow a b h [_, _, _] p = _
    rw [follow, List.foldl_cons, first, List.foldl_cons, second, List.foldl_cons, third,
      List.foldl_nil]
  have hsolved : solved = ⟨w₄.1, p.second, w₄.2⟩ := by
    rw [← apply_first (b := b) (p := ⟨w₃.1, p.second, w₃.2⟩) (o := .solve) rfl done, ← hready]
  have outcome := Session.solve_outcome (a.stoppedDuring h during).traced w₃
  rw [done] at outcome
  rw [hready, hsolved]
  exact ⟨outcome.of_ok.1, outcome.of_ok.2, w₅, reported⟩

end Pair

/-- An interruption belongs to the solve that it hit, unless the other session lowers the flag.
Two sessions share a stop flag. A stop that falls into a solve of the first is in its report, as
long as no operation of the second begins a solve in between; and without a stop from the solve
to the report only the native solver can say that it was interrupted. The report of a whole run
is such a report. -/
theorem interruption_of_solve {solver : σ} {solver' : τ} {config config' : SessionConfig}
    {s : Session (σ × List (Call α)) α} {s' : Session (τ × List (Call α)) α} {flags : StopFlags}
    (created : Session.create a.traced (solver, []) config = .ok s)
    (created' : Session.create b.traced (solver', []) config' = .ok s')
    (first : config.stopHandle = h) (second : config'.stopHandle = h) (holds : flags.Holds h)
    (stops : a.OnlyStops h) (stops' : b.OnlyStops h) (before between : List (PairEvent σ τ α))
    (during during' : σ → Request α → Bool) :
    let start := Pair.follow a b h before ⟨s, s', flags⟩
    let solved := PairEvent.apply a b h start (.first .solve during)
    let last := Pair.follow a b h between solved
    let report := (Session.report (a.stoppedDuring h during').traced).run (last.first, last.flags)
    (start.first.stage = .modificationClosed → solved.first.stage = .solved →
      last.first.stage = .solved →
      ((∀ s, during s .solve = true) →
        (∀ c ∈ last.second.solver.2.drop solved.second.solver.2.length, c.1.IsPlain) →
        ∃ r w, report = (.ok r, w) ∧ r.status = .interrupted) ∧
      (a.LeavesFlag h → b.LeavesFlag h → (∀ s r, during s r = false) →
        (∀ e ∈ between, e.IsQuiet) → (∀ s r, during' s r = false) →
        ∀ r w, report = (.ok r, w) → r.status = .interrupted → ∃ asked native e,
          w.1.solver.2 = last.first.solver.2 ++ asked ∧
          FirstAnswer asked .nativeStatus (.ok native) ∧ a.statuses.IsFirst native e ∧
          e.status = .interrupted)) ∧
    ∀ m r w, (Session.run (a.stoppedDuring h during).traced m).run (start.first, start.flags) =
        (.ok r, w) →
      let ready := Pair.follow a b h
        [.first .acquire during, .first (.load m) during, .first .finish during] start
      let solved := PairEvent.apply a b h ready (.first .solve during)
      ready.first.stage = .modificationClosed ∧ solved.first.stage = .solved ∧
        ∃ w', (Session.report (a.stoppedDuring h during).traced).run
          (solved.first, solved.flags) = (.ok r, w') := by
  intro start solved last report
  have fresh : Pair.FlagKept h ⟨s, s', flags⟩ (⟨s, s', flags⟩ : Pair σ τ α) :=
    .refl (first ▸ Session.uses_create created) (second ▸ Session.uses_create created') holds
  have atStart := fresh.follow stops stops' before
  refine ⟨fun closed done still => ?_, fun m r w ran => ?_⟩
  · have same : (solved.first, solved.flags) =
        ((Session.solve (a.stoppedDuring h during).traced).run (start.first, start.flags)).2 :=
      Session.snd_run_andReturn _ _ _
    have solve := Session.solve_outcome (a.stoppedDuring h during).traced (start.first, start.flags)
    rw [← same] at solve
    -- the stage tells that the solve was not refused
    have moved : solved.first.stage ≠ start.first.stage := by rw [done, closed]; nofun
    have atSolved := atStart.apply stops stops' (.first .solve during)
    have fromSolved : solved.FlagKept h solved :=
      .refl atSolved.first atSolved.second atSolved.holds
    have since := fromSolved.follow stops stops' between
    constructor
    · intro now others
      have sound : start.first.control.Sound :=
        (sound_create created).1.moves
          (Pair.follow_moves (p := ⟨s, s', flags⟩) before (sound_create created).1)
      have sound : solved.first.control.Sound :=
        sound.moves (Pair.follow_moves (b := b) [.first .solve during] sound)
      have up := solve.stopped stops now atStart.first atStart.holds moved
      have up := Pair.stopped_follow stops stops' between fromSolved sound done still others up
      exact Session.report_stopped since.first.handle still up
    · intro leaves leaves' quiet quiets quiet' r w reported interrupted
      have down := solve.unstopped stops.stoppedDuring (leaves.stoppedDuring quiet) atStart.first
        atStart.holds moved
      have down := Pair.unstopped_follow stops stops' leaves leaves' quiets fromSolved down
      exact Session.report_unstopped (fun r w _ => leaves.stoppedDuring quiet' r w)
        since.first.handle down reported interrupted
  · exact Pair.report_of_ran (Session.ran_of_run ran)

/-- The other session can be filled and finished in between. -/
theorem interruption_of_solve_filling :
    let b : Backend (CbcState Float) Float := Cbc.backend fun _ => ⟨0, [], 0, true⟩
    let h := StopFlags.shared
    let hit : CbcState Float → Request Float → Bool := fun _ r => r.role = .solve
    let quiet : CbcState Float → Request Float → Bool := fun _ _ => false
    let between : List (PairEvent (CbcState Float) (CbcState Float) Float) :=
      [.second .acquire quiet, .second (.addVariable ⟨true, 0, 1⟩) quiet, .second .finish quiet]
    ∃ s, Session.create b.traced ({}, []) {} = .ok s ∧
      let start := Pair.follow b b h [.first .acquire quiet, .first .finish quiet] ⟨s, s, .initial⟩
      let hitLast := Pair.follow b b h between (PairEvent.apply b b h start (.first .solve hit))
      let last := Pair.follow b b h between (PairEvent.apply b b h start (.first .solve quiet))
      (∃ r w, (Session.report (b.stoppedDuring h quiet).traced).run
          (hitLast.first, hitLast.flags) = (.ok r, w) ∧ r.status = .interrupted) ∧
        ∀ r w, (Session.report (b.stoppedDuring h quiet).traced).run (last.first, last.flags) =
            (.ok r, w) → r.status = .interrupted →
          ∃ asked native e, w.1.solver.2 = last.first.solver.2 ++ asked ∧
            FirstAnswer asked .nativeStatus (.ok native) ∧ b.statuses.IsFirst native e ∧
            e.status = .interrupted := by
  intro b h hit quiet between
  let start (s : Session (CbcState Float × List (Call Float)) Float) :=
    Pair.follow b b h [.first .acquire quiet, .first .finish quiet] ⟨s, s, .initial⟩
  -- the stages and what is asked of the other session
  let outline (p : Pair (CbcState Float) (CbcState Float) Float)
      (during : CbcState Float → Request Float → Bool) :=
    let solved := PairEvent.apply b b h p (.first .solve during)
    let last := Pair.follow b b h between solved
    (p.first.stage, solved.first.stage, last.first.stage,
      decide (∀ c ∈ last.second.solver.2.drop solved.second.solver.2.length,
        c.1.role ≠ .flag ∧ c.1.role ≠ .solve))
  have facts : (Session.create b.traced ({}, []) {}).toOption.map
      (fun s => (outline (start s) hit, outline (start s) quiet)) =
      some ((.modificationClosed, .solved, .solved, true),
        (.modificationClosed, .solved, .solved, true)) := by decide +kernel
  obtain ⟨s, created, outlined⟩ := Option.map_eq_some_iff.1 facts
  have created := eq_ok_of_toOption created
  simp only [outline, start, Prod.mk.injEq, decide_eq_true_eq] at outlined
  obtain ⟨⟨ready, done, still, plain⟩, -, done', still', -⟩ := outlined
  have stops : b.OnlyStops h := Cbc.onlyStops _
  have leaves : b.LeavesFlag h := Cbc.leavesFlag _
  have shared : ({} : SessionConfig).stopHandle = h := rfl
  have holds : StopFlags.initial.Holds h := Nat.zero_lt_one
  have hits := interruption_of_solve created created shared shared holds stops stops
    [.first .acquire quiet, .first .finish quiet] between hit quiet
  have quiets := interruption_of_solve created created shared shared holds stops stops
    [.first .acquire quiet, .first .finish quiet] between quiet quiet
  have silent : ∀ e ∈ between, e.IsQuiet := by simp [between, quiet, PairEvent.IsQuiet]
  refine ⟨s, created, (hits.1 ready done still).1 (fun _ => rfl) plain, ?_⟩
  exact (quiets.1 ready done' still').2 leaves leaves (fun _ _ => rfl) silent fun _ _ => rfl

/-- A solve of the other session loses the interruption. -/
theorem interruption_lost :
    let b : Backend (CbcState Float) Float := Cbc.backend fun _ => ⟨0, [], 0, true⟩
    let h := StopFlags.shared
    let hit : CbcState Float → Request Float → Bool := fun _ r => r.role = .solve
    let quiet : CbcState Float → Request Float → Bool := fun _ _ => false
    ∃ s r w, Session.create b.traced ({}, []) {} = .ok s ∧
      let start := Pair.follow b b h [.first .acquire quiet, .first .finish quiet] ⟨s, s, .initial⟩
      let solved := PairEvent.apply b b h start (.first .solve hit)
      let last := Pair.follow b b h
        [.second .acquire quiet, .second .finish quiet, .second .solve quiet] solved
      (start.first.stage, solved.first.stage, solved.flags.isStopped h) =
        (.modificationClosed, .solved, true) ∧
      (Session.report (b.stoppedDuring h quiet).traced).run (last.first, last.flags) = (.ok r, w) ∧
      r.status = .optimal := by
  intro b h hit quiet
  let start (s : Session (CbcState Float × List (Call Float)) Float) :=
    Pair.follow b b h [.first .acquire quiet, .first .finish quiet] ⟨s, s, .initial⟩
  let solved (s : Session (CbcState Float × List (Call Float)) Float) :=
    PairEvent.apply b b h (start s) (.first .solve hit)
  let last (s : Session (CbcState Float × List (Call Float)) Float) := Pair.follow b b h
    [.second .acquire quiet, .second .finish quiet, .second .solve quiet] (solved s)
  have facts : (Session.create b.traced ({}, []) {}).toOption.map (fun s =>
      (((start s).first.stage, (solved s).first.stage, (solved s).flags.isStopped h),
        ((Session.report (b.stoppedDuring h quiet).traced).run
          ((last s).first, (last s).flags)).1.toOption.map (·.status))) =
      some ((.modificationClosed, .solved, true), some .optimal) := by decide +kernel
  obtain ⟨s, created, outlined⟩ := Option.map_eq_some_iff.1 facts
  obtain ⟨stages, outcome⟩ := Prod.mk.inj outlined
  obtain ⟨r, reported, status⟩ := Option.map_eq_some_iff.1 outcome
  obtain ⟨w, reported⟩ := exists_run_of_toOption reported
  dsimp only [start, solved, last] at stages reported
  exact ⟨s, r, w, eq_ok_of_toOption created, stages, reported, status⟩

end Pairs

end SolverBridge
