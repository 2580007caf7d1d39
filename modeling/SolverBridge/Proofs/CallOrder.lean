import SolverBridge.Backend.Scripted
import SolverBridge.Proofs.Phases

/-! The order of the calls that a backend sees from a session, whatever is asked of the session
and whatever the backend answers. The calls are laid out in segments, one after the other:
the modification, its end, the stop flag, one solve and what is asked about it. A call that
fails while the problem is handed over is followed by the release alone, and so is an element
that the backend does not take. -/

namespace SolverBridge

variable {σ α : Type}

/-- The calls after the modification. A solve needs a stop flag that was taken. -/
structure Finale (flags solving queries : List (Call α)) : Prop where
  flag_calls : ∀ c ∈ flags, c.role = .flag
  refused_flags : ∀ c ∈ flags.dropLast, c.failed = true
  solve_calls : solving.map Call.role = [] ∨ solving.map Call.role = [.solve]
  solve_ready : solving ≠ [] → ∃ c, flags.getLast? = some c ∧ c.failed = false
  query_calls : ∀ c ∈ queries, c.role = .query
  query_ready : queries ≠ [] → solving ≠ []

/-- The calls from the start of the modification to the release. -/
structure Segments (opening adds ending flags solving queries : List (Call α)) : Prop
    extends Finale flags solving queries where
  opening_calls : opening.map Call.role = [.begin]
  add_calls : ∀ c ∈ adds, c.role = .add
  ending_calls : ending.map Call.role = [] ∨ ending.map Call.role = [.finish] ∨
    ending.map Call.role = [.finish, .save]
  flag_ready : flags ≠ [] → ending ≠ []

/-- All calls of a session: none, a refused acquisition, or segments between an acquisition and
the release. -/
inductive LaidOut : List (Call α) → Prop
  | unused : LaidOut []
  | refused {c : Call α} (acquires : c.role = .acquire) (failed : c.failed = true) : LaidOut [c]
  | used {c : Call α} {opening adds ending flags solving queries : List (Call α)}
      (acquires : c.role = .acquire) (ok : c.failed = false)
      (segments : Segments opening adds ending flags solving queries) :
      LaidOut (c :: (opening ++ adds ++ ending ++ flags ++ solving ++ queries ++
        [⟨.release, ()⟩]))

/-- After a call that failed while the problem was handed over there is only the release. -/
def StopsAtFailure (calls : List (Call α)) : Prop :=
  ∀ before c after, calls = before ++ c :: after →
    c.role = .begin ∨ c.role = .add ∨ c.role = .finish ∨ c.role = .save → c.failed = true →
      after = [⟨.release, ()⟩]

/-! ### What the phases accept -/

theorem Call.eq_release {c : Call α} (h : c.role = .release) : c = ⟨.release, ()⟩ := by
  obtain ⟨r, a⟩ := c
  cases r with
  | release => rfl
  | _ => cases h

namespace Phase

variable {ph next : Phase} {role : Role} {failed : Bool} {calls : List (Call α)}

/-- A call either failed or not. -/
theorem eq_of_outcome {x y : Phase} (h : some (if failed then x else y) = some ph) :
    failed = true ∧ ph = x ∨ failed = false ∧ ph = y := by
  cases failed with
  | true => exact .inl ⟨rfl, (Option.some.inj h).symm⟩
  | false => exact .inr ⟨rfl, (Option.some.inj h).symm⟩

theorem next?_over : Phase.over.next? role failed = none := by
  cases role <;> rfl

theorem next?_refused (h : Phase.refused.next? role failed = some ph) :
    role = .release ∧ ph = .over := by
  cases role with
  | release => exact ⟨rfl, (Option.some.inj h).symm⟩
  | _ => cases h

theorem next?_solved (h : Phase.solved.next? role failed = some ph) :
    role = .query ∧ ph = .solved ∨ role = .release ∧ ph = .over := by
  cases role with
  | query => exact .inl ⟨rfl, (Option.some.inj h).symm⟩
  | release => exact .inr ⟨rfl, (Option.some.inj h).symm⟩
  | _ => cases h

theorem over_calls (h : Phase.over.after? calls = some .over) : calls = [] := by
  cases calls with
  | nil => rfl
  | cons c rest =>
    obtain ⟨mid, step, -⟩ := after?_cons h
    rw [next?_over] at step
    cases step

theorem refused_calls (h : Phase.refused.after? calls = some .over) :
    calls = [⟨.release, ()⟩] := by
  cases calls with
  | nil => cases h
  | cons c rest =>
    obtain ⟨mid, step, accepted⟩ := after?_cons h
    obtain ⟨role, rfl⟩ := next?_refused step
    rw [over_calls accepted, Call.eq_release role]

theorem solved_calls (h : Phase.solved.after? calls = some .over) :
    ∃ queries, (∀ c ∈ queries, c.role = .query) ∧ calls = queries ++ [⟨.release, ()⟩] := by
  induction calls with
  | nil => cases h
  | cons c rest ih =>
    obtain ⟨mid, step, accepted⟩ := after?_cons h
    rcases next?_solved step with ⟨role, rfl⟩ | ⟨role, rfl⟩
    · obtain ⟨queries, hqueries, rfl⟩ := ih accepted
      exact ⟨c :: queries, List.forall_mem_cons.2 ⟨role, hqueries⟩, rfl⟩
    · rw [over_calls accepted, Call.eq_release role]
      exact ⟨[], List.forall_mem_nil _, rfl⟩

theorem next?_flagged (h : Phase.flagged.next? role failed = some ph) :
    role = .solve ∧ ph = .solved := by
  cases role with
  | solve => exact ⟨rfl, (Option.some.inj h).symm⟩
  | _ => cases h

theorem flagged_calls (h : Phase.flagged.after? calls = some .over) :
    ∃ c queries, c.role = .solve ∧ (∀ c ∈ queries, c.role = .query) ∧
      calls = c :: queries ++ [⟨.release, ()⟩] := by
  cases calls with
  | nil => cases h
  | cons c rest =>
    obtain ⟨mid, step, accepted⟩ := after?_cons h
    obtain ⟨role, rfl⟩ := next?_flagged step
    obtain ⟨queries, hqueries, rfl⟩ := solved_calls accepted
    exact ⟨c, queries, role, hqueries, rfl⟩

/-- A stop flag that is taken is followed by the solve. -/
theorem finale_taken {c : Call α} (role : c.role = .flag) (ok : c.failed = false)
    (h : Phase.flagged.after? calls = some .over) :
    ∃ flags solving queries, Finale flags solving queries ∧
      c :: calls = flags ++ solving ++ queries ++ [⟨.release, ()⟩] := by
  obtain ⟨solve, queries, hsolve, hqueries, rfl⟩ := flagged_calls h
  exact ⟨[c], [solve], queries, {
    flag_calls := List.forall_mem_singleton.2 role
    refused_flags := List.forall_mem_nil _
    solve_calls := .inr (by rw [List.map_singleton, hsolve])
    solve_ready := fun _ => ⟨c, rfl, ok⟩
    query_calls := hqueries
    query_ready := fun _ => List.cons_ne_nil _ _ }, rfl⟩

theorem finale_nil : Finale ([] : List (Call α)) [] [] where
  flag_calls := List.forall_mem_nil _
  refused_flags := List.forall_mem_nil _
  solve_calls := .inl rfl
  solve_ready h := absurd rfl h
  query_calls := List.forall_mem_nil _
  query_ready h := absurd rfl h

theorem finale_refused {c : Call α} {flags solving queries : List (Call α)}
    (role : c.role = .flag) (failed : c.failed = true) (h : Finale flags solving queries) :
    Finale (c :: flags) solving queries where
  flag_calls := List.forall_mem_cons.2 ⟨role, h.flag_calls⟩
  refused_flags := by
    cases flags with
    | nil => exact List.forall_mem_nil _
    | cons d rest => exact List.forall_mem_cons.2 ⟨failed, h.refused_flags⟩
  solve_calls := h.solve_calls
  solve_ready hs := by
    obtain ⟨last, hlast, ok⟩ := h.solve_ready hs
    cases flags with
    | nil => cases hlast
    | cons d rest => exact ⟨last, hlast, ok⟩
  query_calls := h.query_calls
  query_ready := h.query_ready

theorem next?_settled (h : Phase.settled.next? role failed = some ph) :
    role = .flag ∧ (failed = true ∧ ph = .settled ∨ failed = false ∧ ph = .flagged) ∨
      role = .release ∧ ph = .over := by
  cases role with
  | flag => exact .inl ⟨rfl, eq_of_outcome h⟩
  | release => exact .inr ⟨rfl, (Option.some.inj h).symm⟩
  | _ => cases h

theorem settled_calls (h : Phase.settled.after? calls = some .over) :
    ∃ flags solving queries, Finale flags solving queries ∧
      calls = flags ++ solving ++ queries ++ [⟨.release, ()⟩] := by
  induction calls with
  | nil => cases h
  | cons c rest ih =>
    obtain ⟨mid, step, accepted⟩ := after?_cons h
    rcases next?_settled step with ⟨role, ⟨failed, rfl⟩ | ⟨ok, rfl⟩⟩ | ⟨role, rfl⟩
    · obtain ⟨flags, solving, queries, finale, rfl⟩ := ih accepted
      exact ⟨c :: flags, solving, queries, finale_refused role failed finale, rfl⟩
    · exact finale_taken role ok accepted
    · rw [over_calls accepted, Call.eq_release role]
      exact ⟨[], [], [], finale_nil, rfl⟩

/-- Without an export the phases go on as after one. -/
theorem next?_ended (h : role ≠ .save) :
    Phase.ended.next? role failed = Phase.settled.next? role failed := by
  cases role with
  | save => exact absurd rfl h
  | _ => rfl

theorem ended_calls (h : Phase.ended.after? calls = some .over) :
    ∃ exporting flags solving queries,
      (exporting.map Call.role = [] ∨ exporting.map Call.role = [.save]) ∧
      Finale flags solving queries ∧
      calls = exporting ++ flags ++ solving ++ queries ++ [⟨.release, ()⟩] := by
  cases calls with
  | nil => cases h
  | cons c rest =>
    by_cases role : c.role = .save
    · obtain ⟨mid, step, accepted⟩ := after?_cons h
      rw [role] at step
      have exporting : [c].map Call.role = [.save] := by rw [List.map_singleton, role]
      rcases eq_of_outcome step with ⟨-, rfl⟩ | ⟨-, rfl⟩
      · rw [refused_calls accepted]
        exact ⟨[c], [], [], [], .inr exporting, finale_nil, rfl⟩
      · obtain ⟨flags, solving, queries, finale, rfl⟩ := settled_calls accepted
        exact ⟨[c], flags, solving, queries, .inr exporting, finale, rfl⟩
    · have settled : Phase.settled.after? (c :: rest) = some .over := by
        rw [after?, ← next?_ended role]
        exact h
      obtain ⟨flags, solving, queries, finale, hcalls⟩ := settled_calls settled
      exact ⟨[], flags, solving, queries, .inl rfl, finale, hcalls⟩

theorem next?_adding (h : Phase.adding.next? role failed = some ph) :
    role = .add ∧ (failed = true ∧ ph = .refused ∨ failed = false ∧ ph = .adding) ∨
      role = .finish ∧ (failed = true ∧ ph = .refused ∨ failed = false ∧ ph = .ended) ∨
      role = .release ∧ ph = .over := by
  cases role with
  | add => exact .inl ⟨rfl, eq_of_outcome h⟩
  | finish => exact .inr (.inl ⟨rfl, eq_of_outcome h⟩)
  | release => exact .inr (.inr ⟨rfl, (Option.some.inj h).symm⟩)
  | _ => cases h

/-- Segments that end with the additions. -/
theorem segments_adds {opening adds : List (Call α)}
    (hopening : opening.map Call.role = [.begin]) (hadds : ∀ c ∈ adds, c.role = .add) :
    Segments opening adds [] [] [] [] :=
  { finale_nil with
    opening_calls := hopening
    add_calls := hadds
    ending_calls := .inl rfl
    flag_ready := absurd rfl }

theorem adding_calls {opening : List (Call α)} (hopening : opening.map Call.role = [.begin])
    (h : Phase.adding.after? calls = some .over) :
    ∃ adds ending flags solving queries, Segments opening adds ending flags solving queries ∧
      calls = adds ++ ending ++ flags ++ solving ++ queries ++ [⟨.release, ()⟩] := by
  induction calls with
  | nil => cases h
  | cons c rest ih =>
    obtain ⟨mid, step, accepted⟩ := after?_cons h
    rcases next?_adding step with ⟨role, ⟨-, rfl⟩ | ⟨-, rfl⟩⟩ | ⟨role, ⟨-, rfl⟩ | ⟨-, rfl⟩⟩ |
      ⟨role, rfl⟩
    · rw [refused_calls accepted]
      exact ⟨[c], [], [], [], [],
        segments_adds hopening (List.forall_mem_singleton.2 role), rfl⟩
    · obtain ⟨adds, ending, flags, solving, queries, segments, rfl⟩ := ih accepted
      exact ⟨c :: adds, ending, flags, solving, queries,
        { segments with add_calls := List.forall_mem_cons.2 ⟨role, segments.add_calls⟩ }, rfl⟩
    · rw [refused_calls accepted]
      exact ⟨[], [c], [], [], [], { segments_adds hopening (List.forall_mem_nil _) with
        ending_calls := .inr (.inl (by rw [List.map_singleton, role]))
        flag_ready := absurd rfl }, rfl⟩
    · obtain ⟨exporting, flags, solving, queries, hexporting, finale, rfl⟩ :=
        ended_calls accepted
      refine ⟨[], c :: exporting, flags, solving, queries, { finale with
        opening_calls := hopening
        add_calls := List.forall_mem_nil _
        ending_calls := .inr ?_
        flag_ready := fun _ => List.cons_ne_nil _ _ }, rfl⟩
      rw [List.map_cons, role]
      exact hexporting.imp (by rw [·]) (by rw [·])
    · rw [over_calls accepted, Call.eq_release role]
      exact ⟨[], [], [], [], [], segments_adds hopening (List.forall_mem_nil _), rfl⟩

theorem next?_acquired (h : Phase.acquired.next? role failed = some ph) :
    role = .begin ∧ (failed = true ∧ ph = .refused ∨ failed = false ∧ ph = .adding) := by
  cases role with
  | begin => exact ⟨rfl, eq_of_outcome h⟩
  | _ => cases h

theorem acquired_calls (h : Phase.acquired.after? calls = some .over) :
    ∃ opening adds ending flags solving queries,
      Segments opening adds ending flags solving queries ∧
      calls = opening ++ adds ++ ending ++ flags ++ solving ++ queries ++ [⟨.release, ()⟩] := by
  cases calls with
  | nil => cases h
  | cons c rest =>
    obtain ⟨mid, step, accepted⟩ := after?_cons h
    obtain ⟨role, outcome⟩ := next?_acquired step
    have opening : [c].map Call.role = [.begin] := by rw [List.map_singleton, role]
    rcases outcome with ⟨-, rfl⟩ | ⟨-, rfl⟩
    · rw [refused_calls accepted]
      exact ⟨[c], [], [], [], [], [], segments_adds opening (List.forall_mem_nil _), rfl⟩
    · obtain ⟨adds, ending, flags, solving, queries, segments, rfl⟩ :=
        adding_calls opening accepted
      exact ⟨[c], adds, ending, flags, solving, queries, segments, rfl⟩

theorem next?_start (h : Phase.start.next? role failed = some ph) :
    role = .acquire ∧ (failed = true ∧ ph = .over ∨ failed = false ∧ ph = .acquired) := by
  cases role with
  | acquire => exact ⟨rfl, eq_of_outcome h⟩
  | _ => cases h

theorem next?_ne_start {first : Phase} (h : first.next? role failed = some ph) : ph ≠ .start := by
  rintro rfl
  cases first <;> cases role <;> cases failed <;> cases h

theorem start_calls (h : ph.after? calls = some .start) : calls = [] := by
  induction calls generalizing ph with
  | nil => rfl
  | cons c rest ih =>
    obtain ⟨mid, step, accepted⟩ := after?_cons h
    rw [ih accepted] at accepted
    cases accepted
    exact absurd rfl (next?_ne_start step)

/-- The calls that end before an acquisition or after a release are laid out. -/
theorem laidOut (h : Phase.start.after? calls = some ph) (hph : ph = .start ∨ ph = .over) :
    LaidOut calls := by
  rcases hph with rfl | rfl
  · rw [start_calls h]
    exact .unused
  · cases calls with
    | nil => cases h
    | cons c rest =>
      obtain ⟨mid, step, accepted⟩ := after?_cons h
      rcases next?_start step with ⟨role, ⟨failed, rfl⟩ | ⟨ok, rfl⟩⟩
      · rw [over_calls accepted]
        exact .refused role failed
      · obtain ⟨opening, adds, ending, flags, solving, queries, segments, rfl⟩ :=
          acquired_calls accepted
        exact .used role ok segments

/-- A failure while the problem is handed over can only be followed by the release. -/
theorem next?_failed (h : ph.next? role true = some next)
    (hrole : role = .begin ∨ role = .add ∨ role = .finish ∨ role = .save) : next = .refused := by
  rcases hrole with rfl | rfl | rfl | rfl
  all_goals
    cases ph <;> cases h
    rfl

theorem stopsAtFailure (h : Phase.start.after? calls = some ph)
    (hph : ph = .start ∨ ph = .over) : StopsAtFailure calls := by
  rintro before c after rfl hrole failed
  rw [after?_append] at h
  obtain ⟨mid, -, h⟩ := Option.bind_eq_some_iff.1 h
  obtain ⟨next, step, accepted⟩ := after?_cons h
  rw [failed] at step
  rw [next?_failed step hrole] at accepted
  rcases hph with rfl | rfl
  · rw [start_calls accepted] at accepted
    cases accepted
  · exact refused_calls accepted

end Phase

/-! ### Whole sessions -/

/-- The session may go on: its calls are in order and its options make none. -/
structure Control.Sound (c : Control σ α) : Prop where
  inOrder : c.InOrder
  keeps : c.registry.KeepsCalls

theorem Control.Sound.moves {c c' : Control σ α} (h : c.Sound) (moves : c.Moves c') : c'.Sound :=
  ⟨h.inOrder.moves moves, by
    rw [moves.same.1]
    exact h.keeps⟩

variable {b : Backend σ α}

theorem sound_create {solver : σ} {config : SessionConfig}
    {s : Session (σ × List (Call α)) α}
    (h : Session.create b.traced (solver, []) config = .ok s) :
    s.control.Sound ∧ s.control.config = config := by
  obtain ⟨registry, registered, control⟩ := Session.control_create h
  rw [control]
  exact ⟨⟨⟨.start, rfl, rfl, rfl, rfl⟩, .registry registered⟩, rfl⟩

theorem Session.drop_control (w : Session (σ × List (Call α)) α × StopFlags) :
    w.1.control.Moves (Session.drop b.traced w).1.control ∧
      (Session.drop b.traced w).1.control.stage = .closed := by
  have := meets_settle (b := b) (E := fun _ _ => False) w rfl
  rw [Session.drop]
  split at this
  · rename_i e
    rw [e]
    exact this
  · exact this.elim

variable [Scalar α] [Numeral α]

/-- The session and the flags after some operations. One that fails does not keep the next from
being tried. -/
def Session.performAll (b : Backend σ α) (ops : List (Operation α)) (w : Session σ α × StopFlags) :
    Session σ α × StopFlags :=
  ops.foldl (fun w o => ((o.perform b).run w).2) w

theorem Operation.perform_control (o : Operation α)
    {w : Session (σ × List (Call α)) α × StopFlags} (h : w.1.control.Sound) :
    w.1.control.Moves ((o.perform b.traced).run w).2.1.control ∧
      ∀ e, ((o.perform b.traced).run w).1 = .error e →
        w.1.control.Stops (o.plan b.acceptance w.1.domains) e
          ((o.perform b.traced).run w).2.1.control := by
  have acquired (modifiable : w.1.control.Modifiable) : w.1.control.acquired = true :=
    (h.inOrder.modifiable modifiable).2.1
  have := o.tries (b := b) h.keeps acquired w rfl
  split at this
  · rename_i x w' e
    rw [e]
    exact ⟨this, fun _ he => by cases he⟩
  · rename_i e w' h
    rw [h]
    refine ⟨this.1, fun e' he => ?_⟩
    cases he
    exact this

theorem Session.performAll_moves (ops : List (Operation α))
    {w : Session (σ × List (Call α)) α × StopFlags} (h : w.1.control.Sound) :
    w.1.control.Moves (Session.performAll b.traced ops w).1.control := by
  induction ops generalizing w with
  | nil => exact .refl
  | cons o rest ih =>
    have first := (o.perform_control (b := b) h).1
    exact first.trans (ih (h.moves first))

/-- Whatever is asked of a session that is given up in the end, and whatever the backend answers,
the calls are laid out, and a failure or an unsupported element in the hand-over of the problem
is followed by the release alone. -/
theorem calls_in_order {solver : σ} {config : SessionConfig}
    {s : Session (σ × List (Call α)) α}
    (created : Session.create b.traced (solver, []) config = .ok s) (flags : StopFlags)
    (ops : List (Operation α)) :
    let calls := (Session.drop b.traced (Session.performAll b.traced ops (s, flags))).1.solver.2
    LaidOut calls ∧ StopsAtFailure calls ∧
      ∀ before o after, ops = before ++ o :: after →
        let w := Session.performAll b.traced before (s, flags)
        ∀ e element kind, ((o.perform b.traced).run w).1 = .error e →
          e.fault = .unsupported element kind →
          ∃ made, Follows config.permissive (o.plan b.acceptance w.1.domains) made
              (.rejected element kind) ∧
            calls = w.1.solver.2 ++ made ++ [⟨.release, ()⟩] := by
  intro calls
  obtain ⟨sound, hconfig⟩ := sound_create created
  have performed := Session.performAll_moves (b := b) (w := (s, flags)) ops sound
  obtain ⟨dropped, closed⟩ :=
    Session.drop_control (b := b) (Session.performAll b.traced ops (s, flags))
  obtain ⟨ph, hcalls, fits⟩ := (sound.moves (performed.trans dropped)).inOrder
  rw [Control.Fits, closed] at fits
  refine ⟨Phase.laidOut hcalls fits.2, Phase.stopsAtFailure hcalls fits.2, ?_⟩
  rintro before o after rfl w e element kind he hfault
  have reached := Session.performAll_moves (b := b) (w := (s, flags)) before sound
  have soundAt : w.1.control.Sound := sound.moves reached
  obtain ⟨moves, stops⟩ := o.perform_control (b := b) soundAt
  obtain ⟨made, followed, spent⟩ := (stops e he).2 element kind hfault
  rw [reached.same.2, hconfig] at followed
  refine ⟨made, followed, ?_⟩
  have rest : Session.performAll b.traced (before ++ o :: after) (s, flags) =
      Session.performAll b.traced after ((o.perform b.traced).run w).2 := List.foldl_append
  -- the session is closed in the end, so it is spent because it was released
  rw [rest] at dropped closed
  cases spent.moves ((Session.performAll_moves after (soundAt.moves moves)).trans dropped) with
  | aborted stage =>
    rw [closed] at stage
    cases stage
  | closed stage all =>
    show (Session.drop b.traced _).1.solver.2 = _
    rw [rest]
    exact all.symm

/-- A maximum is more than a backend takes that only takes linear objectives. -/
theorem calls_in_order_unsupported :
    let b : Backend (ScriptedState Float) Float := Scripted.bare .linear
    let o : Operation Float :=
      .addObjective 0 ⟨.maximize, ⟨⟨[], 0⟩, some (.max [.var ⟨0⟩])⟩⟩
    ∃ s, Session.create b.traced ({ script := { objective := 0 } }, []) {} = .ok s ∧
      let w := Session.performAll b.traced [.acquire] (s, .initial)
      let calls := (Session.drop b.traced (Session.performAll b.traced [.acquire, o, .solve]
        (s, .initial))).1.solver.2
      LaidOut calls ∧ ∃ made, Follows false (o.plan b.acceptance w.1.domains) made
          (.rejected (.objective 0) .general) ∧
        calls = w.1.solver.2 ++ made ++ [⟨.release, ()⟩] :=
  have ordered {s} (created : Session.create (Scripted.bare .linear).traced _ {} = .ok s) :=
    calls_in_order created .initial [.acquire, .addObjective 0 _, .solve]
  ⟨_, rfl, (ordered rfl).1, (ordered rfl).2.2 [.acquire] _ [.solve] rfl _ _ _ rfl rfl⟩

end SolverBridge
