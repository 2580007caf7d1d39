import SolverBridge.Proofs.Moves

/-! The phases of the calls that a backend sees from a session. An automaton follows the calls
one by one. The marks of a session say in which phase its calls are, and every move keeps this
true, whatever the backend answers. -/

namespace SolverBridge

variable {σ α : Type}

/-- How far the calls have come. -/
inductive Phase
  | start
  | acquired
  | adding
  | ended
  /-- No export can follow. -/
  | settled
  | flagged
  | solved
  | refused
  | over
  deriving DecidableEq

namespace Phase

/-- The phase after a call, which may have failed. -/
def next? : Phase → Role → Bool → Option Phase
  | .start, .acquire, failed => some (if failed then .over else .acquired)
  | .acquired, .begin, failed => some (if failed then .refused else .adding)
  | .adding, .add, failed => some (if failed then .refused else .adding)
  | .adding, .finish, failed => some (if failed then .refused else .ended)
  | .ended, .save, failed => some (if failed then .refused else .settled)
  | .ended, .flag, failed | .settled, .flag, failed =>
    some (if failed then .settled else .flagged)
  | .flagged, .solve, _ => some .solved
  | .solved, .query, _ => some .solved
  | .adding, .release, _ | .ended, .release, _ | .settled, .release, _ | .solved, .release, _
  | .refused, .release, _ => some .over
  | _, _, _ => none

/-- The phase after some calls. -/
def after? : Phase → List (Call α) → Option Phase
  | ph, [] => some ph
  | ph, c :: rest => (ph.next? c.role c.failed).bind fun ph => ph.after? rest

theorem after?_append (ph : Phase) (calls more : List (Call α)) :
    ph.after? (calls ++ more) = (ph.after? calls).bind fun ph => ph.after? more := by
  induction calls generalizing ph with
  | nil => rfl
  | cons c rest ih =>
    rw [List.cons_append, after?, after?, Option.bind_assoc]
    exact congrArg _ (funext ih)

/-- One more call. -/
theorem after?_call {first ph q : Phase} {calls : List (Call α)} {c : Call α}
    (h : first.after? calls = some ph) (step : ph.next? c.role c.failed = some q) :
    first.after? (calls ++ [c]) = some q := by
  rw [after?_append, h, Option.bind_some, after?, step]
  rfl

theorem after?_cons {ph end_ : Phase} {c : Call α} {rest : List (Call α)}
    (h : ph.after? (c :: rest) = some end_) :
    ∃ mid, ph.next? c.role c.failed = some mid ∧ mid.after? rest = some end_ :=
  Option.bind_eq_some_iff.1 h

end Phase

/-! ### The control fits the phase -/

namespace Control

/-- What the marks of a session say of the calls so far. -/
def Fits (c : Control σ α) (ph : Phase) : Prop :=
  match c.stage with
  | .created => c.acquired = false ∧ c.flagTaken = false ∧ ph = .start
  | .modificationOpen => c.acquired = true ∧ c.flagTaken = false ∧
      (ph = .adding ∨ c.aborted = true ∧ ph = .refused)
  | .modificationClosed => c.acquired = true ∧ c.flagTaken = false ∧
      (ph = .ended ∨ ph = .settled)
  | .solved | .reported => c.acquired = true ∧ ph = .solved
  | .closed => c.acquired = false ∧ (ph = .start ∨ ph = .over)

/-- The calls so far are in order, and the control fits them. -/
def InOrder (c : Control σ α) : Prop := ∃ ph, Phase.start.after? c.calls = some ph ∧ c.Fits ph

variable {c c' : Control σ α}

theorem InOrder.created (h : c.InOrder) (stage : c.stage = .created) :
    Phase.start.after? c.calls = some .start ∧ c.acquired = false ∧ c.flagTaken = false := by
  obtain ⟨ph, calls, fits⟩ := h
  rw [Fits, stage] at fits
  obtain ⟨acquired, flag, rfl⟩ := fits
  exact ⟨calls, acquired, flag⟩

theorem InOrder.modifiable (h : c.InOrder) (modifiable : c.Modifiable) :
    Phase.start.after? c.calls = some .adding ∧ c.acquired = true ∧ c.flagTaken = false := by
  obtain ⟨ph, calls, fits⟩ := h
  rw [Fits, modifiable.1] at fits
  obtain ⟨acquired, flag, rfl | ⟨aborted, -⟩⟩ := fits
  · exact ⟨calls, acquired, flag⟩
  · rw [modifiable.2] at aborted
    cases aborted

theorem InOrder.modificationClosed (h : c.InOrder) (stage : c.stage = .modificationClosed) :
    ∃ ph, Phase.start.after? c.calls = some ph ∧ (ph = .ended ∨ ph = .settled) ∧
      c.acquired = true ∧ c.flagTaken = false := by
  obtain ⟨ph, calls, fits⟩ := h
  rw [Fits, stage] at fits
  exact ⟨ph, calls, fits.2.2, fits.1, fits.2.1⟩

theorem InOrder.solved (h : c.InOrder) (stage : c.stage = .solved) :
    Phase.start.after? c.calls = some .solved ∧ c.acquired = true := by
  obtain ⟨ph, calls, fits⟩ := h
  rw [Fits, stage] at fits
  obtain ⟨acquired, rfl⟩ := fits
  exact ⟨calls, acquired⟩

theorem Fits.adding (stage : c.stage = .modificationOpen) (acquired : c.acquired = true)
    (flag : c.flagTaken = false) : c.Fits .adding := by
  rw [Fits, stage]
  exact ⟨acquired, flag, .inl rfl⟩

theorem Fits.aborted {ph : Phase} (stage : c.stage = .modificationOpen)
    (acquired : c.acquired = true) (flag : c.flagTaken = false)
    (hph : ph = .adding ∨ ph = .refused) : c.abandoned.Fits ph := by
  rw [Fits, show c.abandoned.stage = _ from stage]
  exact ⟨acquired, flag, hph.imp_right fun h => ⟨rfl, h⟩⟩

/-- A backend that is held can be released; without one nothing was asked. -/
theorem Fits.release {ph : Phase} (fits : c.Fits ph) (running : c.stage ≠ .closed) :
    c.acquired = false ∧ ph = .start ∨
      c.acquired = true ∧ ∀ failed, ph.next? .release failed = some .over := by
  rw [Fits] at fits
  cases stage : c.stage with
  | created =>
    rw [stage] at fits
    exact .inl ⟨fits.1, fits.2.2⟩
  | modificationOpen =>
    rw [stage] at fits
    obtain ⟨acquired, -, rfl | ⟨-, rfl⟩⟩ := fits
    all_goals exact .inr ⟨acquired, fun _ => rfl⟩
  | modificationClosed =>
    rw [stage] at fits
    obtain ⟨acquired, -, rfl | rfl⟩ := fits
    all_goals exact .inr ⟨acquired, fun _ => rfl⟩
  | solved | reported =>
    rw [stage] at fits
    obtain ⟨acquired, rfl⟩ := fits
    exact .inr ⟨acquired, fun _ => rfl⟩
  | closed => exact absurd stage running

theorem InOrder.released (h : c.InOrder) (running : c.stage ≠ .closed) : c.released.InOrder := by
  obtain ⟨ph, calls, fits⟩ := h
  rcases fits.release running with ⟨acquired, rfl⟩ | ⟨acquired, release⟩
  · refine ⟨.start, ?_, rfl, .inl rfl⟩
    rw [Control.released, if_neg (Bool.eq_false_iff.1 acquired)]
    exact calls
  · refine ⟨.over, ?_, rfl, .inr rfl⟩
    rw [Control.released, if_pos acquired]
    exact Phase.after?_call calls (release _)

theorem InOrder.move (h : c.InOrder) (move : Move c c') : c'.InOrder := by
  cases move with
  | domains ds => exact h
  | acquireFailed fresh failed =>
    obtain ⟨calls, acquired, -⟩ := h.created fresh
    exact ⟨.over, Phase.after?_call calls (by rw [failed]; rfl), acquired, .inr rfl⟩
  | beginFailed fresh ok failed =>
    obtain ⟨calls, -, -⟩ := h.created fresh
    have began := Phase.after?_call calls (q := .acquired) (by rw [ok]; rfl)
    have refused := Phase.after?_call began (q := .refused) (by rw [failed]; rfl)
    exact ⟨.over, Phase.after?_call refused rfl, rfl, .inr rfl⟩
  | opened fresh ok ok' =>
    obtain ⟨calls, -, flag⟩ := h.created fresh
    have began := Phase.after?_call calls (q := .acquired) (by rw [ok]; rfl)
    exact ⟨.adding, Phase.after?_call began (by rw [ok']; rfl), rfl, flag, .inl rfl⟩
  | added modifiable adds ok =>
    obtain ⟨calls, acquired, flag⟩ := h.modifiable modifiable
    exact ⟨.adding, Phase.after?_call calls (by rw [Call.role, adds, ok]; rfl),
      .adding modifiable.1 acquired flag⟩
  | addFailed modifiable adds failed =>
    obtain ⟨calls, acquired, flag⟩ := h.modifiable modifiable
    exact ⟨.refused, Phase.after?_call calls (by rw [Call.role, adds, failed]; rfl),
      .aborted (c := c.calling _ _) modifiable.1 acquired flag (.inr rfl)⟩
  | rejected modifiable =>
    obtain ⟨calls, acquired, flag⟩ := h.modifiable modifiable
    exact ⟨.adding, calls, .aborted modifiable.1 acquired flag (.inl rfl)⟩
  | finishFailed modifiable failed =>
    obtain ⟨calls, acquired, flag⟩ := h.modifiable modifiable
    exact ⟨.refused, Phase.after?_call calls (by rw [failed]; rfl),
      .aborted (c := c.calling _ _) modifiable.1 acquired flag (.inr rfl)⟩
  | finished modifiable ok =>
    obtain ⟨calls, acquired, flag⟩ := h.modifiable modifiable
    exact ⟨.ended, Phase.after?_call calls (by rw [ok]; rfl), acquired, flag, .inl rfl⟩
  | exportFailed modifiable ok failed =>
    obtain ⟨calls, acquired, flag⟩ := h.modifiable modifiable
    have ended := Phase.after?_call calls (q := .ended) (by rw [ok]; rfl)
    exact ⟨.refused, Phase.after?_call ended (by rw [failed]; rfl),
      .aborted (c := (c.calling _ _).calling _ _) modifiable.1 acquired flag (.inr rfl)⟩
  | exported modifiable ok ok' =>
    obtain ⟨calls, acquired, flag⟩ := h.modifiable modifiable
    have ended := Phase.after?_call calls (q := .ended) (by rw [ok]; rfl)
    exact ⟨.settled, Phase.after?_call ended (by rw [ok']; rfl), acquired, flag, .inr rfl⟩
  | flagFailed stage failed =>
    obtain ⟨ph, calls, hph, acquired, flag⟩ := h.modificationClosed stage
    refine ⟨.settled, Phase.after?_call calls ?_, ?_⟩
    · rw [failed]
      rcases hph with rfl | rfl <;> rfl
    · rw [Fits, show (c.calling _ _).stage = _ from stage]
      exact ⟨acquired, flag, .inr rfl⟩
  | solved stage fresh ok =>
    obtain ⟨ph, calls, hph, acquired, -⟩ := h.modificationClosed stage
    have flagged := Phase.after?_call calls (q := .flagged) (by
      rw [ok]
      rcases hph with rfl | rfl <;> rfl)
    exact ⟨.solved, Phase.after?_call flagged rfl, acquired, rfl⟩
  | solvedAgain stage taken =>
    obtain ⟨ph, calls, hph, acquired, flag⟩ := h.modificationClosed stage
    rw [flag] at taken
    cases taken
  | queried stage queries =>
    obtain ⟨calls, acquired⟩ := h.solved stage
    refine ⟨.solved, Phase.after?_call calls (by rw [Call.role, queries]; rfl), ?_⟩
    rw [Fits, show (c.calling _ _).stage = _ from stage]
    exact ⟨acquired, rfl⟩
  | reported stage =>
    obtain ⟨calls, acquired⟩ := h.solved stage
    exact ⟨.solved, calls, acquired, rfl⟩
  | released running => exact h.released running

theorem InOrder.moves (h : c.InOrder) (moves : c.Moves c') : c'.InOrder := by
  induction moves with
  | refl => exact h
  | tail _ move ih => exact ih.move move

/-- The configuration and the options never change. -/
theorem Move.same (move : Move c c') : c'.registry = c.registry ∧ c'.config = c.config := by
  cases move <;> exact ⟨rfl, rfl⟩

theorem Moves.same (moves : c.Moves c') : c'.registry = c.registry ∧ c'.config = c.config := by
  induction moves with
  | refl => exact ⟨rfl, rfl⟩
  | tail _ move ih => exact ⟨move.same.1.trans ih.1, move.same.2.trans ih.2⟩

end Control

end SolverBridge
