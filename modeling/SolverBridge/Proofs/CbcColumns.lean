import SolverBridge.Backend.Cbc
import SolverBridge.Proofs.OptionEffects

/-! The columns that the CBC backend indexes. Requests and options can be put in any order, each
answer taken or not. A row is only kept when it names stored columns, and columns go away only
with the rows, so no row is ever the reason that a solve misses a column. An objective is kept
as it comes. It is the one thing a solve can trip over, and it does not when every objective that
was posted named columns that were there. -/

namespace SolverBridge

variable {α : Type}

/-- What a CBC backend keeps of a problem. -/
structure CbcProblem (α : Type) where
  columns : List (Domain α)
  objective : Option (LinearObjective α)
  rows : List (LinearRow α)

def CbcState.problem (s : CbcState α) : CbcProblem α := ⟨s.columns, s.objective, s.rows⟩

/-- What is asked of a CBC backend, and what happens around it. -/
inductive CbcStep (α : Type)
  | request (q : Request α)
  | setOption (name : String) (v : OptionValue)
  | setOptionText (name text : String)
  | applyOptions (text : String)
  /-- Others move their stop flags, take or leave the console and change the files. -/
  | surroundings (flags : StopFlags) (host : CbcHost)

/-- The linear objective that a step posts. -/
def CbcStep.objective? : CbcStep α → Option (LinearObjective α)
  | .request (.postObjective (.linear o)) => some o
  | _ => none

namespace Cbc

/-- All variables of a form have columns. -/
def Fits (columns : List (Domain α)) (f : LinearForm α) : Prop :=
  ∀ v ∈ f.vars, v.index < columns.length

def RowsFit (p : CbcProblem α) : Prop := ∀ row ∈ p.rows, Fits p.columns row.form

def ObjectiveFits (p : CbcProblem α) : Prop := ∀ o ∈ p.objective, Fits p.columns o.form

theorem Fits.mono {columns columns' : List (Domain α)} {f : LinearForm α} (h : Fits columns f)
    (grown : columns.length ≤ columns'.length) : Fits columns' f :=
  fun v hv => Nat.lt_of_lt_of_le (h v hv) grown

/-! ### Missing columns -/

section Missing

variable {s : CbcState α} {f : LinearForm α} {row : LinearRow α} {v : Var}

/-- The first variable of the form without a column. -/
def firstMissing? (s : CbcState α) (f : LinearForm α) : Option Var :=
  f.vars.find? fun v => !isColumn s v

theorem isColumn_iff : isColumn s v = true ↔ v.index < s.columns.length := decide_eq_true_iff

theorem firstMissing?_eq_none_iff : firstMissing? s f = none ↔ Fits s.columns f := by
  simp [firstMissing?, Fits, List.find?_eq_none, isColumn_iff]

theorem of_firstMissing? (h : firstMissing? s f = some v) :
    v ∈ f.vars ∧ s.columns.length ≤ v.index := by
  have missing := List.find?_some h
  rw [Bool.not_eq_true', ← Bool.not_eq_true, isColumn_iff, Nat.not_lt] at missing
  exact ⟨List.mem_of_find?_eq_some h, missing⟩

theorem addRow_of_fits (h : Fits s.columns row.form) :
    addRow s row = (.ok (), { s with rows := s.rows ++ [row] }) := by
  rw [← firstMissing?_eq_none_iff, firstMissing?] at h
  rw [addRow, h]

theorem addRow_of_missing (h : firstMissing? s row.form = some v) :
    addRow s row = (.error (CbcFault.missingColumn v).failure, s) := by
  rw [firstMissing?] at h
  rw [addRow, h]

/-- While the rows name stored columns, only the objective can name another. -/
theorem missingColumn?_of_rowsFit (h : RowsFit s.problem) :
    missingColumn? s = s.objective.bind (firstMissing? s ·.form) := by
  have rows : ((s.rows.flatMap (·.form.vars)).find? fun v => !isColumn s v) = none := by
    rw [List.find?_flatMap, List.findSome?_eq_none_iff]
    exact fun row hr => firstMissing?_eq_none_iff.2 (h row hr)
  rw [missingColumn?, List.find?_append, rows, Option.none_or]
  cases s.objective <;> rfl

theorem missingColumn?_eq_none (h : RowsFit s.problem) (h' : ObjectiveFits s.problem) :
    missingColumn? s = none := by
  rw [missingColumn?_of_rowsFit h, Option.bind_eq_none_iff]
  exact fun o ho => firstMissing?_eq_none_iff.2 (h' o ho)

end Missing

/-! ### What a step does to the problem -/

/-- A step leaves the problem, clears it or adds an element; only a row is looked at. -/
inductive Changes (step : CbcStep α) : CbcProblem α → CbcProblem α → Prop
  | kept (p : CbcProblem α) : Changes step p p
  | cleared (p : CbcProblem α) : Changes step p ⟨[], none, []⟩
  | column (p : CbcProblem α) (d : Domain α) :
      Changes step p { p with columns := p.columns ++ [d] }
  | objective (p : CbcProblem α) (o : LinearObjective α) (posted : step.objective? = some o) :
      Changes step p { p with objective := some o }
  | row (p : CbcProblem α) (row : LinearRow α) (fits : Fits p.columns row.form) :
      Changes step p { p with rows := p.rows ++ [row] }

namespace Changes

variable {step : CbcStep α} {p p' : CbcProblem α}

theorem of_eq (h : p' = p) : Changes step p p' := by
  subst h
  exact .kept p'

/-- Columns go away only with the rows, and a new row fits. -/
theorem rowsFit (h : Changes step p p') (fit : RowsFit p) : RowsFit p' := by
  cases h with
  | kept => exact fit
  | cleared => exact fun row hr => nomatch hr
  | column d => exact fun row hr => (fit row hr).mono (by simp)
  | objective o _ => exact fit
  | row row fits =>
    intro other hr
    rcases List.mem_append.1 hr with hr | hr
    · exact fit other hr
    · rwa [List.mem_singleton.1 hr]

/-- An objective that fits where it is posted goes on to fit. -/
theorem objectiveFits (h : Changes step p p') (fit : ObjectiveFits p)
    (fits : ∀ o ∈ step.objective?, Fits p.columns o.form) : ObjectiveFits p' := by
  cases h with
  | kept => exact fit
  | cleared => exact fun o ho => nomatch ho
  | column d => exact fun o ho => (fit o ho).mono (by simp)
  | objective o posted =>
    intro other ho
    cases ho
    exact fits o posted
  | row row _ => exact fit

end Changes

section Run

variable [Scalar α] [Numeral α] {native : CbcState α → CbcResult α}

/-- All options of the backend. -/
def registry (native : CbcState α → CbcResult α) : OptionRegistry (CbcState α) :=
  (OptionRegistry.empty.registerAll
    ((backend native).sharedOptions ++ (backend native).ownOptions)).2

/-- One step. After an error the backend is used as it was left. -/
def follow (native : CbcState α → CbcResult α) :
    CbcState α × StopFlags → CbcStep α → CbcState α × StopFlags
  | w, .request q => ((backend native).perform q w).2
  | (s, flags), .setOption name v => (((registry native).set s name v).toOption.getD s, flags)
  | (s, flags), .setOptionText name text =>
    (((registry native).setText s name text).toOption.getD s, flags)
  | (s, flags), .applyOptions text => (((registry native).applyText s text).2, flags)
  | (s, _), .surroundings flags host => ({ s with host := host }, flags)

/-- A new backend after some steps. -/
def after (native : CbcState α → CbcResult α) (flags : StopFlags) (steps : List (CbcStep α)) :
    CbcState α × StopFlags :=
  steps.foldl (follow native) ({}, flags)

omit [Scalar α] [Numeral α] in
theorem parameter_keeps {name description key : String} {t : OptionType} :
    (SolverOption.ofParameter access name description t key).Keeps
      (CbcState.problem : CbcState α → CbcProblem α) :=
  SolverOption.keeps_ofParameter fun s x s' h => by
    cases h
    rfl

omit [Scalar α] [Numeral α] in
theorem options_keep :
    ∀ o ∈ (options : List (SolverOption (CbcState α))), o.Keeps CbcState.problem := by
  simp only [options, List.forall_mem_cons]
  exact ⟨parameter_keeps, parameter_keeps, parameter_keeps, parameter_keeps, parameter_keeps,
    parameter_keeps, SolverOption.keeps_stored fun _ _ => rfl, nofun⟩

/-- No option touches the problem. -/
theorem registry_keeps : (registry native).Keeps CbcState.problem := by
  refine OptionRegistry.keeps_empty.registerAll (List.forall_mem_append.2 ⟨?_, options_keep⟩)
  simp only [Backend.sharedOptions, List.forall_mem_cons]
  exact ⟨SolverOption.keeps_stored fun _ _ => rfl, SolverOption.keeps_stored fun _ _ => rfl,
    SolverOption.keeps_stored fun _ _ => rfl, SolverOption.keeps_stored fun _ _ => rfl, nofun⟩

omit [Scalar α] [Numeral α] in
theorem problem_addRow (step : CbcStep α) (s : CbcState α) (row : LinearRow α) :
    Changes step s.problem (addRow s row).2.problem := by
  cases h : firstMissing? s row.form with
  | none =>
    rw [firstMissing?_eq_none_iff] at h
    rw [addRow_of_fits h]
    exact .row s.problem row h
  | some v =>
    rw [addRow_of_missing h]
    exact .kept s.problem

theorem problem_perform (q : Request α) (w : CbcState α × StopFlags) :
    Changes (.request q) w.1.problem ((backend native).perform q w).2.1.problem := by
  obtain ⟨s, flags⟩ := w
  cases q with
  | acquire => exact .cleared _
  | release => exact .cleared _
  | exportModel path =>
    change Changes _ s.problem (exportModel s path).2.problem
    rw [exportModel]
    split <;> exact .kept s.problem
  | addVariable d => exact .column s.problem d
  | postObjective o =>
    cases o with
    | linear o =>
      change Changes _ s.problem (addObjective s o).2.problem
      rw [addObjective]
      split
      · exact .kept s.problem
      · exact .objective s.problem o rfl
    | _ => exact .kept s.problem
  | postConstraint c =>
    cases c with
    | linear row => exact problem_addRow _ s row
    | linearDefining r f c => exact problem_addRow _ s (definitionRow r f c)
    | _ => exact .kept s.problem
  | solve =>
    change Changes _ s.problem (solve native s flags).2.problem
    rw [solve]
    split
    · exact .kept s.problem
    · split
      · exact .kept s.problem
      · split <;> exact .kept s.problem
  | _ => exact .kept s.problem

theorem problem_follow (step : CbcStep α) (w : CbcState α × StopFlags) :
    Changes step w.1.problem (follow native w step).1.problem := by
  cases step with
  | request q => exact problem_perform q w
  | setOption name v =>
    rw [follow]
    cases h : (registry native).set w.1 name v with
    | error e => exact .kept w.1.problem
    | ok s' => exact .of_eq (registry_keeps.set h)
  | setOptionText name text =>
    rw [follow]
    cases h : (registry native).setText w.1 name text with
    | error e => exact .kept w.1.problem
    | ok s' => exact .of_eq (registry_keeps.setText h)
  | applyOptions text => exact .of_eq (registry_keeps.applyText text)
  | surroundings flags host => exact .kept w.1.problem

/-! ### What holds after any steps -/

/-- Every objective that is posted names columns that are there. -/
def PostsFit (native : CbcState α → CbcResult α) :
    CbcState α × StopFlags → List (CbcStep α) → Prop
  | _, [] => True
  | w, step :: rest =>
    (∀ o ∈ step.objective?, Fits w.1.columns o.form) ∧ PostsFit native (follow native w step) rest

theorem rowsFit_foldl {w : CbcState α × StopFlags} (steps : List (CbcStep α))
    (fit : RowsFit w.1.problem) : RowsFit (steps.foldl (follow native) w).1.problem := by
  induction steps generalizing w with
  | nil => exact fit
  | cons step rest ih => exact ih ((problem_follow step w).rowsFit fit)

theorem objectiveFits_foldl {w : CbcState α × StopFlags} {steps : List (CbcStep α)}
    (fit : ObjectiveFits w.1.problem) (posts : PostsFit native w steps) :
    ObjectiveFits (steps.foldl (follow native) w).1.problem := by
  induction steps generalizing w with
  | nil => exact fit
  | cons step rest ih => exact ih ((problem_follow step w).objectiveFits fit posts.1) posts.2

theorem rowsFit_after (flags : StopFlags) (steps : List (CbcStep α)) :
    RowsFit (after native flags steps).1.problem :=
  rowsFit_foldl steps fun _ h => nomatch h

omit [Numeral α] in
/-- A solve that misses a column was asked for one. -/
theorem missingColumn?_of_solve {s : CbcState α} {flags : StopFlags} {v : Var}
    (h : (solve native s flags).1 = .error (.missingColumn v)) : missingColumn? s = some v := by
  rw [solve] at h
  split at h
  · cases h
  · split at h
    · cases h
    · split at h
      · cases h
        assumption
      · cases h

/-- A constraint is posted as a row: it is one, or defines a variable by one. -/
inductive PostedAs : FlatConstraint α → LinearRow α → Prop
  | linear (row : LinearRow α) : PostedAs (.linear row) row
  | defining (result : Var) (f : LinearForm α) (constant : α) :
      PostedAs (.linearDefining result f constant) (definitionRow result f constant)

theorem perform_of_missing {w : CbcState α × StopFlags} {c : FlatConstraint α}
    {row : LinearRow α} {v : Var} (posted : PostedAs c row)
    (missing : firstMissing? w.1 row.form = some v) :
    (backend native).perform (.postConstraint c) w =
      (.error (CbcFault.missingColumn v).failure, w) := by
  cases posted <;>
  · change ((addRow w.1 _).1, ((addRow w.1 _).2, w.2)) = _
    rw [addRow_of_missing missing]

/-- After any steps every row names stored columns, so a solve that misses a column misses one of
the objective. A row that names a column that is not there is refused for the first such column,
and nothing changes. An objective is taken as it comes, and when each that was posted named
columns that were there, no solve misses a column. -/
theorem missing_column_of_objective (native : CbcState α → CbcResult α) (flags : StopFlags)
    (steps : List (CbcStep α)) :
    let w := after native flags steps
    (∀ row ∈ w.1.rows, ∀ v ∈ row.form.vars, v.index < w.1.columns.length) ∧
      (∀ c row v, PostedAs c row → firstMissing? w.1 row.form = some v →
        (backend native).perform (.postConstraint c) w =
          (.error (CbcFault.missingColumn v).failure, w)) ∧
      (∀ v, (solve native w.1 w.2).1 = .error (.missingColumn v) →
        ∃ o, w.1.objective = some o ∧ v ∈ o.form.vars ∧ w.1.columns.length ≤ v.index) ∧
      (PostsFit native ({}, flags) steps →
        ∀ v, (solve native w.1 w.2).1 ≠ .error (.missingColumn v)) := by
  intro w
  have fit : RowsFit w.1.problem := rowsFit_after flags steps
  refine ⟨fit, fun _ _ _ => perform_of_missing, fun v h => ?_, fun posts v h => ?_⟩
  · have missing := missingColumn?_of_solve h
    rw [missingColumn?_of_rowsFit fit, Option.bind_eq_some_iff] at missing
    obtain ⟨o, posted, missing⟩ := missing
    exact ⟨o, posted, of_firstMissing? missing⟩
  · have fits : ObjectiveFits w.1.problem := objectiveFits_foldl (fun _ h => nomatch h) posts
    have missing := missingColumn?_of_solve h
    rw [missingColumn?_eq_none fit fits] at missing
    cases missing

/-- The objective `x0` is taken although there is no column, and the solve misses it. -/
theorem objective_without_column :
    let native : CbcState Float → CbcResult Float := fun _ => ⟨0, [], 0, true⟩
    let post : CbcStep Float :=
      .request (.postObjective (.linear ⟨.minimize, ⟨[(1, ⟨0⟩)]⟩, 0⟩))
    let w := after native .initial [.request .acquire, post]
    ¬ObjectiveFits w.1.problem ∧ (solve native w.1 w.2).1 = .error (.missingColumn ⟨0⟩) := by
  intro native post w
  have missing : missingColumn? w.1 = some ⟨0⟩ := rfl
  have running : ¬isStopped w.1 w.2 = true := Bool.false_ne_true
  have free : ¬(logLevel w.1 = 0 ∧ w.1.host.consoleHeld = true) := fun h => nomatch h.2
  constructor
  · intro fits
    rw [missingColumn?_eq_none (rowsFit_after _ _) fits] at missing
    cases missing
  · rw [solve, if_neg running, if_neg free, missing]

end Run

end Cbc

end SolverBridge
