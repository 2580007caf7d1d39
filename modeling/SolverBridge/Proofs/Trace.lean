import SolverBridge.Proofs.OptionEffects
import SolverBridge.Session.Operation

/-! What a backend sees of a session. The traced backend keeps every request with its answer,
so that the calls of a session are part of the state that the session owns. What decides the
next call is little: the stage, three marks, the domains added, the configuration and the
options. That is the control of a session, and an action is described by what it does to
the control. The description does not look into the solver, so every answer is
possible, and it says nothing of the log, the sink and the clock, which no call depends on. -/

namespace SolverBridge

/-- A request and what it was answered with. -/
abbrev Call (α : Type) := Σ r : Request α, r.Answer

variable {σ α : Type}

/-- The backend that also keeps the calls that were made of it, in order. -/
def Backend.traced (b : Backend σ α) : Backend (σ × List (Call α)) α where
  acceptance := b.acceptance
  statuses := b.statuses
  solverName s := b.solverName s.1
  solverVersion s := b.solverVersion s.1
  baseOptions s := b.baseOptions s.1
  setBaseOptions s o := (b.setBaseOptions s.1 o, s.2)
  ownOptions := b.ownOptions.map fun o =>
    { name := o.name
      description := o.description
      type := o.type
      get := fun s => o.get s.1
      set := fun s v => (o.set s.1 v).map fun x => (x, s.2) }
  perform r w :=
    let (a, (s, flags)) := b.perform r (w.1.1, w.2)
    (a, ((s, w.1.2 ++ [⟨r, a⟩]), flags))

/-- The part of a session that decides which calls it makes, and the calls so far. -/
structure Control (σ α : Type) where
  stage : Stage
  acquired : Bool
  aborted : Bool
  flagTaken : Bool
  domains : List (Domain α)
  config : SessionConfig
  registry : OptionRegistry (σ × List (Call α))
  calls : List (Call α)

def Session.control (s : Session (σ × List (Call α)) α) : Control σ α :=
  ⟨s.stage, s.acquired, s.aborted, s.flagTaken, s.domains, s.config, s.registry, s.solver.2⟩

namespace Control

/-- One more call. -/
def calling (c : Control σ α) (r : Request α) (a : r.Answer) : Control σ α :=
  { c with calls := c.calls ++ [⟨r, a⟩] }

/-- The modification was ended by an error. -/
def abandoned (c : Control σ α) : Control σ α := { c with aborted := true }

/-- Native resources were given back, if they were held. -/
def released (c : Control σ α) : Control σ α :=
  { c with
    stage := .closed
    acquired := false
    calls := if c.acquired then c.calls ++ [⟨.release, ()⟩] else c.calls }

/-- Elements can be added. -/
def Modifiable (c : Control σ α) : Prop := c.stage = .modificationOpen ∧ c.aborted = false

end Control

/-- The operation did not fit the state of the session. -/
def SessionFault.IsRefusal : SessionFault → Prop
  | .lifecycle _ _ | .aborted _ => True
  | _ => False

/-- The operation met an element that the backend does not take. -/
def SessionFault.IsUnsupported : SessionFault → Prop
  | .unsupported _ _ => True
  | _ => False

theorem SessionFault.IsRefusal.not_isUnsupported {f : SessionFault} (h : f.IsRefusal) :
    ¬f.IsUnsupported := by
  cases f <;> first | exact id | exact h.elim

/-- Setting an option makes no call. -/
def SolverOption.KeepsCalls (o : SolverOption (σ × List (Call α))) : Prop :=
  ∀ s v s', o.set s v = .ok s' → s'.2 = s.2

def OptionRegistry.KeepsCalls (r : OptionRegistry (σ × List (Call α))) : Prop :=
  ∀ e ∈ r.entries, e.2.KeepsCalls

namespace SessionAction

variable {β γ : Type}

theorem run_bind (a : SessionAction σ α β) (f : β → SessionAction σ α γ)
    (w : Session σ α × StopFlags) :
    (a >>= f).run w = match a.run w with
      | (.ok x, w') => (f x).run w'
      | (.error e, w') => (.error e, w') := by
  rw [ExceptT.run_bind]
  simp only [Bind.bind, StateT.bind]
  rcases a.run w with ⟨_ | _, _⟩ <;> rfl

theorem run_tryCatch (a : SessionAction σ α β) (f : SessionError → SessionAction σ α β)
    (w : Session σ α × StopFlags) :
    (tryCatch a f).run w = match a.run w with
      | (.ok x, w') => (.ok x, w')
      | (.error e, w') => (f e).run w' := by
  rw [ExceptT.run_tryCatch]
  simp only [Bind.bind, StateT.bind]
  rcases a.run w with ⟨_ | _, _⟩ <;> rfl

/-- What a run gave, when it is only known that it did not fail. -/
theorem run_of_isOk {a : SessionAction σ α Unit} {w : Session σ α × StopFlags}
    (h : (a.run w).1.isOk = true) : a.run w = (.ok (), (a.run w).2) := by
  rcases e : a.run w with ⟨_ | _, w'⟩
  · rw [e] at h
    cases h
  · rfl

end SessionAction

/-! ### Options -/

section Options

variable {b : Backend σ α} {r : OptionRegistry (σ × List (Call α))} {s s' : σ × List (Call α)}

theorem keepsCalls_options :
    ∀ o ∈ b.traced.sharedOptions ++ b.traced.ownOptions, o.KeepsCalls := by
  intro o ho
  rcases List.mem_append.1 ho with ho | ho
  · simp only [Backend.sharedOptions, List.mem_cons, List.not_mem_nil, or_false] at ho
    rcases ho with rfl | rfl | rfl | rfl <;>
    · change SolverOption.Keeps _ Prod.snd
      exact SolverOption.keeps_stored fun _ _ => rfl
  · obtain ⟨own, -, rfl⟩ := List.mem_map.1 ho
    intro s v s' h
    simp only at h
    cases e : own.set s.1 v with
    | ok x =>
      rw [e] at h
      cases h
      rfl
    | error x =>
      rw [e] at h
      cases h

namespace OptionRegistry.KeepsCalls

/-- The calls are a part of the state that no option touches. -/
theorem keeps (hr : r.KeepsCalls) : r.Keeps Prod.snd := hr

theorem registry (h : b.traced.registry = .ok r) : r.KeepsCalls :=
  Keeps.ofBackend h keepsCalls_options

theorem set (hr : r.KeepsCalls) {name : String} {v : OptionValue}
    (h : r.set s name v = .ok s') : s'.2 = s.2 := hr.keeps.set h

theorem applyText (hr : r.KeepsCalls) (text : String) : (r.applyText s text).2.2 = s.2 :=
  hr.keeps.applyText text

end OptionRegistry.KeepsCalls

end Options

/-- A new session has done nothing. -/
theorem Session.control_create {b : Backend σ α} {solver : σ} {config : SessionConfig}
    {s : Session (σ × List (Call α)) α}
    (h : Session.create b.traced (solver, []) config = .ok s) :
    ∃ registry, b.traced.registry = .ok registry ∧
      s.control = ⟨.created, false, false, false, [], config, registry, []⟩ := by
  delta Session.create at h
  split at h
  · cases h
  · rename_i registry registered
    cases h
    exact ⟨registry, registered, rfl⟩

/-- From every session with the control `c` the action ends as `Q` says, or with an error as
`E` says. -/
def Meets {β : Type} (a : SessionAction (σ × List (Call α)) α β) (c : Control σ α)
    (Q : β → Control σ α → Prop) (E : SessionError → Control σ α → Prop) : Prop :=
  ∀ w, w.1.control = c →
    match a.run w with
    | (.ok x, w') => Q x w'.1.control
    | (.error e, w') => E e w'.1.control

namespace Meets

variable {β γ : Type} {a : SessionAction (σ × List (Call α)) α β} {c c' : Control σ α}
  {Q : β → Control σ α → Prop} {E : SessionError → Control σ α → Prop}

/-! ### Rules -/

theorem pure {x : β} (h : Q x c) : Meets (Pure.pure x) c Q E := by
  rintro w rfl
  exact h

theorem throw {e : SessionError} (h : E e c) :
    Meets (MonadExcept.throw e : SessionAction (σ × List (Call α)) α β) c Q E := by
  rintro w rfl
  exact h

theorem bind {f : β → SessionAction (σ × List (Call α)) α γ} {R : γ → Control σ α → Prop}
    (h : Meets a c (fun x c' => Meets (f x) c' R E) E) : Meets (a >>= f) c R E := by
  intro w hw
  have first := h w hw
  rw [SessionAction.run_bind]
  rcases e : a.run w with ⟨_ | _, w'⟩ <;> rw [e] at first
  · exact first
  · exact first w' rfl

/-- What is caught goes on from where it was thrown. -/
theorem tryCatch {f : SessionError → SessionAction (σ × List (Call α)) α β}
    (h : Meets a c Q fun e c' => Meets (f e) c' Q E) :
    Meets (MonadExcept.tryCatch a f) c Q E := by
  intro w hw
  have first := h w hw
  rw [SessionAction.run_tryCatch]
  rcases e : a.run w with ⟨_ | _, w'⟩ <;> rw [e] at first
  · exact first w' rfl
  · exact first

theorem ite {P : Prop} [Decidable P] {a' : SessionAction (σ × List (Call α)) α β}
    (ht : P → Meets a c Q E) (hf : ¬P → Meets a' c Q E) :
    Meets (if P then a else a') c Q E := by
  split
  · exact ht ‹_›
  · exact hf ‹_›

theorem mono {Q' : β → Control σ α → Prop} {E' : SessionError → Control σ α → Prop}
    (h : Meets a c Q E) (hQ : ∀ x c', Q x c' → Q' x c') (hE : ∀ e c', E e c' → E' e c') :
    Meets a c Q' E' := by
  intro w hw
  have := h w hw
  split at this
  · exact hQ _ _ this
  · exact hE _ _ this

theorem getSession {Q : Session (σ × List (Call α)) α → Control σ α → Prop}
    (h : ∀ s : Session (σ × List (Call α)) α, s.control = c → Q s c) :
    Meets Session.getSession c Q E := by
  rintro w rfl
  exact h w.1 rfl

theorem modifySession {f : Session (σ × List (Call α)) α → Session (σ × List (Call α)) α}
    {Q : Unit → Control σ α → Prop} (g : Control σ α → Control σ α)
    (hg : ∀ s, (f s).control = g s.control) (h : Q () (g c)) :
    Meets (Session.modifySession f) c Q E := by
  rintro w rfl
  rw [← hg] at h
  exact h

/-- Every answer is possible. -/
theorem request {b : Backend σ α} {r : Request α} {Q : r.Answer → Control σ α → Prop}
    (h : ∀ answer, Q answer (c.calling r answer)) :
    Meets (Session.request b.traced r) c Q E := by
  rintro w rfl
  exact h (b.perform r (w.1.solver.1, w.2)).1

/-- The end of an action that succeeded. -/
theorem of_run (h : Meets a c Q E) {w w' : Session (σ × List (Call α)) α × StopFlags} {x : β}
    (hw : w.1.control = c) (hrun : a.run w = (.ok x, w')) : Q x w'.1.control := by
  have := h w hw
  rw [hrun] at this
  exact this

/-! ### What leaves the control alone -/

section Silent

variable {Q : Unit → Control σ α → Prop}

theorem emit {e : Event} (h : Q () c) : Meets (Session.emit e) c Q E :=
  modifySession id (fun _ => rfl) h

theorem log {level : EventLevel} {operation : String} {fields : List (String × EventField)}
    {message : String} (h : Q () c) : Meets (Session.log level operation fields message) c Q E :=
  emit h

theorem trace {operation : String} {fields : List (String × EventField)} (h : Q () c) :
    Meets (Session.trace operation fields) c Q E := emit h

theorem deliver {d : Delivery α} (h : Q () c) : Meets (Session.deliver d) c Q E :=
  modifySession id (fun _ => rfl) h

theorem now {Q : Nat → Control σ α → Prop} (h : ∀ t, Q t c) : Meets Session.now c Q E :=
  bind <| getSession fun _ _ => bind <| modifySession id (fun _ => rfl) <| pure <| h _

theorem backendName {b : Backend (σ × List (Call α)) α} {Q : String → Control σ α → Prop}
    (h : ∀ name, Q name c) : Meets (Session.backendName b) c Q E :=
  bind <| getSession fun _ _ => pure <| h _

theorem errorOf {b : Backend (σ × List (Call α)) α} {fault : SessionFault}
    {Q : SessionError → Control σ α → Prop} (h : ∀ e, e.fault = fault → Q e c) :
    Meets (Session.errorOf b fault) c Q E :=
  bind <| backendName fun _ => pure <| h _ rfl

end Silent

/-! ### Failures and checks -/

section Checks

variable {b : Backend (σ × List (Call α)) α}

theorem fail {fault : SessionFault} (h : ∀ e, e.fault = fault → E e c) :
    Meets (Session.fail b fault) c Q E :=
  bind <| errorOf fun e he => throw (h e he)

theorem demand {operation : String} {answer : Except Failure β}
    (hok : ∀ x, answer = .ok x → Q x c)
    (herror : ∀ f, answer = .error f → ∀ e, e.fault = Session.nativeFault operation f → E e c) :
    Meets (Session.demand b operation answer) c Q E := by
  cases answer with
  | ok x => exact pure (hok x rfl)
  | error f => exact fail (herror f rfl)

variable {Q : Unit → Control σ α → Prop} {operation : String}

theorem expectStage {expected : Stage} (hok : c.stage = expected → Q () c)
    (herror : c.stage ≠ expected → ∀ e, e.fault = .lifecycle operation c.stage → E e c) :
    Meets (Session.expectStage b expected operation) c Q E := by
  refine bind <| getSession fun s hs => ?_
  subst hs
  exact ite (fun h => fail (herror h)) fun h => pure (hok (Decidable.not_not.1 h))

theorem expectNotAborted (hok : c.aborted = false → Q () c)
    (herror : c.aborted = true → ∀ e, e.fault = .aborted operation → E e c) :
    Meets (Session.expectNotAborted b operation) c Q E := by
  refine bind <| getSession fun s hs => ?_
  subst hs
  exact ite (fun h => fail (herror h)) fun h => pure (hok (Bool.eq_false_iff.2 h))

theorem expectNotClosed (hok : c.stage ≠ .closed → Q () c)
    (herror : c.stage = .closed → ∀ e, e.fault = .lifecycle operation c.stage → E e c) :
    Meets (Session.expectNotClosed b operation) c Q E := by
  refine bind <| getSession fun s hs => ?_
  subst hs
  exact ite (fun h => fail (herror h)) fun h => pure (hok h)

theorem expectModifiable (hok : c.Modifiable → Q () c)
    (herror : ¬c.Modifiable → ∀ e, e.fault.IsRefusal → E e c) :
    Meets (Session.expectModifiable b operation) c Q E := by
  refine bind <| expectStage (fun hs => ?_) fun hs e he => ?_
  · refine expectNotAborted (fun ha => hok ⟨hs, ha⟩) fun ha e he => ?_
    exact herror (fun h => by rw [h.2] at ha; cases ha) e (by rw [he]; trivial)
  · exact herror (fun h => hs h.1) e (by rw [he]; trivial)

theorem abort {fault : SessionFault} {Q : β → Control σ α → Prop}
    (h : ∀ e, e.fault = fault → E e c.abandoned) : Meets (Session.abort b fault) c Q E :=
  bind <| errorOf fun e he => bind <|
    modifySession Control.abandoned (fun _ => rfl) <| bind <| log <| throw (h e he)

end Checks

theorem release {b : Backend σ α} {Q : Unit → Control σ α → Prop} (h : Q () c.released) :
    Meets (Session.release b.traced) c Q E := by
  refine bind <| getSession fun s hs => ite (fun acquired => ?_) fun acquired => ?_
  · rw [show s.acquired = c.acquired from hs ▸ rfl] at acquired
    rw [Control.released, if_pos acquired] at h
    exact bind <| request fun _ => bind <|
      modifySession (fun c => { c with acquired := false }) (fun _ => rfl) <|
      bind <| backendName fun _ => bind <| log <|
      modifySession (fun c => { c with stage := .closed }) (fun _ => rfl) h
  · rw [show s.acquired = c.acquired from hs ▸ rfl] at acquired
    rw [Control.released, if_neg acquired, ← Bool.eq_false_iff.2 acquired] at h
    exact modifySession (fun c => { c with stage := .closed }) (fun _ => rfl) h

/-! ### Options -/

section Options

variable {b : Backend σ α}

theorem getOption {b : Backend (σ × List (Call α)) α} {t : OptionType} {name : String}
    {Q : OptionValue → Control σ α → Prop} (hok : ∀ x, Q x c)
    (herror : ∀ e, ¬e.fault.IsUnsupported → E e c) :
    Meets (Session.getOption b t name) c Q E := by
  refine bind <| expectNotClosed (fun _ => bind <| getSession fun s _ => ?_) fun _ e he =>
    herror e (by rw [he]; exact id)
  split
  · exact pure (hok _)
  · exact fail fun e he => herror e (by rw [he]; exact id)

theorem setOption {b : Backend (σ × List (Call α)) α} (hkeeps : c.registry.KeepsCalls)
    {name : String} {v : OptionValue} {Q : Unit → Control σ α → Prop} (hok : Q () c)
    (herror : ∀ e, ¬e.fault.IsUnsupported → E e c) :
    Meets (Session.setOption b name v) c Q E := by
  refine bind <| expectNotClosed (fun _ => bind <| trace <| bind <| getSession fun s hs => ?_)
    fun _ e he => herror e (by rw [he]; exact id)
  split
  · rename_i solver h
    subst hs
    refine modifySession (fun c => { c with calls := solver.2 }) (fun _ => rfl) ?_
    rw [hkeeps.set h]
    exact hok
  · exact fail fun e he => herror e (by rw [he]; exact id)

theorem applyOptions {b : Backend (σ × List (Call α)) α} (hkeeps : c.registry.KeepsCalls)
    {text : String} {Q : Nat → Control σ α → Prop} (hok : ∀ n, Q n c)
    (herror : ∀ e, ¬e.fault.IsUnsupported → E e c) :
    Meets (Session.applyOptions b text) c Q E := by
  refine bind <| expectNotClosed (fun _ => bind <| getSession fun s hs => ?_) fun _ e he =>
    herror e (by rw [he]; exact id)
  subst hs
  have kept : (s.registry.applyText s.solver text).2.2 = s.solver.2 := hkeeps.applyText text
  refine bind <| modifySession
    (fun c => { c with calls := (s.registry.applyText s.solver text).2.2 }) (fun _ => rfl) ?_
  rw [kept]
  split
  · exact bind <| log <| pure (hok _)
  · exact fail fun e he => herror e (by rw [he]; exact id)

end Options

end Meets

end SolverBridge
