import SolverBridge.Proofs.CallOrder
import SolverBridge.Proofs.OptionStore
import SolverBridge.Proofs.Outcomes
import SolverBridge.Proofs.SpelledSettings

/-! What sessions tell about options. The settings of a session are the names and values that its
operations set: one at a time, or by an option string as far as its assignments are carried out.
When every option of a backend reads back what it was set to, no two of them share a part of the
state, and no request changes what they read, then an option reads the last value that was set
under its name, in any case, and what it read at first when there is none. One operation adds its
settings to those before, and from this a whole session follows. -/

namespace SolverBridge

variable {σ α : Type}

namespace OptionRegistry

/-! ### Settings -/

/-- The last value that a name was set to. -/
def lastSet? (settings : List (String × OptionValue)) (name : String) : Option OptionValue :=
  (settings.reverse.find? fun p => key p.1 = key name).map (·.2)

/-- What an option tells after some settings, when it told `before` without them. -/
def told (before : Except OptionError OptionValue) (settings : List (String × OptionValue))
    (name : String) : Except OptionError OptionValue :=
  (lastSet? settings name).elim before .ok

theorem lastSet?_append (settings later : List (String × OptionValue)) (name : String) :
    lastSet? (settings ++ later) name = (lastSet? later name).or (lastSet? settings name) := by
  simp [lastSet?, Option.map_or]

/-- Other settings do not count. -/
theorem lastSet?_eq_none {settings : List (String × OptionValue)} {name : String}
    (other : ∀ p ∈ settings, key p.1 ≠ key name) : lastSet? settings name = none := by
  simpa [lastSet?] using fun n v h => other (n, v) h

section Told

variable {before : Except OptionError OptionValue} {settings later : List (String × OptionValue)}
  {name : String}

@[simp] theorem told_nil : told before [] name = before := rfl

theorem told_append : told before (settings ++ later) name =
    told (told before settings name) later name := by
  rw [told, told, told, lastSet?_append]
  cases lastSet? later name <;> rfl

theorem told_of_other (other : ∀ p ∈ settings, key p.1 ≠ key name) :
    told before settings name = before := by
  rw [told, lastSet?_eq_none other]
  rfl

theorem told_singleton_of_eq {n : String} {v : OptionValue} (same : key n = key name) :
    told before [(n, v)] name = .ok v := by
  simp [told, lastSet?, same]

end Told

/-- The setting that an assignment spells, when its option is known. -/
def spelled? (r : OptionRegistry σ) (a : Assignment) : Option (String × OptionValue) :=
  (r.find? (String.ofList a.name)).bind fun o =>
    (OptionValue.parse? o.type (String.ofList a.value)).map fun v => (String.ofList a.name, v)

/-- The settings of assignments that are carried out up to the first fault. -/
def taken (r : OptionRegistry σ) : σ → List Assignment → List (String × OptionValue)
  | _, [] => []
  | s, a :: rest =>
    match r.assign s a with
    | .ok s' => (r.spelled? a).toList ++ r.taken s' rest
    | .error _ => []

/-! ### Stores -/

/-- Every option reads back what it was set to, and no other option does. -/
structure Stores (r : OptionRegistry σ) : Prop where
  typed : ∀ {name o}, r.find? name = some o → ∀ {s v}, o.get s = .ok v → v.type = o.type
  accepts : ∀ {name o}, r.find? name = some o → ∀ s v, v.type = o.type → ∃ s', o.set s v = .ok s'
  reads_back : ∀ {name o}, r.find? name = some o → ∀ {s v s'}, v.ReadsBack → o.set s v = .ok s' →
    o.get s' = .ok v
  apart : ∀ {name name' o o'}, r.find? name = some o → r.find? name' = some o' →
    key name ≠ key name' → o.Keeps o'.get

variable {r : OptionRegistry σ} {s s' : σ} {name : String}

theorem getValue_of_find? {o : SolverOption σ} (found : r.find? name = some o) :
    r.getValue s name = o.get s := by
  rw [getValue, find, found]
  rfl

theorem getValue_of_find?_eq_none (found : r.find? name = none) :
    r.getValue s name = .error (.unknown name) := by
  rw [getValue, find, found]
  rfl

theorem find?_congr {asked : String} (same : key name = key asked) :
    r.find? asked = r.find? name := by rw [find?, find?, same]

namespace Stores

/-- An option of the declared type is told with that type. -/
theorem get_eq_getValue (h : r.Stores) {o : SolverOption σ} (found : r.find? name = some o) :
    r.get s o.type name = r.getValue s name := by
  rw [getValue_of_find? found, get, find, found]
  cases read : o.get s with
  | error e => simp [Except.bind, read]
  | ok v => simp [Except.bind, read, h.typed found read]

/-- A value is told under the name that it was set under, and under no other. -/
theorem getValue_of_set (h : r.Stores) {o : SolverOption σ} {v : OptionValue} {asked : String}
    (found : r.find? name = some o) (readsBack : key name = key asked → v.ReadsBack)
    (set : o.set s v = .ok s') :
    r.getValue s' asked = told (r.getValue s asked) [(name, v)] asked := by
  by_cases same : key name = key asked
  · rw [told_singleton_of_eq same, getValue_of_find? ((find?_congr same).trans found),
      h.reads_back found (readsBack same) set]
  · rw [told_of_other (by simpa using same)]
    cases other : r.find? asked with
    | none => rw [getValue_of_find?_eq_none other, getValue_of_find?_eq_none other]
    | some p =>
      rw [getValue_of_find? other, getValue_of_find? other]
      exact h.apart found other same s v s' set

/-- Assignments set what they spell. -/
theorem getValue_assignAll (h : r.Stores) (as : List Assignment) {asked : String}
    (readsBack : ∀ p ∈ r.taken s as, key p.1 = key asked → p.2.ReadsBack) :
    r.getValue (r.assignAll s as).2 asked = told (r.getValue s asked) (r.taken s as) asked := by
  induction as generalizing s with
  | nil => rfl
  | cons a rest ih =>
    rw [taken] at readsBack
    rw [assignAll, taken]
    cases assigned : r.assign s a with
    | error e => rfl
    | ok s' =>
      obtain ⟨o, v, found, parsed, set⟩ := exists_of_setText (setText_of_assign assigned)
      have spells : r.spelled? a = some (String.ofList a.name, v) := by
        simp [spelled?, found, parsed]
      simp only [assigned, spells, Option.toList_some, List.singleton_append,
        List.forall_mem_cons] at readsBack
      have first := h.getValue_of_set found readsBack.1 set
      simp only [spells, Option.toList_some]
      rw [told_append, ih readsBack.2, first]

end Stores

/-- Options whose names differ are registered one after the other. -/
theorem registerAll_of_nodup {os : List (SolverOption σ)} (nodup : (os.map (key ·.name)).Nodup)
    (new : ∀ o ∈ os, r.find? o.name = none) : r.registerAll os = (.ok (), os.foldl offer r) := by
  induction os generalizing r with
  | nil => rfl
  | cons o rest ih =>
    rw [List.map_cons, List.nodup_cons] at nodup
    rw [List.forall_mem_cons] at new
    have added := register_of_none new.1
    rw [registerAll, List.foldl_cons, offer, added]
    refine ih nodup.2 fun p hp => ?_
    have other : key o.name ≠ key p.name := fun same =>
      nodup.1 (List.mem_map.2 ⟨p, hp, same.symm⟩)
    have found := find?_offer r o p.name
    rw [offer, added] at found
    rw [found, new.2 p hp, if_neg other, Option.none_or]

/-- Among options whose names differ each is the one of its name. -/
theorem find?_of_nodup {os : List (SolverOption σ)} (nodup : (os.map (key ·.name)).Nodup)
    {o : SolverOption σ} (mem : o ∈ os) (same : key o.name = key name) :
    (os.find? fun p => key p.name = key name) = some o := by
  induction os with
  | nil => cases mem
  | cons p rest ih =>
    rw [List.map_cons, List.nodup_cons] at nodup
    rcases List.mem_cons.1 mem with rfl | mem
    · simp [same]
    · have other : key p.name ≠ key name := fun h =>
        nodup.1 (List.mem_map.2 ⟨o, mem, same.trans h.symm⟩)
      rw [List.find?_cons_of_neg (by simpa using other), ih nodup.2 mem]

end OptionRegistry

open OptionRegistry

/-- A backend whose options have different names registers them all. -/
theorem Backend.registry_eq_ok {b : Backend σ α}
    (nodup : ((b.sharedOptions ++ b.ownOptions).map (key ·.name)).Nodup) :
    b.registry = .ok ((b.sharedOptions ++ b.ownOptions).foldl offer .empty) := by
  delta Backend.registry
  rw [registerAll_of_nodup nodup fun _ _ => rfl]

/-! ### Sessions -/

/-- The settings of an operation that is tried. -/
def Operation.settings (b : Backend σ α) (w : World σ α) :
    Operation α → List (String × OptionValue)
  | .setOption name v => if ((Session.setOption b name v).run w).1.isOk then [(name, v)] else []
  | .applyOptions text =>
    if w.1.stage = .closed then []
    else w.1.registry.taken w.1.solver (Assignment.scan text).1
  | _ => []

/-- The settings of operations that are tried one after the other. -/
def Session.settings [Scalar α] [Numeral α] (b : Backend σ α) :
    List (Operation α) → World σ α → List (String × OptionValue)
  | [], _ => []
  | o :: rest, w => o.settings b w ++ Session.settings b rest ((o.perform b).run w).2

/-- The options of a backend are a store that no request changes, and the backend can always be
acquired. -/
structure Backend.StoresOptions (b : Backend σ α) (r : OptionRegistry σ) : Prop
    extends r.Stores where
  opens : b.Opens
  asked : ∀ (q : Request α) (w : World σ α) (name : String),
    r.getValue (b.asked q w).1.solver name = r.getValue w.1.solver name

namespace Session

variable {b : Backend σ α} {w : World σ α}

/-- The answer for an option. -/
theorem run_getOption (running : w.1.stage ≠ .closed) (t : OptionType) (name : String) :
    (getOption b t name).run w =
      ((w.1.registry.get w.1.solver t name).mapError fun e => ⟨b.longName w.1.solver, .option e⟩,
        w) := by
  refine Ends.outcome (P := fun x w' => (x, w') = _) <| .bind <|
    .expectNotClosed (fun _ => .bind <| .getSession ?_) fun closed => absurd closed running
  split <;> rename_i read
  · exact .pure (by rw [read]; rfl)
  · exact .fail (by rw [read]; rfl)

/-- An option that is set changes the solver, one that is not changes nothing but the log. -/
theorem ends_setOption (running : w.1.stage ≠ .closed) (name : String) (v : OptionValue) :
    Ends (setOption b name v) w
      (fun _ w' => ∃ s events, w.1.registry.set w.1.solver name v = .ok s ∧
        w' = ({ w.1 with solver := s, events := events }, w.2))
      fun _ w' => (∀ s, w.1.registry.set w.1.solver name v ≠ .ok s) ∧
        ∃ events, w' = ({ w.1 with events := events }, w.2) := by
  refine .bind <| .expectNotClosed (fun _ => ?_) fun closed => absurd closed running
  refine .bind <| .trace fun events => .bind <| .getSession ?_
  split
  · exact .modifySession ⟨_, events, ‹_›, rfl⟩
  · rename_i refused
    exact .fail ⟨fun s set => by simp [refused] at set, events, rfl⟩

/-- An option string leaves what its assignments leave, whether or not it has a fault. -/
theorem ends_applyOptions (running : w.1.stage ≠ .closed) (text : String) :
    let applied (w' : World σ α) : Prop := ∃ events,
      w' = ({ w.1 with solver := (w.1.registry.applyText w.1.solver text).2, events := events },
        w.2)
    Ends (applyOptions b text) w (fun _ => applied) fun _ => applied := by
  refine .bind <| .expectNotClosed (fun _ => ?_) fun closed => absurd closed running
  refine .bind <| .getSession <| .bind <| .modifySession ?_
  split
  · exact .bind <| .log <| .pure ⟨_, rfl⟩
  · exact .fail ⟨_, rfl⟩

end Session

/-- The session goes on, and its options tell what they told in `w` or what was set since, where
that is read back. -/
structure World.AfterSettings (r : OptionRegistry σ) (w : World σ α)
    (settings : List (String × OptionValue)) (w' : World σ α) : Prop where
  registry : w'.1.registry = r
  running : w'.1.stage ≠ .closed
  tells : ∀ name, (∀ p ∈ settings, key p.1 = key name → p.2.ReadsBack) →
    r.getValue w'.1.solver name = told (r.getValue w.1.solver name) settings name

namespace World.AfterSettings

variable {b : Backend σ α} {r : OptionRegistry σ} {w w' w'' : World σ α}
  {settings later : List (String × OptionValue)}

theorem refl (registry : w.1.registry = r) (running : w.1.stage ≠ .closed) :
    w.AfterSettings r [] w := ⟨registry, running, fun _ _ => rfl⟩

theorem trans (h : w.AfterSettings r settings w') (h' : w'.AfterSettings r later w'') :
    w.AfterSettings r (settings ++ later) w'' := by
  refine ⟨h'.registry, h'.running, fun name readsBack => ?_⟩
  rw [List.forall_mem_append] at readsBack
  rw [told_append, h'.tells name readsBack.2, h.tells name readsBack.1]

/-! ### What sets no option -/

theorem asked (h : w.AfterSettings r settings w') (stores : b.StoresOptions r) (q : Request α) :
    w.AfterSettings r settings (b.asked q w') :=
  ⟨h.registry, h.running, fun name readsBack =>
    (stores.asked q w' name).trans (h.tells name readsBack)⟩

theorem agrees (h : w.AfterSettings r settings w') (same : w'.Agrees w'')
    (running : w''.1.stage ≠ .closed) : w.AfterSettings r settings w'' :=
  ⟨same.registry.trans h.registry, running, by
    rw [same.solver]
    exact h.tells⟩

theorem survives (stores : b.StoresOptions r) :
    Survives b (w.AfterSettings (α := α) r settings) where
  booked same h := ⟨same.registry.trans h.registry, same.running h.running, by
    rw [same.solver]
    exact h.tells⟩
  asked _ h := h.asked stores _

theorem preserves_solve (stores : b.StoresOptions r) :
    Preserves (w.AfterSettings r settings) (Session.solve b) := by
  intro w' h
  have lowered : w.AfterSettings r settings w'.lowered := ⟨h.registry, h.running, h.tells⟩
  have outcome := Session.solve_outcome b w'
  generalize ((Session.solve b).run w').1 = x, ((Session.solve b).run w').2 = w'' at outcome ⊢
  cases outcome with
  | refused same stage => exact h.agrees same (stage ▸ h.running)
  | unflagged _ same stage => exact (lowered.asked stores _).agrees same (stage ▸ h.running)
  | @solved _ started _ _ ready same stage _ =>
    have ready : w.AfterSettings r settings started := by
      rcases ready with ⟨rfl, -⟩ | ⟨rfl, -⟩
      · exact lowered
      · exact lowered.asked stores _
    have solved := ready.asked stores .solve
    exact ⟨same.registry.trans solved.registry, stage ▸ nofun, same.solver ▸ solved.tells⟩

/-! ### Operations -/

theorem setOption (h : w.AfterSettings r [] w) (stores : b.StoresOptions r) (name : String)
    (v : OptionValue) :
    w.AfterSettings r ((Operation.setOption name v).settings b w)
      ((Session.setOption b name v).run w).2 := by
  have ends := Session.ends_setOption (b := b) h.running name v
  rw [Operation.settings]
  rw [Ends, h.registry] at ends
  split at ends <;> rename_i ran
  · obtain ⟨s, events, set, rfl⟩ := ends
    obtain ⟨o, found, -, written⟩ := exists_of_set set
    have taken : ((Session.setOption b name v).run w).1.isOk = true := by rw [ran]; rfl
    rw [if_pos taken, ran]
    refine ⟨h.registry, h.running, fun asked readsBack => ?_⟩
    exact stores.getValue_of_set found (readsBack (name, v) List.mem_cons_self) written
  · obtain ⟨-, events, rfl⟩ := ends
    have refused : ¬((Session.setOption b name v).run w).1.isOk = true := by
      rw [ran]
      exact Bool.false_ne_true
    rw [if_neg refused, ran]
    exact ⟨h.registry, h.running, h.tells⟩

theorem applyOptions (h : w.AfterSettings r [] w) (stores : b.StoresOptions r) (text : String) :
    w.AfterSettings r ((Operation.applyOptions text).settings b w)
      ((Session.applyOptions b text).run w).2 := by
  rw [Operation.settings, if_neg h.running, h.registry]
  refine Ends.outcome (P := fun _ => w.AfterSettings r _)
    (.mono (Session.ends_applyOptions (b := b) h.running text) ?_ ?_)
  all_goals
    rintro - w' ⟨events, rfl⟩
    refine ⟨h.registry, h.running, fun asked readsBack => ?_⟩
    dsimp only
    rw [h.registry, snd_applyText, stores.getValue_assignAll _ readsBack]

variable [Scalar α] [Numeral α]

/-- An operation that does not close the session adds its settings to what is told. -/
theorem perform (h : w.AfterSettings r [] w) (stores : b.StoresOptions r) {o : Operation α}
    (stays : ¬o.Closes) : w.AfterSettings r (o.settings b w) ((o.perform b).run w).2 := by
  have keeps (sets : ¬o.SetsOptions) : w.AfterSettings r [] ((o.perform b).run w).2 :=
    (survives stores).operation (preserves_solve stores) sets
      (fun closes => absurd closes (by simp [stays, stores.opens])) w h
  cases o with
  | setOption name v =>
    have step := h.setOption stores name v
    rwa [← Session.snd_run_andReturn _ fun _ => Reply.done] at step
  | applyOptions text =>
    have step := h.applyOptions stores text
    rwa [← Session.snd_run_andReturn _ Reply.count] at step
  | _ => exact keeps id

/-- Operations that do not close the session add their settings one after the other. -/
theorem performAll (h : w.AfterSettings r [] w) (stores : b.StoresOptions r)
    {ops : List (Operation α)} (stays : ∀ o ∈ ops, ¬o.Closes) :
    w.AfterSettings r (Session.settings b ops w) (Session.performAll b ops w) := by
  induction ops generalizing w with
  | nil => exact h
  | cons o rest ih =>
    rw [List.forall_mem_cons] at stays
    have step := h.perform stores stays.1
    exact step.trans (ih (.refl step.registry step.running) stays.2)

end World.AfterSettings

/-! ### What is told -/

section Told

variable {b : Backend σ α} {r : OptionRegistry σ} {w w' : World σ α}
  {settings : List (String × OptionValue)} {name : String} {o : SolverOption σ}

/-- A session can be created with the options of the backend. -/
theorem exists_create (solver : σ) (config : SessionConfig) (flags : StopFlags)
    (registered : b.registry = .ok r) :
    ∃ s, Session.create b solver config = .ok s ∧ s.solver = solver ∧
      World.AfterSettings r (s, flags) [] (s, flags) := by
  delta Session.create
  rw [registered]
  exact ⟨_, rfl, rfl, .refl rfl nofun⟩

namespace World.AfterSettings

/-- A registered option can be asked for with its type. -/
theorem run_getOption (h : w.AfterSettings r settings w') (stores : r.Stores)
    (found : r.find? name = some o) (readsBack : ∀ p ∈ settings, key p.1 = key name →
      p.2.ReadsBack) :
    (Session.getOption b o.type name).run w' =
      ((told (o.get w.1.solver) settings name).mapError
        fun e => ⟨b.longName w'.1.solver, .option e⟩, w') := by
  rw [Session.run_getOption h.running, h.registry, stores.get_eq_getValue found,
    h.tells name readsBack, getValue_of_find? found]

/-- A registered option can be set to any value of its type. -/
theorem isOk_setOption (h : w.AfterSettings r settings w') (stores : r.Stores)
    (found : r.find? name = some o) {v : OptionValue} (typed : v.type = o.type) :
    ((Session.setOption b name v).run w').1.isOk = true := by
  obtain ⟨s, written⟩ := stores.accepts found w'.1.solver v typed
  have set : r.set w'.1.solver name v = .ok s := by
    simp [OptionRegistry.set, find, found, typed, Except.bind, written]
  refine Ends.outcome (P := fun x _ => x.isOk = true)
    (.mono (Session.ends_setOption (b := b) h.running name v) (fun _ _ _ => rfl) ?_)
  rintro - _ ⟨refused, -⟩
  rw [h.registry] at refused
  exact absurd set (refused s)

end World.AfterSettings

end Told

end SolverBridge
