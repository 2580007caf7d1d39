import SolverBridge.Options.Settings
import SolverBridge.Proofs.OptionEffects

/-! The registry of options as a typed store. Options are declared with one of the three
bindings, and a registry is made by any sequence of declarations, of which those with a taken
name are rejected. A name finds the first option that was declared with it, in any case, and
no value is converted from one type to another.

Here the setters of a binding work on the state in place, so a failing one may leave a state
that it has touched. The registry's own setting forgets that state. When no failing setter
touches the state and every getter reads back what was stored, then neither does a failing
setting by name, and the value that was set is read under every spelling of the name. -/

namespace SolverBridge

variable {σ : Type}

/-- What a setter that works in place says, and the state that it leaves. -/
structure Attempt (ε σ : Type) where
  result : Except ε Unit
  state : σ

namespace Attempt

variable {ε ε' : Type}

/-- The state that is left, if the setter succeeded. -/
def settled (a : Attempt ε σ) : Except ε σ := a.result.map fun _ => a.state

def mapError (f : ε → ε') (a : Attempt ε σ) : Attempt ε' σ := ⟨a.result.mapError f, a.state⟩

/-- The attempt of a setter that keeps the old state when it fails. -/
def ofExcept (s : σ) : Except ε σ → Attempt ε σ
  | .ok s' => ⟨.ok (), s'⟩
  | .error e => ⟨.error e, s⟩

theorem state_ofExcept {s : σ} {x : Except ε σ} {e : ε} (h : (ofExcept s x).result = .error e) :
    (ofExcept s x).state = s := by
  cases x with
  | ok s' => cases h
  | error e => rfl

theorem settled_ofExcept (s : σ) (x : Except ε σ) : (ofExcept s x).settled = x := by
  cases x <;> rfl

theorem settled_mapError (f : ε → ε') (a : Attempt ε σ) :
    (a.mapError f).settled = a.settled.mapError f := by
  obtain ⟨_ | _, s⟩ := a <;> rfl

end Attempt

/-- How an option of a type is bound to the state. -/
inductive Binding (σ : Type) (t : OptionType)
  | stored (read : σ → t.Carrier) (write : σ → t.Carrier → σ)
  | checked (read : σ → t.Carrier) (write : σ → t.Carrier → Attempt Failure σ)
  | parameter (read : σ → Except Failure t.Carrier) (write : σ → t.Carrier → Attempt Failure σ)

namespace Binding

variable {t : OptionType}

def read : Binding σ t → σ → Except Failure t.Carrier
  | .stored read _, s => .ok (read s)
  | .checked read _, s => .ok (read s)
  | .parameter read _, s => read s

def write : Binding σ t → σ → t.Carrier → Attempt Failure σ
  | .stored _ write, s, x => ⟨.ok (), write s x⟩
  | .checked _ write, s, x => write s x
  | .parameter _ write, s, x => write s x

/-- The getter reads back what the setter stored, and a failing setter changes nothing. -/
structure Lawful (b : Binding σ t) : Prop where
  reads_back : ∀ s x, (b.write s x).result = .ok () → b.read (b.write s x).state = .ok x
  atomic : ∀ s x f, (b.write s x).result = .error f → (b.write s x).state = s

end Binding

/-- An entry in place of those of its key is found there, and the others are found as before. -/
theorem lookup_replaced {β : Type} (entries : List (String × β)) (key asked : String) (x : β) :
    (entries.filter (·.1 ≠ key) ++ [(key, x)]).lookup asked =
      if asked = key then some x else entries.lookup asked := by
  have first (y : β) (rest : List (String × β)) : ((key, y) :: rest).lookup asked =
      if asked = key then some y else rest.lookup asked := by
    rw [List.lookup_cons]
    by_cases same : asked = key
    · rw [if_pos same, same, beq_self_eq_true]
    · rw [if_neg same, beq_eq_false_iff_ne.2 same]
  induction entries with
  | nil => exact first x []
  | cons p rest ih =>
    obtain ⟨k, y⟩ := p
    by_cases here : k = key
    · subst here
      rw [List.filter_cons_of_neg (by simp), ih, first]
      split <;> rfl
    · rw [List.filter_cons_of_pos (by simpa using here), List.cons_append, List.lookup_cons, ih,
        List.lookup_cons]
      by_cases same : asked = key
      · rw [same, beq_eq_false_iff_ne.2 (Ne.symm here)]
      · rw [if_neg same, if_neg same]

namespace Settings

/-- The binding to the checked value of a type. -/
def checkedBinding (t : OptionType) : Binding Settings t :=
  .checked (·.checked t) fun s x => .ofExcept s (s.setChecked t x)

/-- The binding to a named parameter. -/
def parameterBinding (t : OptionType) (key : String) : Binding Settings t :=
  .parameter (·.parameter key t) fun s x => .ofExcept s (s.setParameter key t x)

theorem lawful_checkedBinding (t : OptionType) : (checkedBinding t).Lawful where
  atomic _ _ _ := Attempt.state_ofExcept
  reads_back s x h := by
    dsimp only [checkedBinding, Binding.write, Binding.read] at h ⊢
    cases t <;>
    · dsimp only [setChecked] at h ⊢
      split at h
      · cases h
      · rename_i taken
        rw [if_neg taken]
        rfl

/-- A parameter that was set is the only one under its key. -/
theorem lawful_parameterBinding (t : OptionType) (key : String) :
    (parameterBinding t key).Lawful where
  atomic _ _ _ := Attempt.state_ofExcept
  reads_back s x h := by
    dsimp only [parameterBinding, Binding.write, Binding.read] at h ⊢
    rw [setParameter] at h ⊢
    split at h
    · cases h
    · rename_i writable
      rw [if_neg writable]
      dsimp only [Attempt.ofExcept]
      rw [parameter, lookup_replaced, if_pos rfl]
      dsimp only
      rw [OptionValue.toCarrier?_ofCarrier]

end Settings

/-- What an option is registered with. -/
structure Declaration (σ : Type) where
  name : String
  description : String
  type : OptionType
  binding : Binding σ type

namespace Declaration

/-- The option as the registry keeps it. -/
def option (d : Declaration σ) : SolverOption σ :=
  match d.binding with
  | .stored read write => .stored d.name d.description d.type read write
  | .checked read write => .checked d.name d.description d.type read (write · · |>.settled)
  | .parameter read write => .parameter d.name d.description d.type read (write · · |>.settled)

/-- Sets the option in place. -/
def put (d : Declaration σ) (s : σ) (v : OptionValue) : Attempt OptionError σ :=
  match v.toCarrier? d.type with
  | some x => (d.binding.write s x).mapError fun _ => .invalidValue d.name v.text
  | none => ⟨.error (.typeMismatch d.name d.type v.type), s⟩

@[simp] theorem option_name (d : Declaration σ) : d.option.name = d.name := by
  obtain ⟨_, _, _, _ | _ | _⟩ := d <;> rfl

@[simp] theorem option_type (d : Declaration σ) : d.option.type = d.type := by
  obtain ⟨_, _, _, _ | _ | _⟩ := d <;> rfl

theorem option_get (d : Declaration σ) (s : σ) :
    d.option.get s = match d.binding.read s with
      | .ok x => .ok (.ofCarrier d.type x)
      | .error f => .error (.access d.name f.outermost) := by
  obtain ⟨name, description, t, b⟩ := d
  cases b with
  | stored | checked => rfl
  | parameter read write =>
    dsimp only [option, SolverOption.parameter, Binding.read]
    cases read s <;> rfl

/-- The option of the registry sets what the declaration sets in place. -/
theorem option_set (d : Declaration σ) (s : σ) (v : OptionValue) :
    d.option.set s v = (d.put s v).settled := by
  obtain ⟨name, description, t, b⟩ := d
  rw [put]
  cases b <;> dsimp only [option, SolverOption.stored, SolverOption.checked,
    SolverOption.parameter, SolverOption.setTyped, Binding.write]
  all_goals
    cases v.toCarrier? t with
    | none => rfl
    | some x => rw [Attempt.settled_mapError] <;> rfl

/-- The options of settings are those declared with the bindings of settings. -/
theorem option_checkedBinding (name description : String) (t : OptionType) :
    option ⟨name, description, t, Settings.checkedBinding t⟩ =
      Settings.checkedOption name description t := by
  simp only [option, Settings.checkedBinding, Attempt.settled_ofExcept]
  rfl

/-- A failing setting changes nothing if no setter does when it fails. -/
theorem put_of_error {d : Declaration σ} (lawful : d.binding.Lawful) {s : σ} {v : OptionValue}
    {e : OptionError} (h : (d.put s v).result = .error e) : (d.put s v).state = s := by
  rw [put] at h ⊢
  cases typed : v.toCarrier? d.type with
  | none => rfl
  | some x =>
    simp only [typed, Attempt.mapError] at h ⊢
    cases written : (d.binding.write s x).result with
    | error f => exact lawful.atomic s x f written
    | ok u =>
      rw [written] at h
      cases h

/-- The getter of the option reads back what was set in place. -/
theorem get_put {d : Declaration σ} (lawful : d.binding.Lawful) {s : σ} {v : OptionValue}
    (h : (d.put s v).result = .ok ()) : d.option.get (d.put s v).state = .ok v := by
  rw [put] at h ⊢
  cases typed : v.toCarrier? d.type with
  | none =>
    rw [typed] at h
    cases h
  | some x =>
    simp only [typed, Attempt.mapError] at h ⊢
    cases written : (d.binding.write s x).result with
    | error f =>
      rw [written] at h
      cases h
    | ok u => rw [option_get, lawful.reads_back s x written, OptionValue.eq_ofCarrier typed]

/-- Sets the option in place to a value, whose type is compared first. -/
def putTyped (d : Declaration σ) (s : σ) (v : OptionValue) : Attempt OptionError σ :=
  if v.type ≠ d.type then ⟨.error (.typeMismatch d.name d.type v.type), s⟩ else d.put s v

/-- Sets the option in place to the value that a text spells. -/
def putText (d : Declaration σ) (s : σ) (text : String) : Attempt OptionError σ :=
  match OptionValue.parse? d.type text with
  | some v => d.put s v
  | none => ⟨.error (.invalidValue d.name text), s⟩

theorem putTyped_of_error {d : Declaration σ} (lawful : d.binding.Lawful) {s : σ} {v : OptionValue}
    {e : OptionError} (h : (d.putTyped s v).result = .error e) : (d.putTyped s v).state = s := by
  rw [putTyped] at h ⊢
  split at h
  · rename_i mismatch
    rw [if_pos mismatch]
  · rename_i typed
    rw [if_neg typed]
    exact put_of_error lawful h

theorem putText_of_error {d : Declaration σ} (lawful : d.binding.Lawful) {s : σ} {text : String}
    {e : OptionError} (h : (d.putText s text).result = .error e) :
    (d.putText s text).state = s := by
  rw [putText] at h ⊢
  cases parsed : OptionValue.parse? d.type text with
  | none => rfl
  | some v =>
    rw [parsed] at h
    exact put_of_error lawful h

theorem get_putTyped {d : Declaration σ} (lawful : d.binding.Lawful) {s : σ} {v : OptionValue}
    (h : (d.putTyped s v).result = .ok ()) : d.option.get (d.putTyped s v).state = .ok v := by
  rw [putTyped] at h ⊢
  split at h
  · cases h
  · rename_i typed
    rw [if_neg typed]
    exact get_put lawful h

end Declaration

namespace OptionRegistry

/-! ### Registration -/

/-- Offers an option to the registry, which stays as it is when it rejects it. -/
def offer (r : OptionRegistry σ) (o : SolverOption σ) : OptionRegistry σ :=
  match r.register o with
  | .ok r' => r'
  | .error _ => r

/-- An option is registered under the name, in some case. -/
def Registers (r : OptionRegistry σ) (name : String) : Prop :=
  ∃ o ∈ r.options, key o.name = key name

/-- Every entry stands under the key of its option's name, and no two under the same. -/
structure Keyed (r : OptionRegistry σ) : Prop where
  keys : ∀ e ∈ r.entries, e.1 = key e.2.name
  nodup : (r.entries.map (·.1)).Nodup

variable {r : OptionRegistry σ}

theorem perm_insertEntry (e : String × SolverOption σ) (entries : List (String × SolverOption σ)) :
    (insertEntry e entries).Perm (e :: entries) := by
  induction entries with
  | nil => exact .refl _
  | cons f rest ih =>
    rw [insertEntry]
    split
    · exact .refl _
    · exact (ih.cons f).trans (.swap e f rest)

/-- Inserting a new key hides no other entry. -/
theorem lookup_insertEntry {e : String × SolverOption σ}
    {entries : List (String × SolverOption σ)} (new : entries.lookup e.1 = none) (k : String) :
    (insertEntry e entries).lookup k =
      (entries.lookup k).or (if e.1 = k then some e.2 else none) := by
  have front : ∀ l : List (String × SolverOption σ), l.lookup e.1 = none →
      (e :: l).lookup k = (l.lookup k).or (if e.1 = k then some e.2 else none) := by
    intro l absent
    by_cases same : e.1 = k
    · rw [← same, absent, List.lookup_cons, beq_self_eq_true, if_pos rfl, Option.none_or]
    · rw [List.lookup_cons, beq_eq_false_iff_ne.2 (Ne.symm same), if_neg same, Option.or_none]
  induction entries with
  | nil => exact front [] rfl
  | cons f rest ih =>
    rw [insertEntry]
    split
    · exact front _ new
    · rw [List.lookup_cons] at new ⊢
      rw [List.lookup_cons]
      split at new
      · cases new
      · rw [ih new]
        cases k == f.1 <;> rfl

theorem register_of_none {o : SolverOption σ} (free : r.find? o.name = none) :
    r.register o = .ok ⟨insertEntry (key o.name, o) r.entries⟩ := by
  simp [register, contains, free]

theorem register_of_isSome {o : SolverOption σ} (taken : (r.find? o.name).isSome) :
    r.register o = .error (.duplicate o.name) := by
  simp [register, contains, taken]

/-- What is offered is found under its name unless something else was found before. -/
theorem find?_offer (r : OptionRegistry σ) (o : SolverOption σ) (name : String) :
    (r.offer o).find? name =
      (r.find? name).or (if key o.name = key name then some o else none) := by
  cases taken : (r.find? o.name) with
  | none =>
    have new : r.entries.lookup (key o.name, o).1 = none := taken
    rw [offer, register_of_none taken]
    exact lookup_insertEntry new (key name)
  | some p =>
    rw [offer, register_of_isSome (taken ▸ rfl)]
    by_cases same : key o.name = key name
    · rw [find?, same] at taken
      rw [find?, taken, Option.some_or]
    · rw [if_neg same, Option.or_none]

/-- Of the options that are offered the first of a name is found. -/
theorem find?_foldl_offer (os : List (SolverOption σ)) (r : OptionRegistry σ) (name : String) :
    (os.foldl offer r).find? name =
      (r.find? name).or (os.find? fun o => key o.name = key name) := by
  induction os generalizing r with
  | nil => exact Option.or_none.symm
  | cons o rest ih =>
    rw [List.foldl_cons, ih, find?_offer, Option.or_assoc, List.find?_cons]
    by_cases same : key o.name = key name
    · rw [if_pos same, decide_eq_true same]
      rfl
    · rw [if_neg same, decide_eq_false same]
      rfl

theorem keyed_empty : (empty : OptionRegistry σ).Keyed :=
  ⟨fun _ h => absurd h List.not_mem_nil, List.nodup_nil⟩

namespace Keyed

theorem offer (keyed : r.Keyed) (o : SolverOption σ) : (r.offer o).Keyed := by
  cases taken : r.find? o.name with
  | some p => rwa [OptionRegistry.offer, register_of_isSome (taken ▸ rfl)]
  | none =>
    rw [OptionRegistry.offer, register_of_none taken]
    have entries := perm_insertEntry (key o.name, o) r.entries
    refine ⟨fun e h => ?_, ?_⟩
    · rcases mem_insertEntry h with rfl | h
      · rfl
      · exact keyed.keys e h
    · rw [(entries.map (·.1)).nodup_iff]
      refine List.nodup_cons.2 ⟨fun h => ?_, keyed.nodup⟩
      obtain ⟨e, he, same⟩ := List.mem_map.1 h
      have absent := List.lookup_eq_none_iff.1 taken e he
      exact bne_iff_ne.1 absent same.symm

theorem isSome_find? (keyed : r.Keyed) (name : String) :
    (r.find? name).isSome ↔ r.Registers name := by
  simp only [find?, List.lookup_isSome_iff, beq_iff_eq, Registers, options, List.mem_map]
  constructor
  · rintro ⟨e, he, same⟩
    exact ⟨e.2, ⟨e, he, rfl⟩, (keyed.keys e he).symm.trans same.symm⟩
  · rintro ⟨o, ⟨e, he, rfl⟩, same⟩
    exact ⟨e, he, same.symm.trans (keyed.keys e he).symm⟩

theorem pairwise_options (keyed : r.Keyed) :
    r.options.Pairwise fun o p => key o.name ≠ key p.name := by
  have nodup := keyed.nodup
  rw [List.map_congr_left keyed.keys] at nodup
  rw [options, List.pairwise_map]
  exact List.pairwise_map.1 nodup

end Keyed

/-! ### Types -/

theorem set_of_mismatch {s : σ} {name : String} {v : OptionValue}
    {o : SolverOption σ} (found : r.find? name = some o) (other : v.type ≠ o.type) :
    r.set s name v = .error (.typeMismatch o.name o.type v.type) := by
  rw [set, find, found]
  exact if_pos other

theorem get_of_mismatch {s : σ} {name : String} {t : OptionType}
    {o : SolverOption σ} (found : r.find? name = some o) (other : t ≠ o.type) :
    r.get s t name = .error (.typeMismatch o.name o.type t) := by
  rw [get, find, found]
  exact if_pos other.symm

end OptionRegistry

/-- The option that was asked for is known, whatever else goes wrong. -/
def Finds {α : Type} (x : Except OptionError α) : Prop := ∀ name, x ≠ .error (.unknown name)

namespace Declaration

open OptionRegistry

/-! ### Registries of declarations -/

/-- The registry after the declarations were made one after the other. -/
def registry (ds : List (Declaration σ)) : OptionRegistry σ :=
  ds.foldl (fun r d => r.offer d.option) .empty

/-- The declaration that a name stands for. -/
def first? (ds : List (Declaration σ)) (name : String) : Option (Declaration σ) :=
  ds.find? fun d => key d.name = key name

variable {ds : List (Declaration σ)} {d : Declaration σ} {s : σ} {name : String}

theorem registry_concat (ds : List (Declaration σ)) (d : Declaration σ) :
    registry (ds ++ [d]) = (registry ds).offer d.option := by
  rw [registry, List.foldl_append]
  rfl

theorem keyed_registry (ds : List (Declaration σ)) : (registry ds).Keyed :=
  List.foldlRecOn ds _ keyed_empty fun _ keyed d _ => keyed.offer d.option

/-- The first declaration of a name wins. -/
theorem find?_registry (ds : List (Declaration σ)) (name : String) :
    (registry ds).find? name = (first? ds name).map option := by
  rw [registry, ← List.foldl_map, find?_foldl_offer, List.find?_map, first?]
  simp only [Function.comp_def, option_name]
  rfl

theorem register_of_registers (taken : (registry ds).Registers d.name) :
    (registry ds).register d.option = .error (.duplicate d.name) := by
  rw [← (keyed_registry ds).isSome_find?, ← d.option_name] at taken
  rw [register_of_isSome taken, option_name]

theorem register_of_not_registers (free : ¬(registry ds).Registers d.name) :
    (registry ds).register d.option = .ok (registry (ds ++ [d])) ∧
      (registry (ds ++ [d])).options.Perm (d.option :: (registry ds).options) := by
  rw [← (keyed_registry ds).isSome_find?, ← d.option_name, Bool.not_eq_true,
    Option.isSome_eq_false_iff, Option.isNone_iff_eq_none] at free
  have added := register_of_none free
  rw [registry_concat, offer, added]
  exact ⟨rfl, (perm_insertEntry _ _).map _⟩

/-! ### Lookup -/

theorem finds_get (d : Declaration σ) (s : σ) : Finds (d.option.get s) := by
  rw [option_get]
  split <;> nofun

theorem finds_set (d : Declaration σ) (s : σ) (v : OptionValue) : Finds (d.option.set s v) := by
  rw [option_set, put]
  split
  · rw [Attempt.settled_mapError]
    cases (d.binding.write s _).settled <;> nofun
  · nofun

/-- An operation on the option of a name knows it exactly when the name is registered. -/
theorem finds_bind_iff {α : Type} {f : SolverOption σ → Except OptionError α}
    (knows : ∀ d : Declaration σ, Finds (f d.option)) (ds : List (Declaration σ)) (name : String) :
    Finds (((registry ds).find name).bind f) ↔ (registry ds).Registers name := by
  rw [← (keyed_registry ds).isSome_find?, find, find?_registry]
  cases first? ds name with
  | none => exact iff_of_false (fun h => h name rfl) Bool.false_ne_true
  | some d => exact iff_of_true (knows d) rfl

theorem finds_find_iff : Finds ((registry ds).find name) ↔ (registry ds).Registers name := by
  have h := finds_bind_iff (f := .ok) (fun d => nofun) ds name
  cases found : (registry ds).find name <;> rwa [found] at h

theorem finds_getValue_iff :
    Finds ((registry ds).getValue s name) ↔ (registry ds).Registers name :=
  finds_bind_iff (fun d => finds_get d s) ds name

theorem finds_get_iff {t : OptionType} :
    Finds ((registry ds).get s t name) ↔ (registry ds).Registers name := by
  refine finds_bind_iff (fun d => ?_) ds name
  have known := finds_get d s
  split
  · nofun
  · cases got : d.option.get s with
    | error e =>
      rw [got] at known
      exact known
    | ok v =>
      dsimp only [Except.bind]
      split <;> nofun

theorem finds_set_iff {v : OptionValue} :
    Finds ((registry ds).set s name v) ↔ (registry ds).Registers name := by
  refine finds_bind_iff (fun d => ?_) ds name
  split
  · nofun
  · exact finds_set d s v

theorem finds_setText_iff {text : String} :
    Finds ((registry ds).setText s name text) ↔ (registry ds).Registers name := by
  refine finds_bind_iff (fun d => ?_) ds name
  split
  · exact finds_set d s _
  · nofun

/-! ### Setting in place -/

/-- Works in place on the declaration of a name. -/
def perform (ds : List (Declaration σ)) (s : σ) (name : String)
    (f : Declaration σ → Attempt OptionError σ) : Attempt OptionError σ :=
  match first? ds name with
  | some d => f d
  | none => ⟨.error (.unknown name), s⟩

/-- Sets an option by its name, in place. -/
def putAt (ds : List (Declaration σ)) (s : σ) (name : String) (v : OptionValue) :
    Attempt OptionError σ :=
  perform ds s name (·.putTyped s v)

/-- Sets an option by its name to the value that a text spells, in place. -/
def putTextAt (ds : List (Declaration σ)) (s : σ) (name text : String) : Attempt OptionError σ :=
  perform ds s name (·.putText s text)

theorem settled_perform {f : Declaration σ → Attempt OptionError σ}
    {g : SolverOption σ → Except OptionError σ} (h : ∀ d, g d.option = (f d).settled) :
    ((registry ds).find name).bind g = (perform ds s name f).settled := by
  rw [find, find?_registry, perform]
  cases first? ds name with
  | none => rfl
  | some d => exact h d

theorem state_perform {f : Declaration σ → Attempt OptionError σ} {e : OptionError}
    (kept : ∀ d ∈ ds, (f d).result = .error e → (f d).state = s)
    (h : (perform ds s name f).result = .error e) : (perform ds s name f).state = s := by
  rw [perform] at h ⊢
  cases found : first? ds name with
  | none => rfl
  | some d =>
    rw [found] at h
    exact kept d (List.mem_of_find?_eq_some found) h

/-- The registry's setting is the one in place, without the state that a failing setter
leaves. -/
theorem set_registry (ds : List (Declaration σ)) (s : σ) (name : String) (v : OptionValue) :
    (registry ds).set s name v = (putAt ds s name v).settled := by
  refine settled_perform fun d => ?_
  rw [putTyped, option_name, option_type]
  split
  · rfl
  · exact option_set d s v

theorem setText_registry (ds : List (Declaration σ)) (s : σ) (name text : String) :
    (registry ds).setText s name text = (putTextAt ds s name text).settled := by
  refine settled_perform fun d => ?_
  rw [putText, option_name, option_type]
  cases OptionValue.parse? d.type text with
  | none => rfl
  | some v => exact option_set d s v

theorem putAt_of_error (lawful : ∀ d ∈ ds, d.binding.Lawful) {v : OptionValue} {e : OptionError}
    (h : (putAt ds s name v).result = .error e) : (putAt ds s name v).state = s :=
  state_perform (fun d hd => putTyped_of_error (lawful d hd)) h

theorem putTextAt_of_error (lawful : ∀ d ∈ ds, d.binding.Lawful) {text : String} {e : OptionError}
    (h : (putTextAt ds s name text).result = .error e) : (putTextAt ds s name text).state = s :=
  state_perform (fun d hd => putText_of_error (lawful d hd)) h

/-- A value that was set is read under every spelling of the name. -/
theorem getValue_putAt (lawful : ∀ d ∈ ds, d.binding.Lawful) {v : OptionValue}
    (h : (putAt ds s name v).result = .ok ()) {spelling : String} (same : key spelling = key name) :
    (registry ds).getValue (putAt ds s name v).state spelling = .ok v := by
  have asked : first? ds spelling = first? ds name := by rw [first?, first?, same]
  rw [putAt, perform] at h ⊢
  rw [getValue, find, find?_registry, asked]
  cases found : first? ds name with
  | none =>
    rw [found] at h
    cases h
  | some d =>
    rw [found] at h
    exact get_putTyped (lawful d (List.mem_of_find?_eq_some found)) h

/-- The registry of any declarations is a store of typed options whose names do not depend on
case. -/
structure TypedStore (ds : List (Declaration σ)) : Prop where
  /-- No two options have names that differ in case only. -/
  distinct : (registry ds).options.Pairwise fun o p => key o.name ≠ key p.name
  /-- A declaration with a taken name is rejected and changes nothing. -/
  rejected : ∀ d, (registry ds).Registers d.name →
    (registry ds).register d.option = .error (.duplicate d.name) ∧
      registry (ds ++ [d]) = registry ds
  /-- Any other declaration adds its option. -/
  accepted : ∀ d, ¬(registry ds).Registers d.name →
    (registry ds).register d.option = .ok (registry (ds ++ [d])) ∧
      (registry (ds ++ [d])).options.Perm (d.option :: (registry ds).options)
  first_wins : ∀ name, (registry ds).find? name = (first? ds name).map option
  contains : ∀ name, (registry ds).contains name = true ↔ (registry ds).Registers name
  finds : ∀ name, Finds ((registry ds).find name) ↔ (registry ds).Registers name
  finds_value : ∀ s name, Finds ((registry ds).getValue s name) ↔ (registry ds).Registers name
  finds_typed : ∀ s t name, Finds ((registry ds).get s t name) ↔ (registry ds).Registers name
  finds_set : ∀ s name v, Finds ((registry ds).set s name v) ↔ (registry ds).Registers name
  finds_text : ∀ s name text,
    Finds ((registry ds).setText s name text) ↔ (registry ds).Registers name
  /-- No value of another type is taken. -/
  set_mismatch : ∀ s name v o, (registry ds).find? name = some o → v.type ≠ o.type →
    (registry ds).set s name v = .error (.typeMismatch o.name o.type v.type)
  /-- No value is read as another type. -/
  get_mismatch : ∀ s t name o, (registry ds).find? name = some o → t ≠ o.type →
    (registry ds).get s t name = .error (.typeMismatch o.name o.type t)
  /-- Setting is what happens in place, without the state that a failing setter leaves. -/
  set : ∀ s name v, (registry ds).set s name v = (putAt ds s name v).settled
  setText : ∀ s name text, (registry ds).setText s name text = (putTextAt ds s name text).settled

/-- Setting an option in place happens fully or not at all. -/
structure Transactional (ds : List (Declaration σ)) : Prop where
  set : ∀ s name v e, (putAt ds s name v).result = .error e → (putAt ds s name v).state = s
  setText : ∀ s name text e,
    (putTextAt ds s name text).result = .error e → (putTextAt ds s name text).state = s
  /-- What was set is read under every spelling of the name. -/
  reads_back : ∀ s name v, (putAt ds s name v).result = .ok () →
    ∀ spelling, key spelling = key name →
      (registry ds).getValue (putAt ds s name v).state spelling = .ok v

/-- Any sequence of declarations makes a typed store, and one whose settings happen fully or not
at all when every binding is lawful. -/
theorem typed_store (ds : List (Declaration σ)) :
    TypedStore ds ∧ ((∀ d ∈ ds, d.binding.Lawful) → Transactional ds) := by
  constructor
  · exact {
      distinct := (keyed_registry ds).pairwise_options
      rejected := fun d taken => by
        have duplicate := register_of_registers taken
        refine ⟨duplicate, ?_⟩
        rw [registry_concat, offer, duplicate]
      accepted := fun d free => register_of_not_registers free
      first_wins := find?_registry ds
      contains := (keyed_registry ds).isSome_find?
      finds := fun _ => finds_find_iff
      finds_value := fun _ _ => finds_getValue_iff
      finds_typed := fun _ _ _ => finds_get_iff
      finds_set := fun _ _ _ => finds_set_iff
      finds_text := fun _ _ _ => finds_setText_iff
      set_mismatch := fun _ _ _ _ => set_of_mismatch
      get_mismatch := fun _ _ _ _ => get_of_mismatch
      set := set_registry ds
      setText := setText_registry ds }
  · exact fun lawful => {
      set := fun _ _ _ _ => putAt_of_error lawful
      setText := fun _ _ _ _ => putTextAt_of_error lawful
      reads_back := fun _ _ _ taken _ => getValue_putAt lawful taken }

/-- A binding of each kind, and a declaration whose name is taken. -/
theorem typed_store_settings :
    ∃ ds : List (Declaration Settings),
      (∀ d ∈ ds, d.binding.Lawful) ∧ ds.length = 4 ∧
        (registry ds).options.map (fun o => (o.name, o.type)) =
          [("LogFile", .string), ("Seed", .int), ("TimeLimit", .double)] ∧
        (registry ds).find? "SEED" = some (Settings.checkedOption "Seed" "" .int) ∧
        (registry ds).getValue (putAt ds {} "seed" (.int 7)).state "SEED" = .ok (.int 7) ∧
        (putAt ds {} "sEED" (.int (-1))).state = {} ∧
        ∀ x, (registry ds).set {} "SEED" (.double x) =
          .error (.typeMismatch "Seed" .int .double) := by
  let ds : List (Declaration Settings) :=
    [⟨"TimeLimit", "", .double, Settings.parameterBinding .double "time"⟩,
      ⟨"LogFile", "", .string, .stored (·.checkedString) fun s x => { s with checkedString := x }⟩,
      ⟨"Seed", "", .int, Settings.checkedBinding .int⟩,
      ⟨"SEED", "", .double, Settings.checkedBinding .double⟩]
  have lawful : ∀ d ∈ ds, d.binding.Lawful := by
    simp only [ds, List.forall_mem_cons]
    exact ⟨Settings.lawful_parameterBinding _ _, ⟨fun _ _ _ => rfl, nofun⟩,
      Settings.lawful_checkedBinding _, Settings.lawful_checkedBinding _, nofun⟩
  obtain ⟨store, transactional⟩ := typed_store ds
  have whole := transactional lawful
  have found : (registry ds).find? "SEED" = some (Settings.checkedOption "Seed" "" .int) := by
    have seed : key "SEED" = "seed" ∧ key "Seed" = "seed" := by decide +kernel
    have others : key "TimeLimit" ≠ "seed" ∧ key "LogFile" ≠ "seed" := by decide +kernel
    rw [store.first_wins]
    simp [ds, first?, seed, others, option_checkedBinding]
  refine ⟨ds, lawful, rfl, by decide +kernel, found, ?_, ?_, fun x => ?_⟩
  · have taken : (putAt ds {} "seed" (.int 7)).result.isOk = true := by decide +kernel
    cases h : (putAt ds {} "seed" (.int 7)).result with
    | error e =>
      rw [h] at taken
      cases taken
    | ok u => exact whole.reads_back {} "seed" (.int 7) h "SEED" (by decide +kernel)
  · have refused : (putAt ds {} "sEED" (.int (-1))).result.isOk = false := by decide +kernel
    cases h : (putAt ds {} "sEED" (.int (-1))).result with
    | error e => exact whole.set {} "sEED" (.int (-1)) e h
    | ok u =>
      rw [h] at refused
      cases refused
  · exact store.set_mismatch {} "SEED" (.double x) _ found nofun

end Declaration

end SolverBridge
