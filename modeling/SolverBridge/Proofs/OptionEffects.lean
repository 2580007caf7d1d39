import SolverBridge.Backend.Basic
import SolverBridge.Options.Assignment

/-! What setting options leaves alone. When no option of a registry touches a part of the
state, that part is the same after every setting: by value, by text or by an option string,
whether or not it succeeded. -/

namespace SolverBridge

variable {σ β : Type} {part : σ → β}

/-- Setting the option leaves a part of the state as it is. -/
def SolverOption.Keeps (o : SolverOption σ) (part : σ → β) : Prop :=
  ∀ s v s', o.set s v = .ok s' → part s' = part s

/-- No option of the registry touches a part of the state. -/
def OptionRegistry.Keeps (r : OptionRegistry σ) (part : σ → β) : Prop :=
  ∀ e ∈ r.entries, e.2.Keeps part

namespace SolverOption

variable {name description : String} {t : OptionType}

theorem exists_of_setTyped {v : OptionValue} {write : t.Carrier → Except OptionError σ} {s' : σ}
    (h : setTyped name t v write = .ok s') : ∃ x, v = .ofCarrier t x ∧ write x = .ok s' := by
  rw [setTyped] at h
  split at h
  · exact ⟨_, OptionValue.eq_ofCarrier ‹_›, h⟩
  · cases h

theorem setTyped_ofCarrier (x : t.Carrier) (write : t.Carrier → Except OptionError σ) :
    setTyped name t (.ofCarrier t x) write = write x := by
  rw [setTyped, OptionValue.toCarrier?_ofCarrier]

theorem exists_of_set_ofParameter {a : ParameterAccess σ} {key : String} {s s' : σ}
    {v : OptionValue} (h : (ofParameter a name description t key).set s v = .ok s') :
    ∃ x, v = .ofCarrier t x ∧ a.write s key t x = .ok s' := by
  obtain ⟨x, rfl, written⟩ := exists_of_setTyped h
  refine ⟨x, rfl, ?_⟩
  dsimp only at written
  cases taken : a.write s key t x <;> rw [taken] at written <;> cases written
  rfl

theorem keeps_stored {read : σ → t.Carrier} {write : σ → t.Carrier → σ}
    (h : ∀ s x, part (write s x) = part s) :
    (stored name description t read write).Keeps part := by
  intro s v s' e
  obtain ⟨x, -, written⟩ := exists_of_setTyped e
  cases written
  exact h s x

theorem keeps_ofParameter {a : ParameterAccess σ} {key : String}
    (h : ∀ s x s', a.write s key t x = .ok s' → part s' = part s) :
    (ofParameter a name description t key).Keeps part := by
  intro s v s' e
  obtain ⟨x, -, written⟩ := exists_of_set_ofParameter e
  exact h s x s' written

end SolverOption

namespace OptionRegistry

theorem mem_insertEntry {e f : String × SolverOption σ} {entries : List (String × SolverOption σ)}
    (h : f ∈ insertEntry e entries) : f = e ∨ f ∈ entries := by
  induction entries with
  | nil => exact .inl (List.mem_singleton.1 h)
  | cons g rest ih =>
    rw [insertEntry] at h
    split at h
    · exact List.mem_cons.1 h
    · rcases List.mem_cons.1 h with rfl | h
      · exact .inr List.mem_cons_self
      · exact (ih h).imp_right (List.mem_cons_of_mem g)

theorem keeps_empty : (empty : OptionRegistry σ).Keeps part :=
  fun _ h => absurd h List.not_mem_nil

/-! ### What a setting did -/

section Inversion

variable {r : OptionRegistry σ} {s s' : σ} {name : String}

theorem find_eq_ok {o : SolverOption σ} (h : r.find name = .ok o) : r.find? name = some o := by
  rw [find] at h
  split at h
  · cases h
    assumption
  · cases h

theorem exists_of_set {v : OptionValue} (h : r.set s name v = .ok s') :
    ∃ o, r.find? name = some o ∧ v.type = o.type ∧ o.set s v = .ok s' := by
  rw [set] at h
  cases found : r.find name with
  | error e =>
    rw [found] at h
    cases h
  | ok o =>
    rw [found, Except.bind] at h
    split at h
    · cases h
    · exact ⟨o, find_eq_ok found, Decidable.not_not.1 ‹_›, h⟩

theorem exists_of_setText {text : String} (h : r.setText s name text = .ok s') :
    ∃ o v, r.find? name = some o ∧ OptionValue.parse? o.type text = some v ∧
      o.set s v = .ok s' := by
  rw [setText] at h
  cases found : r.find name with
  | error e =>
    rw [found] at h
    cases h
  | ok o =>
    rw [found, Except.bind] at h
    split at h
    · exact ⟨o, _, find_eq_ok found, ‹_›, h⟩
    · cases h

theorem setText_of_assign {a : Assignment} (h : r.assign s a = .ok s') :
    r.setText s (String.ofList a.name) (String.ofList a.value) = .ok s' := by
  rw [assign] at h
  cases checked : a.check with
  | error e =>
    rw [checked] at h
    cases h
  | ok _ => rwa [checked] at h

/-- An option string leaves what its assignments leave. -/
theorem snd_applyText (r : OptionRegistry σ) (s : σ) (text : String) :
    (r.applyText s text).2 = (r.assignAll s (Assignment.scan text).1).2 := by
  rw [applyText]
  dsimp only
  split <;> rename_i e <;> rw [e]

end Inversion

namespace Keeps

variable {r r' : OptionRegistry σ} {s s' : σ}

/-- What is registered up to the first duplicate touches the part no more than all that was
given. -/
theorem registerAll {os : List (SolverOption σ)} (hr : r.Keeps part)
    (ho : ∀ o ∈ os, o.Keeps part) : (r.registerAll os).2.Keeps part := by
  induction os generalizing r with
  | nil => exact hr
  | cons o rest ih =>
    rw [List.forall_mem_cons] at ho
    rw [OptionRegistry.registerAll]
    split
    · rename_i added e
      rw [register] at e
      split at e
      · cases e
      · cases e
        refine ih (fun f hf => ?_) ho.2
        rcases mem_insertEntry hf with rfl | hf
        · exact ho.1
        · exact hr f hf
    · exact hr

/-- The options of a backend, shared and own. -/
theorem ofBackend {α : Type} {b : Backend σ α} (h : b.registry = .ok r)
    (ho : ∀ o ∈ b.sharedOptions ++ b.ownOptions, o.Keeps part) : r.Keeps part := by
  have all := keeps_empty.registerAll ho
  delta Backend.registry at h
  split at h
  · rename_i e
    cases h
    rwa [e] at all
  · cases h

theorem find? (hr : r.Keeps part) {name : String} {o : SolverOption σ}
    (h : r.find? name = some o) : o.Keeps part := by
  obtain ⟨before, after, entries, -⟩ := List.lookup_eq_some_iff.1 h
  exact hr (_, _) (entries ▸ List.mem_append_right before List.mem_cons_self)

theorem set (hr : r.Keeps part) {name : String} {v : OptionValue}
    (h : r.set s name v = .ok s') : part s' = part s := by
  obtain ⟨o, found, -, taken⟩ := exists_of_set h
  exact hr.find? found s v s' taken

theorem setText (hr : r.Keeps part) {name text : String} (h : r.setText s name text = .ok s') :
    part s' = part s := by
  obtain ⟨o, v, found, -, taken⟩ := exists_of_setText h
  exact hr.find? found s v s' taken

theorem assignAll (hr : r.Keeps part) (as : List Assignment) :
    part (r.assignAll s as).2 = part s := by
  induction as generalizing s with
  | nil => rfl
  | cons a rest ih =>
    rw [OptionRegistry.assignAll]
    split
    · rename_i t e
      rw [ih, hr.setText (setText_of_assign e)]
    · rfl

theorem applyText (hr : r.Keeps part) (text : String) :
    part (r.applyText s text).2 = part s := by
  rw [snd_applyText]
  exact hr.assignAll _

end Keeps

end OptionRegistry

end SolverBridge
