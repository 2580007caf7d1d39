import Mathlib.Data.List.Forall2
import Mathlib.Data.List.Pairwise
import SolverBridge.Proofs.CbcColumns
import SolverBridge.Proofs.NumberText
import SolverBridge.Proofs.OptionSessions

/-! The options of the CBC backend as a store. Each option is kept in a slot of its own: a field of
the state, or the text of a parameter under its native name. What an option tells depends on its
slot alone, setting it changes no other slot, and no request changes any. The parameters are told
from their texts, so a number comes back when its text is read back. Main statement: in a session
that is not closed every option tells what it was set to last, and before that its default or, for
a native parameter, that there is none. -/

namespace SolverBridge

open OptionRegistry

variable {α : Type}

/-! ### Settings -/

/-- What a CBC backend keeps of its options. -/
structure CbcSettings where
  base : BaseOptions
  roundDigits : Int64
  parameters : List (String × String)

def CbcState.settings (s : CbcState α) : CbcSettings := ⟨s.base, s.roundDigits, s.parameters⟩

/-- Where an option is kept. -/
inductive CbcSlot
  | timing
  | exportFile
  | iisFind
  | returnMipGap
  | roundDigits
  | parameter (key : String)
  deriving DecidableEq

/-- What a slot holds. -/
def CbcSettings.slot (s : CbcSettings) : CbcSlot → Option OptionValue
  | .timing => some (.int s.base.timing)
  | .exportFile => some (.string s.base.exportFile)
  | .iisFind => some (.int s.base.iisFind)
  | .returnMipGap => some (.int s.base.returnMipGap)
  | .roundDigits => some (.int s.roundDigits)
  | .parameter key => (s.parameters.lookup key).map .string

namespace Cbc

/-! ### Slots -/

/-- The option is kept in the slot. -/
structure KeptIn (o : SolverOption (CbcState α)) (c : CbcSlot) : Prop where
  typed : ∀ {s v}, o.get s = .ok v → v.type = o.type
  accepts : ∀ s v, v.type = o.type → ∃ s', o.set s v = .ok s'
  reads_back : ∀ {s v s'}, v.ReadsBack → o.set s v = .ok s' → o.get s' = .ok v
  reads : ∀ {s s'}, s'.settings.slot c = s.settings.slot c → o.get s' = o.get s
  writes : ∀ {s v s'}, o.set s v = .ok s' →
    ∀ d, d ≠ c → s'.settings.slot d = s.settings.slot d

/-- Options in different slots do not touch each other. -/
theorem KeptIn.keeps {o p : SolverOption (CbcState α)} {c d : CbcSlot} (ho : KeptIn o c)
    (hp : KeptIn p d) (apart : d ≠ c) : o.Keeps p.get :=
  fun _ _ _ set => hp.reads (ho.writes set d apart)

theorem keptIn_stored {name description : String} {t : OptionType}
    {read : CbcState α → t.Carrier} {write : CbcState α → t.Carrier → CbcState α} {c : CbcSlot}
    (back : ∀ s x, read (write s x) = x)
    (slot : ∀ s : CbcState α, s.settings.slot c = some (.ofCarrier t (read s)))
    (writes : ∀ s x d, d ≠ c → (write s x).settings.slot d = s.settings.slot d) :
    KeptIn (.stored name description t read write) c where
  typed h := by
    cases h
    exact OptionValue.type_ofCarrier _ _
  accepts s v h := by
    obtain ⟨x, hx⟩ := OptionValue.exists_eq_ofCarrier h
    exact ⟨write s x, hx ▸ SolverOption.setTyped_ofCarrier x _⟩
  reads_back _ h := by
    obtain ⟨x, rfl, written⟩ := SolverOption.exists_of_setTyped h
    cases written
    dsimp only [SolverOption.stored]
    rw [back]
  reads h := by
    rw [slot, slot] at h
    exact congrArg Except.ok (Option.some.inj h)
  writes h d apart := by
    obtain ⟨x, -, written⟩ := SolverOption.exists_of_setTyped h
    cases written
    exact writes _ x d apart

section Parameters

variable {s s' : CbcState α} {key : String} {t : OptionType} {x : t.Carrier}

/-- Other parameters stay, and one that is set is the only one under its key. -/
theorem lookup_setParameter (written : setParameter s key t x = .ok s') (asked : String) :
    s'.parameters.lookup asked =
      if asked = key then some (OptionValue.ofCarrier t x).text else s.parameters.lookup asked := by
  cases written
  exact lookup_replaced _ _ _ _

theorem settings_setParameter (written : setParameter s key t x = .ok s') (d : CbcSlot)
    (apart : d ≠ .parameter key) : s'.settings.slot d = s.settings.slot d := by
  cases d with
  | parameter asked =>
    have other : asked ≠ key := by simpa using apart
    simp only [CbcSettings.slot, CbcState.settings]
    rw [lookup_setParameter written, if_neg other]
  | _ =>
    cases written
    rfl

/-- A parameter is told from its text. -/
theorem parameter_setParameter (written : setParameter s key t x = .ok s')
    (readsBack : (OptionValue.ofCarrier t x).ReadsBack) : parameter s' key t = .ok x := by
  rw [parameter, lookup_setParameter written, if_pos rfl]
  have back : OptionValue.ofText? t (OptionValue.ofCarrier t x).text = some x := by
    cases t with
    | int => exact Decimal.int64?_toString x
    | double => exact readsBack
    | string => rfl
  simp only [back]

theorem keptIn_parameter (name description : String) (t : OptionType) (key : String) :
    KeptIn (α := α) (.ofParameter access name description t key) (.parameter key) where
  typed {s v} h := by
    dsimp only [SolverOption.ofParameter, SolverOption.parameter] at h
    split at h <;> cases h
    exact OptionValue.type_ofCarrier _ _
  accepts s v h := by
    obtain ⟨x, rfl⟩ := OptionValue.exists_eq_ofCarrier h
    exact ⟨_, SolverOption.setTyped_ofCarrier x _⟩
  reads_back readsBack h := by
    obtain ⟨x, rfl, written⟩ := SolverOption.exists_of_set_ofParameter h
    dsimp only [SolverOption.ofParameter, SolverOption.parameter, access]
    rw [parameter_setParameter written readsBack]
  reads {s s'} h := by
    have same : s'.parameters.lookup key = s.parameters.lookup key :=
      Option.map_injective (fun _ _ h => OptionValue.string.inj h) h
    dsimp only [SolverOption.ofParameter, SolverOption.parameter, access]
    rw [parameter, parameter, same]
  writes h := by
    obtain ⟨x, -, written⟩ := SolverOption.exists_of_set_ofParameter h
    exact settings_setParameter written

end Parameters

theorem exists_keptIn {os : List (SolverOption (CbcState α))} {cs : List CbcSlot}
    (kept : List.Forall₂ KeptIn os cs) : ∀ o ∈ os, ∃ c ∈ cs, KeptIn o c := by
  induction kept with
  | nil => exact fun _ h => absurd h List.not_mem_nil
  | cons first rest ih =>
    rw [List.forall_mem_cons]
    exact ⟨⟨_, List.mem_cons_self, first⟩, fun o ho =>
      (ih o ho).imp fun _ h => h.imp_left (List.mem_cons_of_mem _)⟩

/-- Options do not touch each other when no two are kept in one slot. -/
theorem pairwise_keeps {os : List (SolverOption (CbcState α))} {cs : List CbcSlot}
    (kept : List.Forall₂ KeptIn os cs) (nodup : cs.Nodup) :
    os.Pairwise fun o p => o.Keeps p.get ∧ p.Keeps o.get := by
  induction kept with
  | nil => exact .nil
  | cons first rest ih =>
    rw [List.nodup_cons] at nodup
    refine .cons (fun p hp => ?_) (ih nodup.2)
    obtain ⟨d, hd, keptIn⟩ := exists_keptIn rest p hp
    have apart : d ≠ _ := ne_of_mem_of_not_mem hd nodup.1
    exact ⟨first.keeps keptIn apart, keptIn.keeps first apart.symm⟩

/-! ### All options -/

/-- An option, and what it tells before it is set. -/
structure Entry where
  name : String
  type : OptionType
  initial : Except OptionError OptionValue

/-- An option for a native parameter, for which the solver has a default of its own. -/
def Entry.ofParameter (name : String) (t : OptionType) (key : String) : Entry :=
  ⟨name, t, .error (.access name s!"CBC parameter {key} uses the solver default")⟩

/-- The options of the backend. -/
def entries : List Entry :=
  [⟨"timing", .int, .ok (.int 0)⟩, ⟨"writeprob", .string, .ok (.string "")⟩,
    ⟨"iisfind", .int, .ok (.int 0)⟩, ⟨"return_mipgap", .int, .ok (.int 0)⟩,
    .ofParameter "timelim" .double "sec", .ofParameter "threads" .int "threads",
    .ofParameter "outlev" .int "log", .ofParameter "maxnodes" .int "maxN",
    .ofParameter "mipgap" .double "ratio", .ofParameter "cuts" .string "cuts",
    ⟨"round_digits", .int, .ok (.int 8)⟩]

/-- The slots of the options, in the order of these. -/
def slots : List CbcSlot :=
  [.timing, .exportFile, .iisFind, .returnMipGap, .parameter "sec", .parameter "threads",
    .parameter "log", .parameter "maxN", .parameter "ratio", .parameter "cuts", .roundDigits]

section Options

variable [Scalar α] [Numeral α] {native : CbcState α → CbcResult α}

/-- The options that are registered. -/
def allOptions (native : CbcState α → CbcResult α) : List (SolverOption (CbcState α)) :=
  (backend native).sharedOptions ++ (backend native).ownOptions

theorem forall₂_keptIn : List.Forall₂ KeptIn (allOptions native) slots := by
  refine .cons ?_ <| .cons ?_ <| .cons ?_ <| .cons ?_ <| .cons (keptIn_parameter ..) <|
    .cons (keptIn_parameter ..) <| .cons (keptIn_parameter ..) <| .cons (keptIn_parameter ..) <|
    .cons (keptIn_parameter ..) <| .cons (keptIn_parameter ..) <| .cons ?_ .nil
  all_goals
    refine keptIn_stored (fun _ _ => rfl) (fun _ => rfl) fun s x d apart => ?_
    cases d <;> first | rfl | exact absurd rfl apart

/-! ### Requests -/

/-- No request changes an option. -/
theorem settings_perform (q : Request α) (w : CbcState α × StopFlags) :
    ((backend native).perform q w).2.1.settings = w.1.settings := by
  obtain ⟨s, flags⟩ := w
  cases q with
  | exportModel path =>
    change (exportModel s path).2.settings = s.settings
    rw [exportModel]
    split <;> rfl
  | postObjective o =>
    cases o with
    | linear o =>
      change (addObjective s o).2.settings = s.settings
      rw [addObjective]
      split <;> rfl
    | _ => rfl
  | postConstraint c =>
    have kept (row : LinearRow α) : (addRow s row).2.settings = s.settings := by
      rw [addRow]
      split <;> rfl
    cases c with
    | linear row => exact kept row
    | linearDefining r f c => exact kept (definitionRow r f c)
    | _ => rfl
  | solve =>
    change (solve native s flags).2.settings = s.settings
    rw [solve]
    split
    · rfl
    · split
      · rfl
      · split <;> rfl
  | _ => rfl

/-! ### The registry -/

/-- The names of the options are in lower case. -/
theorem key_name {e : Entry} (h : e ∈ entries) : key e.name = e.name := by
  have lower : ∀ n ∈ entries.map (·.name), key n = n := by decide +kernel
  exact lower _ (List.mem_map_of_mem h)

theorem nodup_keys : ((allOptions native).map (key ·.name)).Nodup := by
  have keys : (allOptions native).map (key ·.name) = entries.map (key ·.name) := rfl
  rw [keys, List.map_congr_left fun e he => key_name he]
  decide

/-- The registry of the backend. -/
def registered (native : CbcState α → CbcResult α) : OptionRegistry (CbcState α) :=
  (allOptions native).foldl offer .empty

theorem registry_backend (native : CbcState α → CbcResult α) :
    (backend native).registry = .ok (registered native) :=
  Backend.registry_eq_ok nodup_keys

theorem find?_registered (name : String) : (registered native).find? name =
    (allOptions native).find? fun o => key o.name = key name :=
  find?_foldl_offer (allOptions native) .empty name

theorem of_find?_registered {name : String} {o : SolverOption (CbcState α)}
    (found : (registered native).find? name = some o) :
    o ∈ allOptions native ∧ key o.name = key name := by
  rw [find?_registered] at found
  exact ⟨List.mem_of_find?_eq_some found, by simpa using List.find?_some found⟩

theorem exists_keptIn_of_find? {name : String} {o : SolverOption (CbcState α)}
    (found : (registered native).find? name = some o) : ∃ c, KeptIn o c :=
  let ⟨c, _, kept⟩ := exists_keptIn forall₂_keptIn o (of_find?_registered found).1
  ⟨c, kept⟩

theorem storesOptions : (backend native).StoresOptions (registered native) where
  typed found := (exists_keptIn_of_find? found).elim fun _ kept => kept.typed
  accepts found := (exists_keptIn_of_find? found).elim fun _ kept => kept.accepts
  reads_back found := (exists_keptIn_of_find? found).elim fun _ kept => kept.reads_back
  apart {name name' o o'} found found' other := by
    obtain ⟨mem, same⟩ := of_find?_registered found
    obtain ⟨mem', same'⟩ := of_find?_registered found'
    have symm : Std.Symm fun o p : SolverOption (CbcState α) => o.Keeps p.get ∧ p.Keeps o.get :=
      ⟨fun _ _ => And.symm⟩
    have kept : List.Forall₂ KeptIn (allOptions native) slots := forall₂_keptIn
    have pairwise := pairwise_keeps kept (by decide)
    -- found under names that differ, the two are not the same option
    refine (pairwise.forall mem mem' ?_).1
    rintro rfl
    exact other (same.symm.trans same')
  opens w := ⟨rfl, rfl⟩
  asked q w name := by
    cases found : (registered native).find? name with
    | none => rw [getValue_of_find?_eq_none found, getValue_of_find?_eq_none found]
    | some o =>
      obtain ⟨c, kept⟩ := exists_keptIn_of_find? found
      rw [getValue_of_find? found, getValue_of_find? found]
      exact kept.reads (congrArg (·.slot c) (settings_perform q (w.1.solver, w.2)))

end Options

/-! ### Sessions -/

section Sessions

variable [Scalar α] [Numeral α] {native : CbcState α → CbcResult α}

theorem longName_backend (s : CbcState α) : (backend native).longName s = "CBC" := rfl

theorem exists_option (native : CbcState α → CbcResult α) {e : Entry} (h : e ∈ entries)
    (host : CbcHost) {name : String} (same : key name = key e.name) :
    ∃ o, (registered native).find? name = some o ∧
      o.type = e.type ∧ o.get { host := host } = e.initial := by
  have told : entries = (allOptions native).map fun o => ⟨o.name, o.type, o.get { host := host }⟩ :=
    rfl
  rw [told] at h
  obtain ⟨o, ho, rfl⟩ := List.mem_map.1 h
  refine ⟨o, ?_, rfl, rfl⟩
  rw [find?_registered, find?_of_nodup nodup_keys ho same.symm]

/-- The options of a session are a store. Until it is closed its operations can be put in any order.
An option then tells the last value that was set under its name, in any case, or else what it told
at first, where its numbers are read back from their texts. Every value of its type can be set. An
operation that sets other options leaves what it tells. -/
theorem session_stores_options (native : CbcState α → CbcResult α) (host : CbcHost)
    (config : SessionConfig) (flags : StopFlags) :
    let b := backend native
    ∃ s, Session.create b { host := host } config = .ok s ∧
      ∀ ops : List (Operation α), (∀ o ∈ ops, ¬o.Closes) →
        let w := Session.performAll b ops (s, flags)
        let settings := Session.settings b ops (s, flags)
        ∀ e ∈ entries, ∀ name, key name = key e.name →
          ((∀ p ∈ settings, key p.1 = key name → p.2.ReadsBack) →
            (Session.getOption b e.type name).run w =
              ((told e.initial settings name).mapError fun x => ⟨"CBC", .option x⟩, w)) ∧
          (∀ v, v.type = e.type → ((Session.setOption b name v).run w).1.isOk) ∧
          ∀ o : Operation α, ¬o.Closes → (∀ p ∈ o.settings b w, key p.1 ≠ key name) →
            ((Session.getOption b e.type name).run ((o.perform b).run w).2).1 =
              ((Session.getOption b e.type name).run w).1 := by
  intro b
  obtain ⟨s, created, solver, fresh⟩ :=
    exists_create { host := host } config flags (registry_backend native)
  refine ⟨s, created, fun ops stays => ?_⟩
  intro w settings e he name same
  have stores : b.StoresOptions (registered native) := storesOptions
  have reached : World.AfterSettings (registered native) (s, flags) settings w :=
    fresh.performAll stores stays
  obtain ⟨o, found, type, initial⟩ := exists_option native he host same
  refine ⟨fun readsBack => ?_, fun v typed => ?_, fun later stays' other => ?_⟩
  · have answer := reached.run_getOption (b := b) stores.toStores found readsBack
    rwa [type, longName_backend, solver, initial] at answer
  · exact reached.isOk_setOption stores.toStores found (typed.trans type.symm)
  · -- both answers are told from the session just before the operation
    have here := World.AfterSettings.refl reached.registry reached.running
    have before := here.run_getOption (b := b) stores.toStores found nofun
    have after := (here.perform stores stays').run_getOption (b := b) stores.toStores found
      fun p hp same => absurd same (other p hp)
    rw [type, longName_backend] at before after
    rw [before, after, told_of_other other, told_nil]

/-- A gap that is set before the backend is acquired is told afterwards under another spelling, and
options that were not set tell what they told at first. -/
theorem session_stores_options_respelled :
    let b := backend (α := Float) fun _ => ⟨0, [], 0, true⟩
    ∃ s, Session.create b {} {} = .ok s ∧
      let w := Session.performAll b [.setOption "MipGap" (.double 0.5), .acquire] (s, .initial)
      ((Session.getOption b .double "MIPGAP").run w).1 = .ok (.double 0.5) ∧
        ((Session.getOption b .int "round_digits").run w).1 = .ok (.int 8) ∧
        ((Session.getOption b .int "threads").run w).1 = .error ⟨"CBC",
          .option (.access "threads" "CBC parameter threads uses the solver default")⟩ := by
  intro b
  obtain ⟨s, created, store⟩ :=
    session_stores_options (α := Float) (fun _ => ⟨0, [], 0, true⟩) {} {} .initial
  have gap : Entry.ofParameter "mipgap" .double "ratio" ∈ entries := by simp [entries]
  have digits : ⟨"round_digits", .int, .ok (.int 8)⟩ ∈ entries := by simp [entries]
  have threads : Entry.ofParameter "threads" .int "threads" ∈ entries := by simp [entries]
  have spelled : key "MipGap" = "mipgap" ∧ key "MIPGAP" = "mipgap" := by decide +kernel
  have set : ((Session.setOption b "MipGap" (.double 0.5)).run (s, .initial)).1.isOk = true :=
    (store [] nofun _ gap "MipGap" (spelled.1.trans (key_name gap).symm)).2.1 _ rfl
  let ops : List (Operation Float) := [.setOption "MipGap" (.double 0.5), .acquire]
  have settings : Session.settings b ops (s, .initial) = [("MipGap", .double 0.5)] := by
    simp [ops, Session.settings, Operation.settings, set]
  have stays : ∀ o ∈ ops, ¬o.Closes := by simp [ops, Operation.Closes]
  have readsBack : (OptionValue.double 0.5).ReadsBack := by
    unfold OptionValue.ReadsBack
    decide +kernel
  have tells (e : Entry) (he : e ∈ entries) (name : String) (same : key name = key e.name) :
      ((Session.getOption b e.type name).run (Session.performAll b ops (s, .initial))).1 =
        (told e.initial [("MipGap", .double 0.5)] name).mapError fun x => ⟨"CBC", .option x⟩ := by
    rw [← settings]
    refine congrArg Prod.fst ((store ops stays e he name same).1 ?_)
    rw [settings, List.forall_mem_singleton]
    exact fun _ => readsBack
  refine ⟨s, created, ?_, ?_, ?_⟩
  · refine (tells _ gap "MIPGAP" (spelled.2.trans (key_name gap).symm)).trans ?_
    rw [told_singleton_of_eq (spelled.1.trans spelled.2.symm)]
    rfl
  · have other : key "round_digits" = "round_digits" :=
      key_name (e := ⟨"round_digits", _, _⟩) digits
    refine (tells _ digits "round_digits" rfl).trans ?_
    rw [told_of_other (by simp [spelled, other])]
    rfl
  · have other : key "threads" = "threads" :=
      key_name (e := .ofParameter "threads" _ _) threads
    refine (tells _ threads "threads" rfl).trans ?_
    rw [told_of_other (by simp [spelled, other])]
    rfl

end Sessions

end Cbc

end SolverBridge
