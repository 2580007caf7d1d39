import SolverBridge.Proofs.Resolution

/-! What an acceptance table makes of a constraint. The pieces of a constraint are rows, and a
row has no pieces of its own, so resolution ends after one reformulation. It keeps the
constraint or replaces it by exactly its pieces, and which of the two, or neither, is
decided by the entries for the kind of the constraint and for the kinds of the pieces. A table
that takes every kind at least as well resolves at least as much. -/

namespace SolverBridge

/-! ### The order of acceptance -/

namespace Acceptance

def rank : Acceptance → Nat
  | .notAccepted => 0
  | .accepted => 1
  | .recommended => 2

/-- The second is at least as welcome. -/
instance : LE Acceptance := ⟨fun a b => a.rank ≤ b.rank⟩

instance (a b : Acceptance) : Decidable (a ≤ b) := inferInstanceAs (Decidable (a.rank ≤ b.rank))

theorem isAccepted_mono {a b : Acceptance} (h : a ≤ b) (ha : a.isAccepted = true) :
    b.isAccepted = true := by
  have mono : ∀ a b : Acceptance, a ≤ b → a.isAccepted = true → b.isAccepted = true := by
    rintro ⟨⟩ ⟨⟩ <;> decide
  exact mono a b h ha

theorem isAccepted_eq_false {a : Acceptance} : a.isAccepted = false ↔ a = .notAccepted := by
  cases a <;> decide

end Acceptance

namespace AcceptanceTable

/-- No kind of constraint is less welcome in the second table. -/
def RaisedTo (t t' : AcceptanceTable) : Prop := ∀ k, t.constraint k ≤ t'.constraint k

/-- Raising entries in place raises the table, also where a kind has several entries. -/
theorem raisedTo_of_entries {t t' : AcceptanceTable}
    (h : List.Forall₂ (fun e e' => e.1 = e'.1 ∧ e.2 ≤ e'.2) t.constraints t'.constraints) :
    t.RaisedTo t' := by
  intro k
  rw [constraint, constraint]
  generalize t.constraints = entries at h
  generalize t'.constraints = entries' at h
  induction h with
  | nil => exact Nat.le_refl _
  | @cons e e' rest rest' raised _ ih =>
    obtain ⟨kind, acceptance⟩ := e
    obtain ⟨kind', acceptance'⟩ := e'
    obtain ⟨rfl, raised⟩ := raised
    rw [entryOf_cons, entryOf_cons]
    split
    · exact raised
    · exact ih

end AcceptanceTable

section Resolution

variable {α : Type} [Scalar α] {table table' : AcceptanceTable} {domains : List (Domain α)}
  {c : FlatConstraint α} {pieces : List (FlatConstraint α)}

/-! ### Constraints without pieces -/

theorem FlatConstraint.reformulate?_of_mem {d : FlatConstraint α}
    (h : c.reformulate? domains = some pieces) (hd : d ∈ pieces) :
    d.reformulate? domains = none := by
  obtain ⟨rows, -, rfl⟩ := Option.map_eq_some_iff.1 h
  obtain ⟨row, -, rfl⟩ := List.mem_map.1 hd
  rfl

theorem endsRecommended_of_none (n : Nat) (h : c.reformulate? domains = none) :
    endsRecommended table domains n c = decide (table.constraint c.kind = .recommended) := by
  cases n with
  | zero => rw [endsRecommended, Bool.or_false]
  | succ n => rw [endsRecommended, h, Option.any_none, Bool.or_false]

theorem resolveWithin_of_none (n : Nat) (h : c.reformulate? domains = none) :
    resolveWithin table domains n c =
      if (table.constraint c.kind).isAccepted then .ok [c] else .error ⟨c.kind⟩ := by
  unfold resolveWithin
  rw [h]
  cases table.constraint c.kind <;> cases n <;> rfl

/-- Constraints without pieces are all kept if each of them can be posted. -/
theorem mapM_resolveWithin_ok (n : Nat) (irreducible : ∀ d ∈ pieces, d.reformulate? domains = none)
    (taken : ∀ d ∈ pieces, (table.constraint d.kind).isAccepted = true) :
    pieces.mapM (resolveWithin table domains n) = .ok (pieces.map fun d => [d]) := by
  induction pieces with
  | nil => rfl
  | cons d rest ih =>
    rw [List.forall_mem_cons] at irreducible taken
    rw [List.mapM_cons, resolveWithin_of_none n irreducible.1, if_pos taken.1,
      ih irreducible.2 taken.2]
    rfl

/-- One of them that cannot be posted stops the resolution. -/
theorem mapM_resolveWithin_error (n : Nat)
    (irreducible : ∀ d ∈ pieces, d.reformulate? domains = none) {d : FlatConstraint α}
    (hd : d ∈ pieces) (refused : (table.constraint d.kind).isAccepted = false) :
    ∃ u, pieces.mapM (resolveWithin table domains n) = .error u := by
  induction pieces with
  | nil => cases hd
  | cons e rest ih =>
    rw [List.forall_mem_cons] at irreducible
    rw [List.mapM_cons, resolveWithin_of_none n irreducible.1]
    rcases List.mem_cons.1 hd with rfl | hd
    · rw [if_neg (Bool.eq_false_iff.1 refused)]
      exact ⟨_, rfl⟩
    · obtain ⟨u, hu⟩ := ih irreducible.2 hd
      rw [hu]
      split
      · exact ⟨_, rfl⟩
      · exact ⟨_, rfl⟩

/-! ### What a table decides -/

/-- What becomes of a constraint. Only its own kind and the kinds of its pieces are looked up. -/
inductive Resolved (table : AcceptanceTable) (domains : List (Domain α)) (c : FlatConstraint α) :
    Except Unsupported (List (FlatConstraint α)) → Prop
  | recommended (hk : table.constraint c.kind = .recommended) : Resolved table domains c (.ok [c])
  /-- Pieces are preferred if all of them are recommended. -/
  | preferred {pieces : List (FlatConstraint α)} (hk : table.constraint c.kind = .accepted)
      (h : c.reformulate? domains = some pieces)
      (recommended : ∀ d ∈ pieces, table.constraint d.kind = .recommended) :
      Resolved table domains c (.ok pieces)
  | kept (hk : table.constraint c.kind = .accepted)
      (unwelcome : ¬∃ pieces, c.reformulate? domains = some pieces ∧
        ∀ d ∈ pieces, table.constraint d.kind = .recommended) :
      Resolved table domains c (.ok [c])
  | replaced {pieces : List (FlatConstraint α)} (hk : table.constraint c.kind = .notAccepted)
      (h : c.reformulate? domains = some pieces)
      (taken : ∀ d ∈ pieces, (table.constraint d.kind).isAccepted = true) :
      Resolved table domains c (.ok pieces)
  | failed (hk : table.constraint c.kind = .notAccepted)
      (refused : ¬∃ pieces, c.reformulate? domains = some pieces ∧
        ∀ d ∈ pieces, (table.constraint d.kind).isAccepted = true) :
      Resolved table domains c (.error ⟨c.kind⟩)

/-- A constraint without pieces is kept if it can be posted. -/
theorem resolved_of_none (h : c.reformulate? domains = none) :
    Resolved table domains c (resolveConstraint table domains c) := by
  have noPieces {P : List (FlatConstraint α) → Prop} :
      ¬∃ pieces, c.reformulate? domains = some pieces ∧ P pieces := by simp [h]
  rw [resolveConstraint, resolveWithin_of_none _ h]
  cases hk : table.constraint c.kind with
  | recommended => exact .recommended hk
  | accepted => exact .kept hk noPieces
  | notAccepted => exact .failed hk noPieces

theorem resolved_of_some (h : c.reformulate? domains = some pieces) :
    Resolved table domains c (resolveConstraint table domains c) := by
  have irreducible : ∀ d ∈ pieces, d.reformulate? domains = none :=
    fun d hd => FlatConstraint.reformulate?_of_mem h hd
  have flat : (pieces.map fun d => [d]).flatten = pieces := List.flatMap_singleton' pieces
  have onlyPieces {P : List (FlatConstraint α) → Prop} (hp : ¬P pieces) :
      ¬∃ pieces, c.reformulate? domains = some pieces ∧ P pieces := by simpa [h] using hp
  obtain ⟨n, depth⟩ : ∃ n, c.kind.reformulationDepth = n + 1 :=
    Nat.exists_eq_succ_of_ne_zero (Nat.ne_zero_of_lt (Kind.reformulationDepth_target
      (FlatConstraint.reformulationTarget_of_reformulate? h)))
  rw [resolveConstraint, depth]
  unfold resolveWithin
  rw [h]
  cases hk : table.constraint c.kind with
  | recommended => exact .recommended hk
  | accepted =>
    dsimp only
    by_cases recommended : ∀ d ∈ pieces, table.constraint d.kind = .recommended
    · have ends : pieces.all (endsRecommended table domains n) = true := by
        refine List.all_eq_true.2 fun d hd => ?_
        rw [endsRecommended_of_none n (irreducible d hd), recommended d hd]
        rfl
      have taken : ∀ d ∈ pieces, (table.constraint d.kind).isAccepted = true := fun d hd => by
        rw [recommended d hd]
        rfl
      have resolved := mapM_resolveWithin_ok n irreducible taken
      rw [if_pos ends, resolved, Except.map, flat]
      exact .preferred hk h recommended
    · have ends : ¬pieces.all (endsRecommended table domains n) = true := by
        refine fun ends => recommended fun d hd => ?_
        have := List.all_eq_true.1 ends d hd
        rwa [endsRecommended_of_none n (irreducible d hd), decide_eq_true_iff] at this
      rw [if_neg ends]
      exact .kept hk (onlyPieces recommended)
  | notAccepted =>
    dsimp only
    by_cases taken : ∀ d ∈ pieces, (table.constraint d.kind).isAccepted = true
    · rw [mapM_resolveWithin_ok n irreducible taken]
      dsimp only
      rw [flat]
      exact .replaced hk h taken
    · obtain ⟨d, hd, refused⟩ : ∃ d ∈ pieces, (table.constraint d.kind).isAccepted = false := by
        simpa using taken
      obtain ⟨u, hu⟩ := mapM_resolveWithin_error n irreducible hd refused
      rw [hu]
      exact .failed hk (onlyPieces taken)

theorem resolved_resolveConstraint (table : AcceptanceTable) (domains : List (Domain α))
    (c : FlatConstraint α) : Resolved table domains c (resolveConstraint table domains c) := by
  cases h : c.reformulate? domains with
  | none => exact resolved_of_none h
  | some pieces => exact resolved_of_some h

namespace Resolved

variable {outcome : Except Unsupported (List (FlatConstraint α))}
  {resolved : List (FlatConstraint α)}

/-- Whatever takes the place of the constraint can be posted. -/
theorem postable (h : Resolved table domains c (.ok resolved)) :
    ∀ d ∈ resolved, (table.constraint d.kind).isAccepted = true := by
  cases h with
  | recommended hk | kept hk =>
    refine List.forall_mem_singleton.2 ?_
    rw [hk]
    rfl
  | preferred hk h recommended =>
    intro d hd
    rw [recommended d hd]
    rfl
  | replaced hk h taken => exact taken

theorem origin (h : Resolved table domains c (.ok resolved)) :
    resolved = [c] ∨ c.reformulate? domains = some resolved := by
  cases h with
  | recommended | kept => exact .inl rfl
  | preferred _ h | replaced _ h => exact .inr h

/-- A failure is about the constraint, never about a piece. -/
theorem kind_of_error {u : Unsupported} (h : Resolved table domains c (.error u)) :
    u.kind = c.kind := by
  cases h
  rfl

theorem eq_of_recommended (h : Resolved table domains c outcome)
    (hk : table.constraint c.kind = .recommended) : outcome = .ok [c] := by
  cases h with
  | recommended => rfl
  | preferred hk' | kept hk' | replaced hk' | failed hk' => cases hk.symm.trans hk'

theorem eq_of_preferred (h : Resolved table domains c outcome)
    (hk : table.constraint c.kind = .accepted) (hpieces : c.reformulate? domains = some pieces)
    (recommended : ∀ d ∈ pieces, table.constraint d.kind = .recommended) :
    outcome = .ok pieces := by
  cases h with
  | preferred _ h => rw [Option.some.inj (h.symm.trans hpieces)]
  | kept _ unwelcome => exact absurd ⟨pieces, hpieces, recommended⟩ unwelcome
  | recommended hk' | replaced hk' | failed hk' => cases hk.symm.trans hk'

theorem eq_of_kept (h : Resolved table domains c outcome)
    (hk : table.constraint c.kind = .accepted)
    (unwelcome : ¬∃ pieces, c.reformulate? domains = some pieces ∧
      ∀ d ∈ pieces, table.constraint d.kind = .recommended) : outcome = .ok [c] := by
  cases h with
  | preferred _ h recommended => exact absurd ⟨_, h, recommended⟩ unwelcome
  | kept => rfl
  | recommended hk' | replaced hk' | failed hk' => cases hk.symm.trans hk'

theorem error_iff (h : Resolved table domains c outcome)
    (hk : table.constraint c.kind = .notAccepted) :
    (∃ u, outcome = .error u) ↔ c.reformulate? domains = none ∨
      ∃ pieces, c.reformulate? domains = some pieces ∧
        ∃ d ∈ pieces, table.constraint d.kind = .notAccepted := by
  cases h with
  | replaced _ h taken =>
    refine iff_of_false nofun ?_
    rintro (none | ⟨pieces, hpieces, d, hd, refused⟩)
    · cases h.symm.trans none
    · cases h.symm.trans hpieces
      have := taken d hd
      rw [refused] at this
      cases this
  | failed _ refused =>
    refine iff_of_true ⟨_, rfl⟩ ?_
    cases hpieces : c.reformulate? domains with
    | none => exact .inl rfl
    | some pieces =>
      refine .inr ⟨pieces, rfl, ?_⟩
      by_contra all
      refine refused ⟨pieces, hpieces, fun d hd => ?_⟩
      rw [← Bool.not_eq_false, Acceptance.isAccepted_eq_false]
      exact fun h => all ⟨d, hd, h⟩
  | recommended hk' | preferred hk' | kept hk' => cases hk.symm.trans hk'

/-- A constraint can be resolved when it can be posted, or all its pieces can. -/
theorem isOk_iff (h : Resolved table domains c outcome) : outcome.isOk = true ↔
    (table.constraint c.kind).isAccepted = true ∨ ∃ pieces, c.reformulate? domains = some pieces ∧
      ∀ d ∈ pieces, (table.constraint d.kind).isAccepted = true := by
  cases h with
  | recommended hk | preferred hk | kept hk =>
    refine iff_of_true rfl (.inl ?_)
    rw [hk]
    rfl
  | replaced hk h taken => exact iff_of_true rfl (.inr ⟨_, h, taken⟩)
  | failed hk refused =>
    refine iff_of_false nofun (not_or.2 ⟨?_, refused⟩)
    rw [hk]
    nofun

/-- What becomes of a constraint is decided. -/
theorem unique {outcome' : Except Unsupported (List (FlatConstraint α))}
    (h : Resolved table domains c outcome) (h' : Resolved table domains c outcome') :
    outcome = outcome' := by
  cases h' with
  | recommended hk => exact h.eq_of_recommended hk
  | preferred hk hpieces recommended => exact h.eq_of_preferred hk hpieces recommended
  | kept hk unwelcome => exact h.eq_of_kept hk unwelcome
  | replaced hk hpieces taken =>
    cases h with
    | replaced _ h => rw [Option.some.inj (h.symm.trans hpieces)]
    | failed _ refused => exact absurd ⟨_, hpieces, taken⟩ refused
    | recommended hk' | preferred hk' | kept hk' => cases hk.symm.trans hk'
  | failed hk refused =>
    cases h with
    | replaced _ h taken => exact absurd ⟨_, h, taken⟩ refused
    | failed => rfl
    | recommended hk' | preferred hk' | kept hk' => cases hk.symm.trans hk'

end Resolved

/-- A table that takes every kind at least as well resolves at least as much. -/
theorem isOk_resolveConstraint_mono (raised : table.RaisedTo table')
    (h : (resolveConstraint table domains c).isOk = true) :
    (resolveConstraint table' domains c).isOk = true := by
  rw [(resolved_resolveConstraint _ _ _).isOk_iff] at h ⊢
  refine h.imp (Acceptance.isAccepted_mono (raised _)) ?_
  rintro ⟨pieces, hpieces, taken⟩
  exact ⟨pieces, hpieces, fun d hd => Acceptance.isAccepted_mono (raised _) (taken d hd)⟩

/-- The table decides the outcome of a resolution. What is posted is accepted, and it is the
constraint or its pieces. A recommended constraint stays; an accepted one gives way to pieces
that are all recommended, and to no others; one that is not accepted needs pieces that are all
accepted, and a failure names its own kind. -/
theorem resolveConstraint_decided (table : AcceptanceTable) (domains : List (Domain α))
    (c : FlatConstraint α) :
    (∀ resolved, resolveConstraint table domains c = .ok resolved →
      (∀ d ∈ resolved, (table.constraint d.kind).isAccepted = true) ∧
        (resolved = [c] ∨ c.reformulate? domains = some resolved)) ∧
    (table.constraint c.kind = .recommended → resolveConstraint table domains c = .ok [c]) ∧
    (table.constraint c.kind = .accepted →
      (∀ pieces, c.reformulate? domains = some pieces →
        (∀ d ∈ pieces, table.constraint d.kind = .recommended) →
          resolveConstraint table domains c = .ok pieces) ∧
      ((¬∃ pieces, c.reformulate? domains = some pieces ∧
        ∀ d ∈ pieces, table.constraint d.kind = .recommended) →
          resolveConstraint table domains c = .ok [c])) ∧
    (table.constraint c.kind = .notAccepted →
      ((∃ u, resolveConstraint table domains c = .error u) ↔ c.reformulate? domains = none ∨
        ∃ pieces, c.reformulate? domains = some pieces ∧
          ∃ d ∈ pieces, table.constraint d.kind = .notAccepted)) ∧
    (∀ u, resolveConstraint table domains c = .error u → u.kind = c.kind) ∧
    ∀ table', table.RaisedTo table' → (resolveConstraint table domains c).isOk = true →
      (resolveConstraint table' domains c).isOk = true := by
  have h := resolved_resolveConstraint table domains c
  refine ⟨fun resolved e => ?_, h.eq_of_recommended, fun hk => ?_, h.error_iff, fun u e => ?_,
    fun table' raised => isOk_resolveConstraint_mono raised⟩
  · rw [e] at h
    exact ⟨h.postable, h.origin⟩
  · exact ⟨fun pieces => h.eq_of_preferred hk, h.eq_of_kept hk⟩
  · rw [e] at h
    exact h.kind_of_error

end Resolution

open Exact.SquareOnly in
/-- A conjunction of binary variables gives way to its rows once these are recommended. Only the
first of the two entries for rows counts. -/
theorem resolveConstraint_decided_conjunction :
    let g : FuncGraph Exact := ⟨⟨0⟩, [⟨1⟩, ⟨2⟩], []⟩
    let c : FlatConstraint Exact := .function .conjunction g
    let domains : List (Domain Exact) := [.binary, .binary, .binary]
    let table : AcceptanceTable :=
      ⟨[], [(.function .conjunction, .accepted), (.linear, .accepted), (.linear, .notAccepted)]⟩
    let raised : AcceptanceTable :=
      ⟨[], [(.function .conjunction, .accepted), (.linear, .recommended), (.linear, .notAccepted)]⟩
    resolveConstraint table domains c = .ok [c] ∧ table.RaisedTo raised ∧
      (resolveConstraint raised domains c).isOk = true ∧
      resolveConstraint raised domains c = .ok (g.conjunctionRows.map .linear) := by
  intro g c domains table raised
  have rows : c.reformulate? domains = some (g.conjunctionRows.map .linear) := by
    have binary : g.isBinary domains = true := by decide +kernel
    rw [FlatConstraint.reformulate?, FlatConstraint.rows?, if_pos binary, Option.map_some]
  have unwelcome : ¬∃ pieces, c.reformulate? domains = some pieces ∧
      ∀ d ∈ pieces, table.constraint d.kind = .recommended := by
    rintro ⟨pieces, hpieces, recommended⟩
    cases rows.symm.trans hpieces
    exact absurd (recommended _ List.mem_cons_self) (by decide)
  have recommended : ∀ d ∈ g.conjunctionRows.map FlatConstraint.linear,
      raised.constraint d.kind = .recommended := by
    intro d hd
    rw [FlatConstraint.kind_of_mem_reformulate? rows hd]
    rfl
  have lifts : table.RaisedTo raised := AcceptanceTable.raisedTo_of_entries
    (.cons ⟨rfl, by decide⟩ (.cons ⟨rfl, by decide⟩ (.cons ⟨rfl, by decide⟩ .nil)))
  obtain ⟨-, -, decided, -, -, mono⟩ := resolveConstraint_decided table domains c
  obtain ⟨-, -, decided', -⟩ := resolveConstraint_decided raised domains c
  have kept := (decided rfl).2 unwelcome
  refine ⟨kept, lifts, mono raised lifts ?_, (decided' rfl).1 _ rows recommended⟩
  rw [kept]
  rfl

end SolverBridge
