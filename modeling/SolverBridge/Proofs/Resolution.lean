import SolverBridge.Proofs.Classification
import SolverBridge.Proofs.Reformulation
import SolverBridge.Resolve

/-! Resolution keeps the points of a constraint. Whatever the table says, a constraint is
either kept or replaced by rows that hold exactly where it holds, and a row that is resolved
in turn is kept, so the argument follows the recursion of the resolution. -/

namespace SolverBridge

/-- A list that is resolved element by element means what its elements mean. -/
theorem forall_mem_flatten_of_mapM {β γ ε : Type} {f : β → Except ε (List γ)} {P : β → Prop}
    {Q : γ → Prop} {xs : List β} {yss : List (List γ)}
    (hf : ∀ x ∈ xs, ∀ ys, f x = .ok ys → (P x ↔ ∀ y ∈ ys, Q y)) (h : xs.mapM f = .ok yss) :
    (∀ x ∈ xs, P x) ↔ ∀ y ∈ yss.flatten, Q y := by
  induction xs generalizing yss with
  | nil =>
    cases h
    exact iff_of_true (List.forall_mem_nil _) (List.forall_mem_nil _)
  | cons x rest ih =>
    rw [List.forall_mem_cons] at hf
    rw [List.mapM_cons] at h
    cases hx : f x with
    | error e =>
      rw [hx] at h
      cases h
    | ok ys =>
      cases hrest : rest.mapM f with
      | error e =>
        rw [hx, hrest] at h
        cases h
      | ok more =>
        rw [hx, hrest] at h
        cases h
        rw [List.flatten_cons, List.forall_mem_append, List.forall_mem_cons, hf.1 ys hx,
          ih hf.2 hrest]

/-- What was resolved is the constraint itself, or its pieces resolved in turn. -/
theorem resolveWithin_cases {α : Type} [Scalar α] {table : AcceptanceTable}
    {domains : List (Domain α)} {n : Nat} {c : FlatConstraint α}
    {resolved : List (FlatConstraint α)} (h : resolveWithin table domains n c = .ok resolved) :
    resolved = [c] ∨ ∃ m pieces yss, n = m + 1 ∧ c.reformulate? domains = some pieces ∧
      pieces.mapM (resolveWithin table domains m) = .ok yss ∧ resolved = yss.flatten := by
  unfold resolveWithin at h
  split at h
  · cases h
    exact .inl rfl
  · rename_i m pieces _ hpieces
    split at h
    · cases hyss : pieces.mapM (resolveWithin table domains m) with
      | error u =>
        rw [hyss] at h
        cases h
      | ok yss =>
        rw [hyss] at h
        cases h
        exact .inr ⟨m, pieces, yss, rfl, hpieces, hyss, rfl⟩
    · cases h
      exact .inl rfl
  · cases h
    exact .inl rfl
  · rename_i m pieces _ hpieces
    split at h
    · rename_i yss hyss
      cases h
      exact .inr ⟨m, pieces, yss, rfl, hpieces, hyss, rfl⟩
    · cases h
  · cases h

variable {p : Point Exact} {table : AcceptanceTable} {domains : List (Domain Exact)}

namespace FlatConstraint

variable [Transcendental]

/-- The pieces of a constraint can be resolved in turn. -/
theorem sound_of_mem_reformulate? {c d : FlatConstraint Exact}
    {pieces : List (FlatConstraint Exact)} (h : c.reformulate? domains = some pieces)
    (hd : d ∈ pieces) : d.Sound p := by
  obtain ⟨rows, -, rfl⟩ := Option.map_eq_some_iff.1 h
  obtain ⟨row, -, rfl⟩ := List.mem_map.1 hd
  trivial

theorem Sound.isSatisfied_reformulate? {c : FlatConstraint Exact}
    {pieces : List (FlatConstraint Exact)} (hc : c.Sound p) (hin : p.Respects domains)
    (h : c.reformulate? domains = some pieces) :
    c.isSatisfied p (.finite 0) = true ↔ ∀ d ∈ pieces, d.isSatisfied p (.finite 0) = true := by
  obtain ⟨rows, hrows, rfl⟩ := Option.map_eq_some_iff.1 h
  rw [List.forall_mem_map]
  exact rows_exact hc (le_refl 0) one_pos hin hrows

theorem Sound.isSatisfied_resolveWithin {n : Nat} {c : FlatConstraint Exact}
    {resolved : List (FlatConstraint Exact)} (hc : c.Sound p) (hin : p.Respects domains)
    (h : resolveWithin table domains n c = .ok resolved) :
    c.isSatisfied p (.finite 0) = true ↔
      ∀ d ∈ resolved, d.isSatisfied p (.finite 0) = true := by
  induction n generalizing c resolved with
  | zero =>
    rcases resolveWithin_cases h with rfl | ⟨m, pieces, yss, hm, -⟩
    · rw [List.forall_mem_singleton]
    · cases hm
  | succ n ih =>
    rcases resolveWithin_cases h with rfl | ⟨m, pieces, yss, hm, hpieces, hyss, rfl⟩
    · rw [List.forall_mem_singleton]
    · cases hm
      rw [hc.isSatisfied_reformulate? hin hpieces]
      exact forall_mem_flatten_of_mapM
        (fun d hd _ hys => ih (sound_of_mem_reformulate? hpieces hd) hys) hyss

end FlatConstraint

/-- A constraint of a problem holds where all that is posted for it holds. -/
theorem isSatisfied_resolveConstraint [Exact.SquareLaw] (hp : p.IsRational)
    (hin : p.Respects domains) {c : Constraint Exact} (hr : c.IsRational) (hd : c.DefinedAt p)
    (hunit : c.UnitRatio) (hbit : c.TriggerIsBit p) {resolved : List (FlatConstraint Exact)}
    (h : resolveConstraint table domains (classifyConstraint c) = .ok resolved) :
    c.isSatisfied p (.finite 0) = true ↔
      ∀ d ∈ resolved, d.isSatisfied p (.finite 0) = true := by
  rw [← isSatisfied_classifyConstraint_zero hp hr hd hunit hbit]
  exact (sound_classifyConstraint hp hr hd).isSatisfied_resolveWithin hin h

end SolverBridge
