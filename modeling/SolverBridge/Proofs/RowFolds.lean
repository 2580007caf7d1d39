import Mathlib.Algebra.BigOperators.Group.Finset.Piecewise
import SolverBridge.Proofs.Rationals
import SolverBridge.RowMap

/-! Folding rows onto constraints. Constraints may be started in any order, again, or not at
all, rows may come before the first of them, and the map may be cleared in between. A row belongs
to the constraint in progress when it was pushed, or to one of its own when there was none. After
any such calls every owner is below the number of constraints, so that one pass over the rows,
which replaces the entry of each row's owner, always finds that entry. The pass computes the
fold, and in exact arithmetic no value of a recorded row is lost or counted twice. -/

namespace SolverBridge

namespace RowMap

/-! ### Calls -/

/-- What changes a row map. -/
inductive Call
  | start (i : Nat)
  | push
  | clear
  deriving DecidableEq, Repr

def Call.perform : Call → RowMap → RowMap
  | .start i, m => m.start i
  | .push, m => m.push.2
  | .clear, _ => {}

/-- The row map that calls make of an empty one. -/
def after (calls : List Call) : RowMap := calls.foldl (fun m c => c.perform m) {}

theorem after_concat (calls : List Call) (c : Call) :
    after (calls ++ [c]) = c.perform (after calls) := by
  rw [after, List.foldl_concat, ← after]

/-- The number of rows pushed since the map was last cleared. -/
def pushes (calls : List Call) : Nat := (calls.reverse.takeWhile (· ≠ .clear)).count .push

theorem pushes_concat (calls : List Call) (c : Call) : pushes (calls ++ [c]) =
    match c with
    | .start _ => pushes calls
    | .push => pushes calls + 1
    | .clear => 0 := by
  cases c <;> simp [pushes]

/-- Owners and the constraint in progress are counted. -/
structure Bounded (m : RowMap) : Prop where
  owners : m.OwnersBounded
  current : m.CurrentBounded

namespace Bounded

variable {m : RowMap}

theorem start (h : m.Bounded) (i : Nat) : (m.start i).Bounded := by
  constructor
  · intro j hj
    exact (h.owners j hj).trans_le (Nat.le_max_left _ _)
  · intro j hj
    obtain rfl : i = j := by simpa [RowMap.start] using hj
    exact (Nat.lt_succ_self i).trans_le (Nat.le_max_right _ _)

theorem push (h : m.Bounded) : m.push.2.Bounded := by
  cases e : m.current with
  | some i =>
    have pushed : m.push.2 = { m with owners := m.owners ++ [i] } := by rw [RowMap.push, e]
    rw [pushed]
    refine ⟨fun j hj => ?_, h.current⟩
    rcases List.mem_append.1 hj with hj | hj
    · exact h.owners j hj
    · rw [List.mem_singleton.1 hj]
      exact h.current i e
  | none =>
    have pushed : m.push.2 = { m with
        constraints := m.constraints + 1, owners := m.owners ++ [m.constraints] } := by
      rw [RowMap.push, e]
    rw [pushed]
    refine ⟨fun j hj => ?_, fun j hj => ?_⟩
    · rcases List.mem_append.1 hj with hj | hj
      · exact Nat.lt_succ_of_lt (h.owners j hj)
      · rw [List.mem_singleton.1 hj]
        exact Nat.lt_succ_self _
    · exact Nat.lt_succ_of_lt (h.current j hj)

theorem perform (h : m.Bounded) (c : Call) : (c.perform m).Bounded := by
  cases c with
  | start i => exact h.start i
  | push => exact h.push
  | clear => exact ⟨List.forall_mem_nil _, nofun⟩

end Bounded

theorem bounded_after (calls : List Call) : (after calls).Bounded := by
  induction calls using List.reverseRecOn with
  | nil => exact ⟨List.forall_mem_nil _, nofun⟩
  | append_singleton calls c ih => exact after_concat calls c ▸ ih.perform c

/-- A row belongs to the constraint in progress. Without one it makes a new constraint. -/
theorem owners_push (m : RowMap) :
    m.push.2.owners = m.owners ++ [m.current.getD m.constraints] := by
  cases h : m.current <;> simp [push, h]

theorem size_push (m : RowMap) : m.push.2.size = m.size + 1 := by
  rw [size, owners_push]
  exact List.length_append

theorem size_after (calls : List Call) : (after calls).size = pushes calls := by
  induction calls using List.reverseRecOn with
  | nil => rfl
  | append_singleton calls c ih =>
    rw [after_concat, pushes_concat, ← ih]
    cases c with
    | start i => rfl
    | push => exact size_push _
    | clear => rfl

theorem push_fst (m : RowMap) : m.push.1 = m.size := by
  rw [push]
  split <;> rfl

/-! ### Owners -/

/-- The constraint that a call starts. -/
def Call.start? : Call → Option Nat
  | .start i => some i
  | .push | .clear => none

/-- The constraint that was started last since the map was last cleared. -/
def started? (calls : List Call) : Option Nat :=
  (calls.reverse.takeWhile (· ≠ .clear)).findSome? Call.start?

theorem started?_concat (calls : List Call) (c : Call) : started? (calls ++ [c]) =
    match c with
    | .start i => some i
    | .push => started? calls
    | .clear => none := by
  cases c <;> simp [started?, List.findSome?_cons, Call.start?]

/-- A row does not end the constraint in progress. -/
theorem current_push (m : RowMap) : m.push.2.current = m.current := by
  cases h : m.current <;> simp [push, h]

theorem current_after (calls : List Call) : (after calls).current = started? calls := by
  induction calls using List.reverseRecOn with
  | nil => rfl
  | append_singleton calls c ih =>
    rw [after_concat, started?_concat]
    cases c with
    | start i => rfl
    | push => exact (current_push _).trans ih
    | clear => rfl

/-- Only clearing the map takes the owner of a row away. -/
theorem owner?_perform {m : RowMap} {c : Call} (kept : c ≠ .clear) {r i : Nat}
    (owned : m.owner? r = some i) : (c.perform m).owner? r = some i := by
  cases c with
  | start j => exact owned
  | push =>
    have inside : r < m.owners.length := (List.getElem?_eq_some_iff.1 owned).1
    change m.push.2.owners[r]? = some i
    rw [owners_push, List.getElem?_append_left inside]
    exact owned
  | clear => exact absurd rfl kept

/-- A row that is pushed while constraint `i` is in progress is owned by `i`, and one that is
pushed while none is, by the constraint whose number is that of the constraints before it. The
owner stays, whatever is started and pushed later, until the map is cleared. -/
theorem owner?_after (before later : List Call) (kept : .clear ∉ later) :
    (after (before ++ .push :: later)).owner? (pushes before) =
      some ((started? before).getD (after before).constraints) := by
  induction later using List.reverseRecOn with
  | nil =>
    rw [after_concat, ← size_after, ← current_after]
    change (after before).push.2.owners[(after before).owners.length]? = _
    rw [owners_push]
    exact List.getElem?_concat_length
  | append_singleton later c ih =>
    rw [List.mem_append, List.mem_singleton, not_or] at kept
    rw [← List.cons_append, ← List.append_assoc, after_concat]
    exact owner?_perform (Ne.symm kept.2) (ih kept.1)

/-- A row before all constraints, one of the fifth, and one of the first, started later. -/
example : (after [.push, .start 4, .push, .start 0, .push]).owners = [0, 4, 0] := rfl

/-! ### One pass over the rows -/

/-- Row after row, the entry of the row's owner is replaced. Nothing comes of it when an owner
has no entry. -/
def accumulate {β γ : Type} (step : γ → β → γ) : List γ → List (Nat × β) → Option (List γ)
  | entries, [] => some entries
  | entries, (i, x) :: rows =>
    match entries[i]? with
    | some e => accumulate step (entries.set i (step e x)) rows
    | none => none

variable {β γ : Type}

theorem accumulate_eq_some (step : γ → β → γ) (rows : List (Nat × β)) (entries : List γ)
    (bounded : ∀ row ∈ rows, row.1 < entries.length) :
    accumulate step entries rows = some (entries.mapIdx fun i e =>
      ((rows.filter (·.1 = i)).map (·.2)).foldl step e) := by
  induction rows generalizing entries with
  | nil => exact congrArg some (List.ext_getElem (by simp) (by simp))
  | cons row rows ih =>
    obtain ⟨k, x⟩ := row
    obtain ⟨hk, bounded⟩ := List.forall_mem_cons.1 bounded
    rw [accumulate, List.getElem?_eq_getElem hk]
    dsimp only
    rw [ih _ (by simpa using bounded)]
    -- the entry of the first row's owner has taken its value; no other entry has moved
    refine congrArg some (List.ext_getElem (by simp) fun i hi hi' => ?_)
    simp only [List.getElem_mapIdx, List.getElem_set]
    by_cases same : k = i
    · subst same
      simp
    · simp [same]

/-- The pass over recorded rows computes the fold. -/
theorem accumulate_replicate {m : RowMap} (bounded : m.OwnersBounded) (step : γ → β → γ) (z : γ)
    (rows : List β) :
    accumulate step (List.replicate m.constraints z) (m.owners.zip rows) =
      some (m.fold rows fun xs => xs.foldl step z) := by
  rw [accumulate_eq_some]
  · refine congrArg some (List.ext_getElem (by simp) fun i hi hi' => ?_)
    simp [fold, valuesOf]
  · intro row hrow
    rw [List.length_replicate]
    exact bounded row.1 (List.of_mem_zip hrow).1

theorem foldDuals_eq_accumulate {α : Type} [Scalar α] {m : RowMap} (bounded : m.OwnersBounded)
    (values : List α) :
    accumulate (· + ·) (List.replicate m.constraints 0) (m.owners.zip values) =
      some (m.foldDuals values) :=
  accumulate_replicate bounded _ _ values

/-- A row that is in the subsystem marks its constraint. -/
def mark (e s : IisStatus) : IisStatus := if s ≠ .notMember then .member else e

theorem foldl_mark (statuses : List IisStatus) (e : IisStatus) :
    statuses.foldl mark e = if statuses.any (· ≠ .notMember) then .member else e := by
  induction statuses generalizing e with
  | nil => rfl
  | cons s statuses ih =>
    rw [List.foldl_cons, ih, mark]
    by_cases h : s = .notMember <;> simp [h]

theorem foldIis_eq_accumulate {m : RowMap} (bounded : m.OwnersBounded)
    (statuses : List IisStatus) :
    accumulate mark (List.replicate m.constraints .notMember) (m.owners.zip statuses) =
      some (m.foldIis statuses) := by
  rw [accumulate_replicate bounded, foldIis]
  simp only [foldl_mark]

/-! ### Rows of a constraint -/

theorem mem_valuesOf {m : RowMap} {rows : List β} {i : Nat} {x : β} :
    x ∈ m.valuesOf rows i ↔ ∃ r, m.owner? r = some i ∧ rows[r]? = some x := by
  simp only [valuesOf, List.mem_map, List.mem_filter, decide_eq_true_eq, Prod.exists,
    exists_eq_right, owner?]
  rw [List.mem_iff_getElem?]
  simp only [List.getElem?_zip_eq_some]

/-- The sum over a list of owned values, number by number. -/
theorem sum_owned {A : Type} [AddCommMonoid A] (owners : List Nat) (values : List A) (i : Nat) :
    (((owners.zip values).filter (·.1 = i)).map (·.2)).sum =
      ∑ r ∈ Finset.range values.length with owners[r]? = some i, values.getD r 0 := by
  rw [Finset.sum_filter]
  induction owners generalizing values with
  | nil => simp
  | cons k owners ih =>
    cases values with
    | nil => simp
    | cons x values =>
      rw [List.length_cons, Finset.sum_range_succ', List.zip_cons_cons, List.filter_cons]
      simp only [List.getElem?_cons_succ, List.getD_cons_succ, List.getElem?_cons_zero,
        List.getD_cons_zero, Option.some.injEq]
      rw [← ih]
      by_cases same : k = i
      · simp [same, add_comm]
      · simp [same]

theorem sum_valuesOf {A : Type} [AddCommMonoid A] (m : RowMap) (values : List A) (i : Nat) :
    (m.valuesOf values i).sum =
      ∑ r ∈ Finset.range values.length with m.owner? r = some i, values.getD r 0 :=
  sum_owned m.owners values i

/-- Values are sorted by their owners without loss. -/
theorem sum_filter_owner {A : Type} [AddCommMonoid A] {n : Nat} (rows : List (Nat × A))
    (bounded : ∀ row ∈ rows, row.1 < n) :
    ∑ i ∈ Finset.range n, ((rows.filter (·.1 = i)).map (·.2)).sum = (rows.map (·.2)).sum := by
  induction rows with
  | nil => simp
  | cons row rows ih =>
    obtain ⟨hrow, bounded⟩ := List.forall_mem_cons.1 bounded
    have split (i : Nat) : (((row :: rows).filter (·.1 = i)).map (·.2)).sum =
        (if row.1 = i then row.2 else 0) + ((rows.filter (·.1 = i)).map (·.2)).sum := by
      by_cases same : row.1 = i <;> simp [same]
    rw [Finset.sum_congr rfl fun i _ => split i, Finset.sum_add_distrib, ih bounded,
      Finset.sum_ite_eq, if_pos (Finset.mem_range.2 hrow), List.map_cons, List.sum_cons]

/-- Values of rows that were never pushed are not read. -/
theorem map_snd_zip (owners : List Nat) (values : List β) :
    (owners.zip values).map (·.2) = values.take owners.length := by
  induction owners generalizing values with
  | nil => rfl
  | cons k owners ih =>
    cases values with
    | nil => rfl
    | cons x values =>
      rw [List.zip_cons_cons, List.map_cons, ih, List.length_cons, List.take_succ_cons]

section Duals

variable [Transcendental]

theorem foldDuals_eq_sums (m : RowMap) (values : List Exact) :
    m.foldDuals values = (List.range m.constraints).map fun i =>
      ∑ r ∈ Finset.range values.length with m.owner? r = some i, values.getD r 0 := by
  refine List.map_congr_left fun i _ => ?_
  rw [← sum_valuesOf]
  exact (List.sum_eq_foldl).symm

theorem sum_foldDuals {m : RowMap} (bounded : m.OwnersBounded) (values : List Exact) :
    (m.foldDuals values).sum = (values.take m.size).sum := by
  rw [foldDuals_eq_sums]
  calc ∑ i ∈ Finset.range m.constraints,
        ∑ r ∈ Finset.range values.length with m.owner? r = some i, values.getD r 0
      = ∑ i ∈ Finset.range m.constraints, (m.valuesOf values i).sum :=
        Finset.sum_congr rfl fun i _ => (sum_valuesOf m values i).symm
    _ = ((m.owners.zip values).map (·.2)).sum :=
        sum_filter_owner _ fun row hrow => bounded row.1 (List.of_mem_zip hrow).1
    _ = (values.take m.size).sum := by rw [map_snd_zip, size]

end Duals

/-! ### Members of a subsystem -/

theorem getElem?_fold (m : RowMap) (rows : List β) (f : List β → γ) (i : Nat) :
    (m.fold rows f)[i]? = if i < m.constraints then some (f (m.valuesOf rows i)) else none := by
  rw [fold, List.getElem?_map]
  rcases Nat.lt_or_ge i m.constraints with inside | outside
  · rw [List.getElem?_range inside, if_pos inside, Option.map_some]
  · rw [List.getElem?_eq_none (by simpa using outside), if_neg outside.not_gt, Option.map_none]

theorem owner?_lt {m : RowMap} (bounded : m.OwnersBounded) {r i : Nat} (h : m.owner? r = some i) :
    i < m.constraints := bounded i (List.mem_of_getElem? h)

theorem foldIis_member_iff {m : RowMap} (bounded : m.OwnersBounded) (statuses : List IisStatus)
    (i : Nat) : (m.foldIis statuses)[i]? = some .member ↔
      ∃ r s, m.owner? r = some i ∧ statuses[r]? = some s ∧ s ≠ .notMember := by
  have marked : (m.valuesOf statuses i).any (· ≠ .notMember) ↔
      ∃ r s, m.owner? r = some i ∧ statuses[r]? = some s ∧ s ≠ .notMember := by
    simp only [List.any_eq_true, mem_valuesOf, decide_eq_true_eq]
    constructor
    · rintro ⟨s, ⟨r, owned, status⟩, h⟩
      exact ⟨r, s, owned, status, h⟩
    · rintro ⟨r, s, owned, status, h⟩
      exact ⟨s, ⟨r, owned, status⟩, h⟩
  rw [foldIis, getElem?_fold, ← marked]
  constructor
  · intro h
    by_contra unmarked
    rw [if_neg unmarked] at h
    split at h <;> cases h
  · intro h
    obtain ⟨r, s, owned, -⟩ := marked.1 h
    rw [if_pos (owner?_lt bounded owned), if_pos h]

theorem foldIis_notMember_iff {m : RowMap} (bounded : m.OwnersBounded)
    (statuses : List IisStatus) (i : Nat) : (m.foldIis statuses)[i]? = some .notMember ↔
      i < m.constraints ∧ ¬ ∃ r s, m.owner? r = some i ∧ statuses[r]? = some s ∧
        s ≠ .notMember := by
  rw [← foldIis_member_iff bounded, foldIis, getElem?_fold]
  split <;> rename_i inside
  · split <;> simp [inside]
  · simp [inside]

/-- After any calls, no fold reads or writes outside its entries: one pass over the recorded rows
is the fold, with one entry for each constraint. Rows are numbered from zero since the map was
last cleared. The dual of a constraint is the sum over the rows it owns, all duals together are
the sum over the recorded rows, and a constraint is a member exactly when one of its rows is
anything but no member. -/
theorem folds_after (calls : List Call) :
    (∀ r i, (after calls).owner? r = some i → i < (after calls).constraints) ∧
    (after calls).push.1 = pushes calls ∧ (after calls).size = pushes calls ∧
    (∀ (α : Type) [Scalar α] (values : List α),
      accumulate (· + ·) (List.replicate (after calls).constraints 0)
          ((after calls).owners.zip values) = some ((after calls).foldDuals values) ∧
        ((after calls).foldDuals values).length = (after calls).constraints) ∧
    (∀ statuses,
      accumulate mark (List.replicate (after calls).constraints .notMember)
          ((after calls).owners.zip statuses) = some ((after calls).foldIis statuses) ∧
        ((after calls).foldIis statuses).length = (after calls).constraints) ∧
    (∀ [Transcendental] (values : List Exact),
      ((after calls).foldDuals values = (List.range (after calls).constraints).map fun i =>
        ∑ r ∈ Finset.range values.length with (after calls).owner? r = some i,
          values.getD r 0) ∧
      ((after calls).foldDuals values).sum = (values.take (after calls).size).sum) ∧
    ∀ statuses i,
      (((after calls).foldIis statuses)[i]? = some .member ↔
        ∃ r s, (after calls).owner? r = some i ∧ statuses[r]? = some s ∧ s ≠ .notMember) ∧
      (((after calls).foldIis statuses)[i]? = some .notMember ↔
        i < (after calls).constraints ∧ ¬ ∃ r s, (after calls).owner? r = some i ∧
          statuses[r]? = some s ∧ s ≠ .notMember) := by
  have bounded : (after calls).OwnersBounded := (bounded_after calls).owners
  refine ⟨fun r i => owner?_lt bounded, ?_, size_after calls, fun α _ values => ?_,
    fun statuses => ?_, fun values => ?_, fun statuses i => ?_⟩
  · rw [push_fst, size_after]
  · exact ⟨foldDuals_eq_accumulate bounded values, length_fold _ _ _⟩
  · exact ⟨foldIis_eq_accumulate bounded statuses, length_fold _ _ _⟩
  · exact ⟨foldDuals_eq_sums _ values, sum_foldDuals bounded values⟩
  · exact ⟨foldIis_member_iff bounded statuses i, foldIis_notMember_iff bounded statuses i⟩

end RowMap

end SolverBridge
