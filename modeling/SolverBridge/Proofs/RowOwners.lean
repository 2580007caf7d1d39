import SolverBridge.Proofs.Permissive

/-! The constraint that owns a row. A problem is loaded constraint by constraint, and each is
announced before it is resolved, so that the rows a backend pushes between one announcement and
the next form a block that belongs to one constraint. The block is empty when the constraint is
skipped, becomes nothing, or is posted without rows, and no later block moves for that. What is
known of each row is then folded block by block. -/

namespace SolverBridge

/-! ### Blocks of rows -/

namespace RowMap

theorem pushRows_of_current {map : RowMap} {i : Nat} (h : map.current = some i) (n : Nat) :
    map.pushRows n = { map with owners := map.owners ++ List.replicate n i } := by
  induction n generalizing map with
  | zero =>
    rw [List.replicate_zero, List.append_nil]
    rfl
  | succ n ih =>
    have pushed : map.push.2 = { map with owners := map.owners ++ [i] } := by rw [push, h]
    have further := @ih map.push.2 (by rw [pushed, h])
    rw [pushRows, further, pushed]
    dsimp only
    rw [List.append_assoc, List.singleton_append, List.replicate_succ]

theorem pushRows_pushRows (map : RowMap) (k n : Nat) :
    (map.pushRows k).pushRows n = map.pushRows (k + n) := by
  induction k generalizing map with
  | zero => rw [Nat.zero_add, pushRows]
  | succ k ih => rw [Nat.succ_add, pushRows, pushRows, ih]

/-- Constraint `i` owns the rows from the first to before the last, and no others. -/
def OwnsBlock (map : RowMap) (i first last : Nat) : Prop :=
  ∃ before after, map.owners = before ++ (List.replicate (last - first) i ++ after) ∧
    before.length = first ∧ first ≤ last ∧ i ∉ before ∧ i ∉ after

namespace OwnsBlock

variable {map : RowMap} {i first last : Nat}

theorem owner?_eq_some_iff (h : map.OwnsBlock i first last) (r : Nat) :
    map.owner? r = some i ↔ first ≤ r ∧ r < last := by
  obtain ⟨before, after, owners, rfl, le, hbefore, hafter⟩ := h
  rw [owner?, owners]
  rcases Nat.lt_or_ge r before.length with lt | ge
  · rw [List.getElem?_append_left lt]
    exact iff_of_false (fun e => hbefore (List.mem_of_getElem? e)) (by omega)
  · rw [List.getElem?_append_right ge]
    rcases Nat.lt_or_ge (r - before.length) (last - before.length) with lt' | ge'
    · rw [List.getElem?_append_left (by simpa using lt'), List.getElem?_replicate_of_lt lt']
      exact iff_of_true rfl (by omega)
    · rw [List.getElem?_append_right (by simpa using ge')]
      exact iff_of_false (fun e => hafter (List.mem_of_getElem? e)) (by omega)

theorem filter_zip_of_notMem {β : Type} {owners : List Nat} (h : i ∉ owners) (rows : List β) :
    (owners.zip rows).filter (·.1 = i) = [] := by
  refine List.filter_eq_nil_iff.2 fun e he same => h ?_
  rw [← of_decide_eq_true same]
  exact (List.of_mem_zip he).1

/-- The values of the rows in the block, in order. -/
theorem valuesOf_eq {β : Type} (h : map.OwnsBlock i first last) {rows : List β}
    (length : rows.length = map.size) : map.valuesOf rows i = rows.extract first last := by
  obtain ⟨before, after, owners, rfl, le, hbefore, hafter⟩ := h
  rw [size, owners] at length
  simp only [List.length_append, List.length_replicate] at length
  obtain ⟨block, hblock⟩ : ∃ block, block = (rows.drop before.length).take (last - before.length) :=
    ⟨_, rfl⟩
  have size : block.length = last - before.length := by
    rw [hblock, List.length_take, List.length_drop]
    omega
  have parts : rows = rows.take before.length ++
      (block ++ (rows.drop before.length).drop (last - before.length)) := by
    rw [hblock, List.take_append_drop, List.take_append_drop]
  have all : ((List.replicate (last - before.length) i).zip block).filter (·.1 = i) =
      (List.replicate (last - before.length) i).zip block := by
    refine List.filter_eq_self.2 fun e he => decide_eq_true ?_
    exact List.eq_of_mem_replicate (List.of_mem_zip he).1
  -- the rows fall into three parts as their owners do, and only the middle one is kept
  rw [valuesOf, owners, List.extract_eq_take_drop, ← hblock]
  conv_lhs => rw [parts]
  rw [List.zip_append (by rw [List.length_take]; omega),
    List.zip_append (by rw [size, List.length_replicate]), List.filter_append, List.filter_append,
    filter_zip_of_notMem hbefore, filter_zip_of_notMem hafter, all, List.nil_append,
    List.append_nil, List.map_snd_zip (by rw [size, List.length_replicate])]

end OwnsBlock

/-- Constraint after constraint is started, and rows are pushed for it. -/
structure Grows (maps : Nat → RowMap) (n : Nat) : Prop where
  empty : maps 0 = {}
  step : ∀ i < n, ∃ k, maps (i + 1) = ((maps i).start i).pushRows k

namespace Grows

variable {maps : Nat → RowMap} {n i : Nat}

theorem constraints_eq (h : Grows maps n) (hi : i ≤ n) : (maps i).constraints = i := by
  induction i with
  | zero => rw [h.empty]
  | succ i ih =>
    obtain ⟨k, grown⟩ := h.step i hi
    rw [grown, pushRows_of_current rfl, start]
    dsimp only
    rw [ih (Nat.le_of_succ_le hi)]
    exact Nat.max_eq_right (Nat.le_succ i)

theorem owners_succ (h : Grows maps n) (hi : i < n) : (maps i).size ≤ (maps (i + 1)).size ∧
    (maps (i + 1)).owners =
      (maps i).owners ++ List.replicate ((maps (i + 1)).size - (maps i).size) i := by
  obtain ⟨k, grown⟩ := h.step i hi
  have owners : (maps (i + 1)).owners = (maps i).owners ++ List.replicate k i := by
    rw [grown, pushRows_of_current rfl, start]
  have added : (maps (i + 1)).size = (maps i).size + k := by
    rw [size, size, owners, List.length_append, List.length_replicate]
  rw [added, Nat.add_sub_cancel_left]
  exact ⟨Nat.le_add_right _ _, owners⟩

/-- Rows that are pushed later belong to later constraints. -/
theorem owners_of_le (h : Grows maps n) {k : Nat} (hi : i ≤ k) (hk : k ≤ n) :
    ∃ later, (maps k).owners = (maps i).owners ++ later ∧ ∀ j ∈ later, i ≤ j ∧ j < k := by
  induction k, hi using Nat.le_induction with
  | base => exact ⟨[], (List.append_nil _).symm, List.forall_mem_nil _⟩
  | succ k hik ih =>
    obtain ⟨later, owners, bounds⟩ := ih (Nat.le_of_succ_le hk)
    refine ⟨later ++ List.replicate ((maps (k + 1)).size - (maps k).size) k, ?_, ?_⟩
    · rw [(h.owners_succ hk).2, owners, List.append_assoc]
    · refine List.forall_mem_append.2 ⟨fun j hj => ?_, fun j hj => ?_⟩
      · exact ⟨(bounds j hj).1, Nat.lt_succ_of_lt (bounds j hj).2⟩
      · rw [List.eq_of_mem_replicate hj]
        exact ⟨hik, Nat.lt_succ_self k⟩

theorem ownsBlock (h : Grows maps n) (hi : i < n) :
    (maps n).OwnsBlock i (maps i).size (maps (i + 1)).size := by
  obtain ⟨le, block⟩ := h.owners_succ hi
  obtain ⟨earlier, owners, bounds⟩ := h.owners_of_le (Nat.zero_le i) hi.le
  obtain ⟨later, owners', bounds'⟩ := h.owners_of_le hi (Nat.le_refl n)
  rw [h.empty, List.nil_append] at owners
  refine ⟨(maps i).owners, later, ?_, rfl, le, fun hm => ?_, fun hm => ?_⟩
  · rw [owners', block, List.append_assoc]
  · rw [owners] at hm
    exact absurd (bounds i hm).2 (Nat.lt_irrefl i)
  · exact absurd (bounds' i hm).1 (Nat.lt_irrefl i)

theorem owner?_eq_some_iff (h : Grows maps n) (r i : Nat) :
    (maps n).owner? r = some i ↔ i < n ∧ (maps i).size ≤ r ∧ r < (maps (i + 1)).size := by
  constructor
  · intro owned
    obtain ⟨all, owners, bounds⟩ := h.owners_of_le (Nat.zero_le n) (Nat.le_refl n)
    rw [h.empty, List.nil_append] at owners
    have hi : i < n := (bounds i (owners ▸ List.mem_of_getElem? owned)).2
    exact ⟨hi, ((h.ownsBlock hi).owner?_eq_some_iff r).1 owned⟩
  · rintro ⟨hi, inside⟩
    exact ((h.ownsBlock hi).owner?_eq_some_iff r).2 inside

/-- Values of rows are folded block by block. -/
theorem fold_eq (h : Grows maps n) {β γ : Type} {rows : List β}
    (length : rows.length = (maps n).size) (f : List β → γ) :
    (maps n).fold rows f =
      (List.range n).map fun i => f (rows.extract (maps i).size (maps (i + 1)).size) := by
  rw [fold, h.constraints_eq (Nat.le_refl n)]
  refine List.map_congr_left fun i hi => ?_
  rw [(h.ownsBlock (List.mem_range.1 hi)).valuesOf_eq length]

/-- A constraint without rows gets what nothing is folded to. -/
theorem fold_of_size_eq (h : Grows maps n) {β γ : Type} {rows : List β}
    (length : rows.length = (maps n).size) (f : List β → γ) (hi : i < n)
    (same : (maps (i + 1)).size = (maps i).size) : ((maps n).fold rows f)[i]? = some (f []) := by
  rw [h.fold_eq length, List.getElem?_map, List.getElem?_range hi, Option.map_some, same,
    List.extract_eq_take_drop, Nat.sub_self, List.take_zero]

end Grows

end RowMap

/-! ### Backends that keep a row map -/

variable {σ α : Type}

/-- What is asked before the first constraint. -/
def Request.IsEarly : Request α → Prop
  | .acquire | .beginModification | .addVariable _ | .postObjective _ => True
  | _ => False

/-- Constraints are started in the row map, and rows are pushed while a piece is posted. -/
structure Backend.KeepsRows (b : Backend σ α) (rows : σ → RowMap) : Prop where
  started : ∀ i s, rows (b.perform (.startConstraint i) s).2.1 = (rows s.1).start i
  posted : ∀ c s, ∃ n, rows (b.perform (.postConstraint c) s).2.1 = (rows s.1).pushRows n
  kept : ∀ r s, r.IsEarly → rows (b.perform r s).2.1 = rows s.1

namespace Backend

variable {b : Backend σ α} {rows : σ → RowMap} {permissive : Bool} {s : σ × StopFlags}

/-- A plan of requests that push no row pushes none. -/
theorem rows_follow_of_forall {plan : List (Step α)}
    (h : ∀ r ∈ plan.filterMap Step.request?, ∀ s, rows (b.perform r s).2.1 = rows s.1) :
    rows (b.follow permissive plan s).state.1 = rows s.1 := by
  induction plan generalizing s with
  | nil => rfl
  | cons step rest ih =>
    cases step with
    | call r =>
      obtain ⟨kept, h⟩ := List.forall_mem_cons.1 h
      cases failed : Call.failed ⟨r, (b.perform r s).1⟩ with
      | true =>
        rw [follow_failed failed]
        exact kept s
      | false =>
        rw [follow_call failed, ih h]
        exact kept s
    | reject element kind =>
      cases permissive with
      | false => rfl
      | true => exact ih h

namespace KeepsRows

theorem follow_pieces (keeps : b.KeepsRows rows) (permissive : Bool)
    (pieces : List (FlatConstraint α)) (s : σ × StopFlags) :
    ∃ n, rows (b.follow permissive (pieces.map fun c => .call (.postConstraint c)) s).state.1 =
      (rows s.1).pushRows n ∧ (pieces = [] → n = 0) := by
  induction pieces generalizing s with
  | nil => exact ⟨0, rfl, fun _ => rfl⟩
  | cons c rest ih =>
    obtain ⟨n, posted⟩ := keeps.posted c s
    rw [List.map_cons]
    cases failed : Call.failed ⟨.postConstraint c, (b.perform (.postConstraint c) s).1⟩ with
    | true =>
      rw [follow_failed failed]
      exact ⟨n, posted, nofun⟩
    | false =>
      obtain ⟨k, further, -⟩ := ih (b.perform (.postConstraint c) s).2
      rw [follow_call failed, further, posted, RowMap.pushRows_pushRows]
      exact ⟨n + k, rfl, nofun⟩

variable [Scalar α] {table : AcceptanceTable} {domains : List (Domain α)}

/-- The rows of a constraint are pushed after it was started; without pieces there are none. -/
theorem follow_constraint (keeps : b.KeepsRows rows) (i : Nat) (c : Constraint α) :
    ∃ n, rows (b.follow permissive (constraintSteps table domains i c) s).state.1 =
      ((rows s.1).start i).pushRows n ∧ (c.posts table domains = [] → n = 0) := by
  rw [constraintSteps, follow_call rfl, Constraint.posts, ← keeps.started i s]
  cases resolveConstraint table domains (classifyConstraint c) with
  | error u => exact ⟨0, rows_follow_of_forall (List.forall_mem_nil _), fun _ => rfl⟩
  | ok pieces =>
    obtain ⟨n, pushed, none⟩ := keeps.follow_pieces permissive pieces
      (b.perform (.startConstraint i) s).2
    exact ⟨n, pushed, fun h => none (List.map_eq_nil_iff.1 h)⟩

/-- Variables and objectives have no rows. -/
theorem follow_upTo_zero (keeps : b.KeepsRows rows) (m : Problem α) :
    rows (b.follow permissive ((m.upTo 0).plan table []) s).state.1 = rows s.1 := by
  refine rows_follow_of_forall ?_
  rw [((m.upTo 0).plan_parts table).1, Problem.requests]
  refine List.forall_mem_append.2 ⟨List.forall_mem_map.2 fun d _ s => keeps.kept _ s trivial, ?_⟩
  refine List.forall_mem_append.2 ⟨List.forall_mem_flatMap.2 fun o _ => ?_, List.forall_mem_nil _⟩
  rw [Objective.posts]
  split
  · exact List.forall_mem_nil _
  · exact List.forall_mem_singleton.2 fun s => keeps.kept _ s trivial

end KeepsRows

end Backend

theorem Scripted.rowMap_loggedLast {s : ScriptedState α} {r : Request α}
    {exported : String} {next : ScriptedState α → ScriptedState α}
    (kept : ∀ t, (next t).rowMap = t.rowMap) :
    (loggedLast s r exported next).2.rowMap = s.rowMap := by
  rw [loggedLast]
  split
  · rfl
  · exact kept _

/-- The scripted backend that takes every kind of element keeps its rows in its state. -/
theorem Scripted.keepsRows_full [Scalar α] [Numeral α] (policy : Policy) :
    (full (α := α) policy).KeepsRows fun s => s.rowMap where
  started i s := rfl
  posted c s := by
    cases c with
    | linear row =>
      change ∃ n, (loggedLast s.1 _ _ _).2.rowMap = _
      rw [loggedLast]
      split
      · exact ⟨0, rfl⟩
      · exact ⟨rowsOf row, rfl⟩
    | _ => exact ⟨0, rowMap_loggedLast fun _ => rfl⟩
  kept r s early := by
    cases r with
    | acquire => rfl
    | beginModification => rfl
    | addVariable d => exact rowMap_loggedLast fun _ => by rfl
    | postObjective o => exact rowMap_loggedLast fun _ => by rfl
    | _ => exact early.elim

/-! ### Loading -/

section Loading

variable [Scalar α] {b : Backend σ α} {rows : σ → RowMap} {m : Problem α} {w : World σ α}

omit [Scalar α] in
/-- What ended well began well. -/
theorem SessionAction.exists_run_of_bind {β γ : Type} {a : SessionAction σ α β}
    {f : β → SessionAction σ α γ} {x : γ} {w' : World σ α} (h : (a >>= f).run w = (.ok x, w')) :
    ∃ y v, a.run w = (.ok y, v) ∧ (f y).run v = (.ok x, w') := by
  rw [run_bind] at h
  split at h
  · exact ⟨_, _, ‹_›, h⟩
  · cases h

theorem Session.addConstraints_append (b : Backend σ α) (i : Nat) (cs ds : List (Constraint α)) :
    addConstraints b i (cs ++ ds) = (do
      addConstraints b i cs
      addConstraints b (i + cs.length) ds) := by
  induction cs generalizing i with
  | nil => rfl
  | cons c rest ih =>
    rw [List.cons_append, addConstraints, addConstraints, ih, bind_assoc, List.length_cons,
      Nat.add_right_comm]
    rfl

/-- Loading goes on where it was left. -/
theorem Session.loadTo_of_le (b : Backend σ α) (m : Problem α) {i j : Nat} (hij : i ≤ j)
    (hi : i ≤ m.constraints.length) : loadTo b m j = (do
      loadTo b m i
      addConstraints b i ((m.constraints.take j).drop i)) := by
  have parts : m.constraints.take j = m.constraints.take i ++ (m.constraints.take j).drop i := by
    conv_lhs => rw [← List.take_append_drop i (m.constraints.take j)]
    rw [List.take_take, Nat.min_eq_left hij]
  have length : (m.constraints.take i).length = i := by
    rw [List.length_take, Nat.min_eq_left hi]
  rw [loadTo, loadTo]
  conv_lhs => rw [parts, addConstraints_append, length, Nat.zero_add]
  simp only [bind_assoc]

theorem Session.loadTo_succ (b : Backend σ α) (m : Problem α) {i : Nat} {c : Constraint α}
    (h : m.constraints[i]? = some c) : loadTo b m (i + 1) = (do
      loadTo b m i
      addConstraint b i c) := by
  obtain ⟨hi, hc⟩ := List.getElem?_eq_some_iff.1 h
  have single : (m.constraints.take (i + 1)).drop i = [c] := by
    rw [List.take_succ_eq_append_getElem hi, hc, List.drop_left' (List.length_take_of_le hi.le)]
  have alone : addConstraints b i [c] = addConstraint b i c := by
    rw [addConstraints, addConstraints]
    exact bind_pure_unit
  rw [loadTo_of_le b m (Nat.le_succ i) hi.le, single, alone]

variable {config : SessionConfig} {solver : σ} {loaded : World σ α}

/-- A load that succeeded did so up to each constraint, and told the rest. -/
theorem Session.run_loadTo (hloaded : (load b m).run w = (.ok (), loaded)) :
    loaded.1.solver = ((loadTo b m m.constraints.length).run w).2.1.solver ∧
      ∀ i ≤ m.constraints.length,
        (loadTo b m i).run w = (.ok (), ((loadTo b m i).run w).2) := by
  obtain ⟨told, eq, executes⟩ := Executes.load_eq b m
  rw [eq] at hloaded
  obtain ⟨_, v, whole, rest⟩ := SessionAction.exists_run_of_bind hloaded
  constructor
  · rw [whole]
    exact ((executes v).of_run rest).solver
  · intro i hi
    rw [loadTo_of_le b m hi hi] at whole
    obtain ⟨_, v', part, -⟩ := SessionAction.exists_run_of_bind whole
    rw [part]

/-- What the load does for one constraint. -/
theorem Session.run_addConstraint (keeps : b.KeepsRows rows) (opened : Opens b solver config w)
    (hloaded : (load b m).run w = (.ok (), loaded)) {i : Nat} {c : Constraint α}
    (h : m.constraints[i]? = some c) :
    let before := fun i => ((loadTo b m i).run w).2
    (addConstraint b i c).run (before i) = (.ok (), before (i + 1)) ∧
      ∃ k, rows (before (i + 1)).1.solver = ((rows (before i).1.solver).start i).pushRows k ∧
        (c.posts b.acceptance m.domains = [] → k = 0) := by
  intro before
  obtain ⟨hi, -⟩ := List.getElem?_eq_some_iff.1 h
  have further := (run_loadTo hloaded).2 (i + 1) hi
  rw [loadTo_succ b m h] at further
  obtain ⟨_, v, part, added⟩ := SessionAction.exists_run_of_bind further
  rw [← loadTo_succ b m h] at added
  -- an action has one end, so the load went through the very session that is named here
  have reached : before i = v := congrArg Prod.snd part
  have followed := (Executes.loadTo opened.empty.modifiable m i).of_run part
  have executes := Executes.addConstraint (b := b)
    (followed.modifiable opened.empty.modifiable) i c
  rw [followed.domains, opened.empty.domains, List.nil_append] at executes
  rw [reached, (executes.of_run added).solver]
  exact ⟨added, keeps.follow_constraint i c⟩

/-- The row map grows by one constraint after the other. -/
theorem Session.grows_loadTo (keeps : b.KeepsRows rows) (opened : Opens b solver config w)
    (empty : rows solver = {}) (hloaded : (load b m).run w = (.ok (), loaded)) :
    RowMap.Grows (fun i => rows ((loadTo b m i).run w).2.1.solver) m.constraints.length where
  empty := by
    have followed := (Executes.loadTo opened.empty.modifiable m 0).of_run
      ((run_loadTo hloaded).2 0 (Nat.zero_le _))
    rw [opened.empty.domains] at followed
    obtain ⟨-, -, flags, held⟩ := opened.meets
    have fresh : rows w.1.solver = {} := by
      rw [held, keeps.kept .beginModification _ trivial, keeps.kept .acquire _ trivial, empty]
    rw [followed.solver, ← fresh]
    exact keeps.follow_upTo_zero m
  step i hi := by
    obtain ⟨k, grown, -⟩ := (run_addConstraint keeps opened hloaded
      (List.getElem?_eq_getElem hi)).2
    exact ⟨k, grown⟩

/-- Results per row land on the constraint whose pieces were posted when the row was pushed. After
a fresh session has loaded a problem, whatever it skipped, there are as many constraints in the row
map as in the problem; the rows of a constraint are those that were there after it was added and
not before; and results are folded from just these. A constraint that posted nothing has none. -/
theorem load_rowOwners (keeps : b.KeepsRows rows) (opened : Session.Opens b solver config w)
    (empty : rows solver = {}) (hloaded : (Session.load b m).run w = (.ok (), loaded)) :
    let n := m.constraints.length
    let map := rows loaded.1.solver
    let before := fun i => ((Session.loadTo b m i).run w).2
    let size := fun i => (rows (before i).1.solver).size
    loaded.1.solver = (before n).1.solver ∧ map.constraints = n ∧
    (∀ i c, m.constraints[i]? = some c →
      (Session.addConstraint b i c).run (before i) = (.ok (), before (i + 1)) ∧
      (c.posts b.acceptance m.domains = [] → size (i + 1) = size i)) ∧
    (∀ r i, map.owner? r = some i ↔ i < n ∧ size i ≤ r ∧ r < size (i + 1)) ∧
    (∀ duals : List α, duals.length = map.size →
      map.foldDuals duals = (List.range n).map fun i =>
        (duals.extract (size i) (size (i + 1))).foldl (· + ·) 0) ∧
    (∀ statuses : List IisStatus, statuses.length = map.size →
      map.foldIis statuses = (List.range n).map fun i =>
        if (statuses.extract (size i) (size (i + 1))).any (· ≠ .notMember) then .member
        else .notMember) ∧
    ∀ i < n, size (i + 1) = size i →
      (∀ duals : List α, duals.length = map.size → (map.foldDuals duals)[i]? = some 0) ∧
      ∀ statuses : List IisStatus, statuses.length = map.size →
        (map.foldIis statuses)[i]? = some .notMember := by
  intro n map before size
  have grows := Session.grows_loadTo keeps opened empty hloaded
  have held := (Session.run_loadTo hloaded).1
  have last : map = rows (before n).1.solver := congrArg rows held
  rw [last]
  refine ⟨held, grows.constraints_eq (Nat.le_refl n), fun i c h => ?_, grows.owner?_eq_some_iff,
    fun duals length => grows.fold_eq length _, fun statuses length => grows.fold_eq length _,
    fun i hi same => ?_⟩
  · obtain ⟨added, k, grown, none⟩ := Session.run_addConstraint keeps opened hloaded h
    refine ⟨added, fun nothing => ?_⟩
    rw [none nothing] at grown
    exact (congrArg RowMap.size grown :)
  · exact ⟨fun duals length => grows.fold_of_size_eq length _ hi same,
      fun statuses length => grows.fold_of_size_eq length _ hi same⟩

end Loading

open Exact.SquareOnly in
/-- A square is skipped between a range, which becomes two rows, and a bound. -/
theorem load_rowOwners_split :
    let b := @Scripted.full Exact _ ⟨fun _ => ""⟩ .linear
    let x : Body Exact := .ofAffine (.ofVar ⟨0⟩)
    let square : Body Exact := .ofExpr (.mul (.var ⟨0⟩) (.var ⟨0⟩))
    let m : Problem Exact :=
      { domains := [.binary], constraints := [.range x 0 1, .le square 1, .le x 1] }
    ∃ w loaded, Session.Opens b { script := { objective := 0 } } { permissive := true } w ∧
      (Session.load b m).run w = (.ok (), loaded) ∧
      let map := loaded.1.solver.rowMap
      let duals : List Exact := [1, .finite 2, .finite 4]
      map.constraints = 3 ∧ map.owner? 2 = some 2 ∧
        map.foldDuals duals = [.finite 3, 0, .finite 4] ∧
        (map.foldIis [.notMember, .fixed, .member])[1]? = some .notMember := by
  intro b x square m
  have computed : (Session.create b { script := { objective := 0 } }
      { permissive := true }).toOption.any (fun s =>
      let opening := (Session.acquire b).run (s, .initial)
      let loading := (Session.load b m).run opening.2
      let size := fun i => ((Session.loadTo b m i).run opening.2).2.1.solver.rowMap.size
      opening.1.isOk && loading.1.isOk &&
        loading.2.1.solver.rowMap.size = 3 &&
        size 0 = 0 && size 1 = 2 && size 2 = 2 && size 3 = 3) = true := by
    decide +kernel
  obtain ⟨s, created, facts⟩ := (Option.any_eq_true _ _).1 computed
  simp only [Bool.and_eq_true, decide_eq_true_eq] at facts
  obtain ⟨⟨⟨⟨⟨⟨opens, loads⟩, rows⟩, size₀⟩, size₁⟩, size₂⟩, size₃⟩ := facts
  have opened : Session.Opens b { script := { objective := 0 } } { permissive := true } _ :=
    ⟨s, .initial, eq_ok_of_toOption created, SessionAction.run_of_isOk opens⟩
  have hloaded := SessionAction.run_of_isOk loads
  obtain ⟨-, constraints, -, owner, duals, -, none⟩ :=
    load_rowOwners (@Scripted.keepsRows_full Exact _ ⟨fun _ => ""⟩ .linear) opened rfl hloaded
  have positions : List.range m.constraints.length = [0, 1, 2] := rfl
  dsimp only at owner duals
  refine ⟨_, _, opened, hloaded, constraints, ?_, ?_, ?_⟩
  · rw [owner, size₂, size₃]
    decide
  · rw [duals _ (by exact rows.symm), positions]
    simp only [List.map_cons, List.map_nil, Nat.reduceAdd]
    rw [size₀, size₁, size₂, size₃]
    decide +kernel
  · exact (none 1 (by decide) (size₂.trans size₁.symm)).2 _ rows.symm

end SolverBridge
