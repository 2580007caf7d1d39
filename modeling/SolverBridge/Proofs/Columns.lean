import Mathlib.Data.List.InsertIdx
import Mathlib.Data.List.Nodup
import Mathlib.Logic.Function.Basic
import SolverBridge.Proofs.Objectives

/-! Forms in columns. Coefficients and variables are kept side by side and edited in place: the
place of a variable is looked up in an index that grows with the columns, the place of a pair of
variables is searched for, and a pass that deletes while it scans takes the zeros out of products.
As long as index and columns are in step, this is the merge of terms one by one, so that what the
columns hold in the end is the form of the terms. -/

namespace SolverBridge

variable {α : Type}

/-! ### Editing one place -/

theorem zip_modify {β γ : Type} {xs : List β} {ys : List γ} {i : Nat} {x : β} {y : γ}
    (hx : xs[i]? = some x) (hy : ys[i]? = some y) (f : β → β) :
    (xs.modify i f).zip ys = (xs.zip ys).set i (f x, y) := by
  refine List.ext_getElem? fun j => ?_
  rw [List.getElem?_set]
  by_cases same : i = j
  · subst same
    obtain ⟨hi, -⟩ := List.getElem?_eq_some_iff.1 hx
    obtain ⟨hi', -⟩ := List.getElem?_eq_some_iff.1 hy
    rw [if_pos rfl, if_pos (by rw [List.length_zip]; omega), List.getElem?_zip_eq_some]
    simp [hx, hy]
  · rw [if_neg same]
    refine Option.ext fun e => ?_
    rw [List.getElem?_zip_eq_some, List.getElem?_zip_eq_some, List.getElem?_modify_ne _ _ same]

theorem zip_eraseIdx {β γ : Type} (xs : List β) (ys : List γ) (i : Nat) :
    (xs.eraseIdx i).zip (ys.eraseIdx i) = (xs.zip ys).eraseIdx i := by
  induction xs generalizing ys i with
  | nil => rfl
  | cons x xs ih =>
    cases ys with
    | nil => cases i <;> simp
    | cons y ys =>
      cases i with
      | zero => rfl
      | succ i =>
        rw [List.eraseIdx_cons_succ, List.eraseIdx_cons_succ, List.zip_cons_cons, ih,
          List.zip_cons_cons, List.eraseIdx_cons_succ]

theorem mergeTerm_of_getElem? [Add α] {terms : List (α × Var)} {i : Nat} {a : α} {v : Var}
    (nodup : (terms.map (·.2)).Nodup) (h : terms[i]? = some (a, v)) (c : α) :
    mergeTerm terms c v = terms.set i (a + c, v) := by
  induction terms generalizing i with
  | nil => cases h
  | cons t rest ih =>
    rw [List.map_cons, List.nodup_cons] at nodup
    cases i with
    | zero =>
      obtain rfl : t = (a, v) := Option.some.inj h
      rw [mergeTerm, if_pos rfl, List.set_cons_zero]
    | succ i =>
      rw [List.getElem?_cons_succ] at h
      have other : t.2 ≠ v := fun same =>
        nodup.1 (List.mem_map.2 ⟨(a, v), List.mem_of_getElem? h, same.symm⟩)
      rw [mergeTerm, if_neg other, ih nodup.2 h, List.set_cons_succ]

theorem mergeTerm_of_notMem [Add α] {terms : List (α × Var)} {v : Var}
    (h : v ∉ terms.map (·.2)) (c : α) : mergeTerm terms c v = terms ++ [(c, v)] := by
  induction terms with
  | nil => rfl
  | cons t rest ih =>
    rw [List.map_cons, List.mem_cons, not_or] at h
    rw [mergeTerm, if_neg (Ne.symm h.1), ih h.2, List.cons_append]

/-! ### Linear columns -/

/-- Coefficients and variables side by side, and the place of each variable. -/
structure Columns (α : Type) where
  coefficients : List α
  vars : List Var
  place : Var → Option Nat

namespace Columns

def empty : Columns α := ⟨[], [], fun _ => none⟩

/-- The terms that the columns hold. -/
def terms (b : Columns α) : List (α × Var) := b.coefficients.zip b.vars

/-- Adds to the coefficient at the variable's place, or gives the variable the next place. -/
def add [Add α] (b : Columns α) (t : α × Var) : Columns α :=
  match b.place t.2 with
  | some i => { b with coefficients := b.coefficients.modify i (· + t.1) }
  | none =>
    { coefficients := b.coefficients ++ [t.1]
      vars := b.vars ++ [t.2]
      place := Function.update b.place t.2 (some b.vars.length) }

/-- The columns are of one length, and the index has the place of each variable and no other. -/
structure InStep (b : Columns α) : Prop where
  length_eq : b.coefficients.length = b.vars.length
  place_iff : ∀ v i, b.place v = some i ↔ b.vars[i]? = some v

theorem inStep_empty : (empty : Columns α).InStep := ⟨rfl, fun v i => by simp [empty]⟩

namespace InStep

variable {b : Columns α}

/-- What is looked up is inside the columns. -/
theorem place_lt (h : b.InStep) {v : Var} {i : Nat} (hv : b.place v = some i) :
    i < b.coefficients.length := by
  obtain ⟨inside, -⟩ := List.getElem?_eq_some_iff.1 ((h.place_iff v i).1 hv)
  exact h.length_eq ▸ inside

theorem notMem_of_place (h : b.InStep) {v : Var} (hv : b.place v = none) : v ∉ b.vars := by
  intro mem
  obtain ⟨i, found⟩ := List.mem_iff_getElem?.1 mem
  rw [← h.place_iff, hv] at found
  cases found

theorem nodup_vars (h : b.InStep) : b.vars.Nodup := by
  refine List.nodup_iff_getElem?_ne_getElem?.2 fun i j lt hj same => ?_
  have found : b.vars[j]? = some b.vars[j] := List.getElem?_eq_getElem hj
  have first := (h.place_iff _ i).2 (same.trans found)
  rw [(h.place_iff _ j).2 found, Option.some.injEq] at first
  omega

theorem map_terms (h : b.InStep) : b.terms.map (·.2) = b.vars :=
  List.map_snd_zip (Nat.le_of_eq h.length_eq.symm)

theorem add [Add α] (h : b.InStep) (t : α × Var) : (b.add t).InStep := by
  rw [Columns.add]
  split
  · exact ⟨by rw [List.length_modify, h.length_eq], h.place_iff⟩
  · rename_i absent
    refine ⟨by simp [h.length_eq], fun v i => ?_⟩
    have fresh := h.notMem_of_place absent
    dsimp only
    rw [List.getElem?_append, List.getElem?_singleton]
    by_cases same : v = t.2
    · subst same
      rw [Function.update_self, Option.some.injEq]
      split
      · rename_i inside
        exact iff_of_false (by omega) fun found => fresh (List.mem_of_getElem? found)
      · split
        · exact iff_of_true (by omega) rfl
        · exact iff_of_false (by omega) nofun
    · rw [Function.update_of_ne same, h.place_iff]
      split
      · exact Iff.rfl
      · rename_i outside
        rw [List.getElem?_eq_none (by omega)]
        split <;> simp [Ne.symm same]

theorem terms_add [Add α] (h : b.InStep) (t : α × Var) :
    (b.add t).terms = mergeTerm b.terms t.1 t.2 := by
  rw [Columns.add]
  split
  · rename_i i found
    have hi : i < b.coefficients.length := h.place_lt found
    have coefficient : b.coefficients[i]? = some b.coefficients[i] := List.getElem?_eq_getElem hi
    have var : b.vars[i]? = some t.2 := (h.place_iff t.2 i).1 found
    have term : b.terms[i]? = some (b.coefficients[i], t.2) :=
      List.getElem?_zip_eq_some.2 ⟨coefficient, var⟩
    rw [mergeTerm_of_getElem? (h.map_terms ▸ h.nodup_vars) term]
    exact zip_modify coefficient var _
  · rename_i absent
    rw [mergeTerm_of_notMem (h.map_terms ▸ h.notMem_of_place absent)]
    exact List.zip_append h.length_eq

end InStep

section Collect

variable [Scalar α]

/-- The two columns without the rows of coefficient zero. -/
def finish (b : Columns α) : List α × List Var := (b.terms.filter (·.1 != 0)).unzip

/-- The columns filled term by term. -/
def collect (ts : List (α × Var)) : List α × List Var := (ts.foldl add empty).finish

theorem terms_foldl_add {b : Columns α} (h : b.InStep) (ts : List (α × Var)) :
    (ts.foldl add b).InStep ∧
      (ts.foldl add b).terms = ts.foldl (fun acc t => mergeTerm acc t.1 t.2) b.terms := by
  induction ts generalizing b with
  | nil => exact ⟨h, rfl⟩
  | cons t rest ih =>
    obtain ⟨step, terms⟩ := ih (h.add t)
    exact ⟨step, by rw [List.foldl_cons, terms, h.terms_add, List.foldl_cons]⟩

/-- What is collected is the form of the terms. -/
theorem collect_eq (ts : List (α × Var)) : collect ts = (LinearForm.ofTerms ts).terms.unzip := by
  rw [collect, finish, (terms_foldl_add inStep_empty ts).2]
  rfl

end Collect

end Columns

/-! ### Quadratic columns -/

namespace QuadForm

theorem mergeTerm_of_getElem? [Add α] {terms : List (QuadTerm α)} {i : Nat} {s t : QuadTerm α}
    (nodup : (terms.map fun s => (s.first, s.second)).Nodup) (h : terms[i]? = some s)
    (same : (s.first, s.second) = (t.first, t.second)) :
    mergeTerm terms t = terms.set i { s with coefficient := s.coefficient + t.coefficient } := by
  induction terms generalizing i with
  | nil => cases h
  | cons r rest ih =>
    rw [List.map_cons, List.nodup_cons] at nodup
    cases i with
    | zero =>
      obtain rfl : r = s := Option.some.inj h
      rw [mergeTerm, if_pos (Prod.mk.inj same), List.set_cons_zero]
    | succ i =>
      rw [List.getElem?_cons_succ] at h
      have other : ¬ (r.first = t.first ∧ r.second = t.second) := fun e =>
        nodup.1 (List.mem_map.2 ⟨s, List.mem_of_getElem? h, same.trans (Prod.ext e.1 e.2).symm⟩)
      rw [mergeTerm, if_neg other, ih nodup.2 h, List.set_cons_succ]

theorem mergeTerm_of_notMem [Add α] {terms : List (QuadTerm α)} {t : QuadTerm α}
    (h : (t.first, t.second) ∉ terms.map fun s => (s.first, s.second)) :
    mergeTerm terms t = terms ++ [t] := by
  induction terms with
  | nil => rfl
  | cons r rest ih =>
    rw [List.map_cons, List.mem_cons, not_or] at h
    have other : ¬ (r.first = t.first ∧ r.second = t.second) := fun e =>
      h.1 (Prod.ext e.1 e.2).symm
    rw [mergeTerm, if_neg other, ih h.2, List.cons_append]

end QuadForm

/-- The variables of products and their coefficients side by side. -/
structure QuadColumns (α : Type) where
  firsts : List Var
  seconds : List Var
  coefficients : List α

namespace QuadColumns

def empty : QuadColumns α := ⟨[], [], []⟩

def pairs (q : QuadColumns α) : List (Var × Var) := q.firsts.zip q.seconds

/-- The terms that the columns hold. -/
def terms (q : QuadColumns α) : List (QuadTerm α) :=
  (q.coefficients.zip q.pairs).map fun (c, v, w) => ⟨c, v, w⟩

/-- Adds to the coefficient of the same pair, or appends to all three columns. -/
def add [Add α] (q : QuadColumns α) (t : QuadTerm α) : QuadColumns α :=
  match q.pairs.findIdx? (· = (t.first, t.second)) with
  | some i => { q with coefficients := q.coefficients.modify i (· + t.coefficient) }
  | none =>
    { firsts := q.firsts ++ [t.first]
      seconds := q.seconds ++ [t.second]
      coefficients := q.coefficients ++ [t.coefficient] }

/-- Takes a place out of all three columns. -/
def erase (q : QuadColumns α) (i : Nat) : QuadColumns α where
  firsts := q.firsts.eraseIdx i
  seconds := q.seconds.eraseIdx i
  coefficients := q.coefficients.eraseIdx i

/-- From a place on, what has a zero coefficient is taken out where it stands. -/
def sweep [Scalar α] (q : QuadColumns α) (i : Nat) : QuadColumns α :=
  if h : i < q.coefficients.length then
    if q.coefficients[i] == 0 then (q.erase i).sweep i else q.sweep (i + 1)
  else q
termination_by q.coefficients.length - i
decreasing_by
  · simp only [erase, List.length_eraseIdx, if_pos h]
    omega
  · omega

/-- The three columns are of one length. -/
structure InStep (q : QuadColumns α) : Prop where
  firsts : q.firsts.length = q.coefficients.length
  seconds : q.seconds.length = q.coefficients.length

theorem inStep_empty : (empty : QuadColumns α).InStep := ⟨rfl, rfl⟩

namespace InStep

variable {q : QuadColumns α}

theorem length_pairs (h : q.InStep) : q.pairs.length = q.coefficients.length := by
  rw [pairs, List.length_zip, h.firsts, h.seconds, Nat.min_self]

theorem length_terms (h : q.InStep) : q.terms.length = q.coefficients.length := by
  rw [terms, List.length_map, List.length_zip, h.length_pairs, Nat.min_self]

theorem map_terms (h : q.InStep) : q.terms.map (fun t => (t.first, t.second)) = q.pairs := by
  rw [terms, List.map_map]
  exact List.map_snd_zip (Nat.le_of_eq h.length_pairs)

theorem map_coefficients (h : q.InStep) : q.terms.map (·.coefficient) = q.coefficients := by
  rw [terms, List.map_map]
  exact List.map_fst_zip (Nat.le_of_eq h.length_pairs.symm)

theorem erase (h : q.InStep) (i : Nat) : (q.erase i).InStep := by
  constructor <;> simp [QuadColumns.erase, List.length_eraseIdx, h.firsts, h.seconds]

theorem getElem?_terms (h : q.InStep) {i : Nat} (hi : i < q.coefficients.length) :
    ∃ t, q.terms[i]? = some t ∧ q.pairs[i]? = some (t.first, t.second) ∧
      q.coefficients[i] = t.coefficient := by
  have inside : i < q.pairs.length := h.length_pairs.symm ▸ hi
  refine ⟨⟨q.coefficients[i], q.pairs[i].1, q.pairs[i].2⟩, ?_, List.getElem?_eq_getElem inside, rfl⟩
  have both : (q.coefficients.zip q.pairs)[i]? = some (q.coefficients[i], q.pairs[i]) :=
    List.getElem?_zip_eq_some.2 ⟨List.getElem?_eq_getElem hi, List.getElem?_eq_getElem inside⟩
  rw [terms, List.getElem?_map, both]
  rfl

theorem add [Add α] (h : q.InStep) (t : QuadTerm α) : (q.add t).InStep := by
  rw [QuadColumns.add]
  split
  · constructor <;> simp [h.firsts, h.seconds]
  · constructor <;> simp [h.firsts, h.seconds]

theorem terms_add [Add α] (h : q.InStep) (nodup : q.pairs.Nodup) (t : QuadTerm α) :
    (q.add t).terms = QuadForm.mergeTerm q.terms t := by
  rw [QuadColumns.add]
  split
  · rename_i i found
    obtain ⟨inside, same, -⟩ := List.findIdx?_eq_some_iff_getElem.1 found
    have hi : i < q.coefficients.length := h.length_pairs ▸ inside
    obtain ⟨s, term, pair, coefficient⟩ := h.getElem?_terms hi
    have same : (s.first, s.second) = (t.first, t.second) := by
      rw [List.getElem?_eq_getElem inside, Option.some.injEq] at pair
      exact pair.symm.trans (of_decide_eq_true same)
    have edited := zip_modify (List.getElem?_eq_getElem hi) pair (· + t.coefficient)
    rw [QuadForm.mergeTerm_of_getElem? (h.map_terms.symm ▸ nodup) term same, terms]
    refine (congrArg _ edited).trans ?_
    rw [List.map_set, coefficient]
    rfl
  · rename_i absent
    have fresh : (t.first, t.second) ∉ q.pairs := fun mem =>
      absurd (List.findIdx?_eq_none_iff.1 absent _ mem) (by simp)
    have appended : (q.firsts ++ [t.first]).zip (q.seconds ++ [t.second]) =
        q.pairs ++ [(t.first, t.second)] := List.zip_append (h.firsts.trans h.seconds.symm)
    rw [QuadForm.mergeTerm_of_notMem (h.map_terms.symm ▸ fresh), terms, pairs]
    dsimp only
    rw [appended, List.zip_append h.length_pairs.symm, List.map_append]
    rfl

end InStep

theorem terms_erase (q : QuadColumns α) (i : Nat) : (q.erase i).terms = q.terms.eraseIdx i := by
  rw [terms, terms, List.eraseIdx_map, ← zip_eraseIdx, pairs, pairs, ← zip_eraseIdx]
  rfl

/-- What is left is as it was up to the place, and after it what is not zero, in its order. -/
theorem terms_sweep [Scalar α] (q : QuadColumns α) (h : q.InStep) (i : Nat) :
    (q.sweep i).InStep ∧ (q.sweep i).terms =
      q.terms.take i ++ (q.terms.drop i).filter (·.coefficient != 0) := by
  fun_induction sweep q i with
  | case1 q i inside zero ih =>
    obtain ⟨t, term, -, coefficient⟩ := h.getElem?_terms inside
    obtain ⟨hi, rfl⟩ := List.getElem?_eq_some_iff.1 term
    obtain ⟨step, left⟩ := ih (h.erase i)
    refine ⟨step, ?_⟩
    have length : (q.terms.take i).length = i := by
      rw [List.length_take, h.length_terms]
      omega
    rw [left, terms_erase, List.eraseIdx_eq_take_drop_succ, List.take_left' length,
      List.drop_left' length, List.drop_eq_getElem_cons hi, List.filter_cons_of_neg]
    rw [bne, ← coefficient, zero]
    exact Bool.false_ne_true
  | case2 q i inside nonzero ih =>
    obtain ⟨t, term, -, coefficient⟩ := h.getElem?_terms inside
    obtain ⟨hi, rfl⟩ := List.getElem?_eq_some_iff.1 term
    obtain ⟨step, left⟩ := ih h
    refine ⟨step, ?_⟩
    rw [left, List.drop_eq_getElem_cons hi, List.filter_cons_of_pos,
      List.take_succ_eq_append_getElem hi, List.append_assoc, List.singleton_append]
    rw [bne, ← coefficient, Bool.eq_false_iff.2 nonzero]
    rfl
  | case3 q i outside =>
    refine ⟨h, ?_⟩
    rw [List.take_of_length_le (by rw [h.length_terms]; omega),
      List.drop_of_length_le (by rw [h.length_terms]; omega)]
    exact (List.append_nil _).symm

section Collect

variable [Scalar α]

/-- The columns filled product by product, and then swept. -/
def collect (ts : List (α × Var × Var)) : QuadColumns α :=
  (ts.foldl (fun q t => q.add (QuadForm.orderedTerm t.1 t.2.1 t.2.2)) empty).sweep 0

theorem terms_foldl_add {q : QuadColumns α} (h : q.InStep) (merged : QuadForm.Merged ⟨q.terms⟩)
    (ts : List (α × Var × Var)) :
    let filled := ts.foldl (fun q t => q.add (QuadForm.orderedTerm t.1 t.2.1 t.2.2)) q
    filled.InStep ∧ filled.terms = (QuadForm.addTerms ⟨q.terms⟩ ts).terms := by
  induction ts generalizing q with
  | nil => exact ⟨h, rfl⟩
  | cons t rest ih =>
    have added := h.terms_add (h.map_terms ▸ merged.2) (QuadForm.orderedTerm t.1 t.2.1 t.2.2)
    have merged' := merged.addTerm t.1 t.2.1 t.2.2
    rw [QuadForm.addTerm, ← added] at merged'
    obtain ⟨step, terms⟩ := ih (h.add _) merged'
    exact ⟨step, by rw [List.foldl_cons, terms, added]; rfl⟩

/-- What is collected is in step, and is the form of the products. -/
theorem terms_collect (ts : List (α × Var × Var)) :
    (collect ts).InStep ∧ (collect ts).terms = (QuadForm.ofTerms ts).terms := by
  obtain ⟨step, terms⟩ := terms_foldl_add (α := α) inStep_empty
    ⟨List.forall_mem_nil _, List.nodup_nil⟩ ts
  obtain ⟨step', swept⟩ := terms_sweep _ step 0
  refine ⟨step', ?_⟩
  rw [collect, swept, terms]
  rfl

end Collect

end QuadColumns

end SolverBridge
