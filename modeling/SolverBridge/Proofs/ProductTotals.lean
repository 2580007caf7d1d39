import Mathlib.Data.Sym.Sym2
import SolverBridge.Proofs.Coefficients
import SolverBridge.Proofs.Columns

/-! Products under any schedule. Products are added one at a time, and zeros may be dropped at any
moment in between. A zero that is kept waits for its pair to come again, and one that is dropped is
missed by nobody, since a pair without a term has the coefficient zero. So what carries through
every call is the total of each unordered pair: the coefficients and the value of the form are
those of all products added so far, and the terms left when zeros have just been dropped are the
pairs with a total, each with its total, in whatever order the products came and wherever zeros
were dropped before. -/

namespace SolverBridge

/-! ### Unordered pairs -/

namespace QuadTerm

variable {α : Type} {s t : QuadTerm α}

/-- The two variables of a term, in no order. -/
def pair (t : QuadTerm α) : Sym2 Var := s(t.first, t.second)

theorem joins_iff {v w : Var} : t.Joins v w ↔ t.pair = s(v, w) := Sym2.eq_iff.symm

theorem pair_orderedTerm (c : α) (v w : Var) : (QuadForm.orderedTerm c v w).pair = s(v, w) := by
  rw [QuadForm.orderedTerm]
  split
  · rfl
  · exact Sym2.eq_swap

theorem coefficient_orderedTerm (c : α) (v w : Var) :
    (QuadForm.orderedTerm c v w).coefficient = c := by
  rw [QuadForm.orderedTerm]
  split <;> rfl

/-- Ordered terms of one pair have its variables in the same places. -/
theorem eq_of_pair (h : s.pair = t.pair) (le : s.first.index ≤ s.second.index)
    (le' : t.first.index ≤ t.second.index) : (s.first, s.second) = (t.first, t.second) :=
  Joins.pair_eq (joins_iff.2 h) (joins_iff.2 rfl) le le'

end QuadTerm

/-- The product with its variables in no order. -/
def unordered {α : Type} (t : α × Var × Var) : α × Sym2 Var := (t.1, s(t.2.1, t.2.2))

/-- The sum of the coefficients of a pair. -/
def pairTotal (ts : List (Exact × Var × Var)) (z : Sym2 Var) : Exact :=
  (((ts.map unordered).filter (·.2 = z)).map (·.1)).sum

theorem pairTotal_concat (ts : List (Exact × Var × Var)) (t : Exact × Var × Var) (z : Sym2 Var) :
    pairTotal (ts ++ [t]) z = pairTotal ts z + if s(t.2.1, t.2.2) = z then t.1 else 0 := by
  by_cases same : s(t.2.1, t.2.2) = z
  · simp [pairTotal, unordered, same]
  · simp [pairTotal, unordered, same]

theorem pairTotal_perm {ts ts' : List (Exact × Var × Var)}
    (h : (ts.map unordered).Perm (ts'.map unordered)) (z : Sym2 Var) :
    pairTotal ts z = pairTotal ts' z := ((h.filter _).map _).sum_eq

namespace QuadForm

/-! ### Calls -/

section Calls

variable {α : Type}

/-- What changes a quadratic form. -/
inductive Call (α : Type)
  | add (c : α) (v w : Var)
  | canonicalize

/-- The product that a call adds. -/
def Call.product? : Call α → Option (α × Var × Var)
  | .add c v w => some (c, v, w)
  | .canonicalize => none

/-- The products that calls add, in order. -/
def added (calls : List (Call α)) : List (α × Var × Var) := calls.filterMap Call.product?

theorem added_concat (calls : List (Call α)) (c : Call α) :
    added (calls ++ [c]) = added calls ++ c.product?.toList := by
  cases c <;> simp [added, Call.product?]

/-- No two terms are about the same two variables. -/
theorem Merged.nodup_pairs {q : QuadForm α} (h : q.Merged) : (q.terms.map QuadTerm.pair).Nodup := by
  have nodup := h.2
  rw [List.Nodup, List.pairwise_map] at nodup ⊢
  exact nodup.imp_of_mem fun hs ht other same =>
    other (QuadTerm.eq_of_pair same (h.1 _ hs) (h.1 _ ht))

variable [Scalar α]

def Call.perform : Call α → QuadForm α → QuadForm α
  | .add c v w, q => q.addTerm c v w
  | .canonicalize, q => q.canonicalize

/-- The form that calls make of an empty one. -/
def after (calls : List (Call α)) : QuadForm α := calls.foldl (fun q c => c.perform q) empty

theorem after_concat (calls : List (Call α)) (c : Call α) :
    after (calls ++ [c]) = c.perform (after calls) := by
  rw [after, List.foldl_concat, ← after]

theorem Merged.canonicalize {q : QuadForm α} (h : q.Merged) : q.canonicalize.Merged :=
  ⟨fun t ht => h.1 t (List.mem_filter.1 ht).1, (List.filter_sublist.map _).nodup h.2⟩

theorem merged_after (calls : List (Call α)) : (after calls).Merged := by
  induction calls using List.reverseRecOn with
  | nil => exact ⟨List.forall_mem_nil _, List.nodup_nil⟩
  | append_singleton calls c ih =>
    rw [after_concat]
    cases c with
    | add c v w => exact ih.addTerm c v w
    | canonicalize => exact ih.canonicalize

end Calls

/-! ### Coefficients -/

section Totals

variable [Transcendental] {q : QuadForm Exact}

theorem coefficient_mergeTerm {terms : List (QuadTerm Exact)} {t : QuadTerm Exact}
    (ordered : ∀ s ∈ terms, s.first.index ≤ s.second.index) (le : t.first.index ≤ t.second.index)
    (v w : Var) : coefficient ⟨mergeTerm terms t⟩ v w =
      coefficient ⟨terms⟩ v w + if t.Joins v w then t.coefficient else 0 := by
  induction terms with
  | nil =>
    rw [mergeTerm, coefficient_cons]
    exact (zero_add _).symm
  | cons s rest ih =>
    obtain ⟨head, tail⟩ := List.forall_mem_cons.1 ordered
    rw [mergeTerm]
    split
    · rename_i same
      have joins (c : Exact) : QuadTerm.Joins ⟨c, s.first, s.second⟩ v w ↔ t.Joins v w := by
        rw [QuadTerm.Joins, QuadTerm.Joins, same.1, same.2]
      rw [coefficient_cons, coefficient_cons]
      by_cases h : t.Joins v w
      · rw [if_pos ((joins _).2 h), if_pos ((joins s.coefficient).2 h), if_pos h]
      · rw [if_neg (h ∘ (joins _).1), if_neg (h ∘ (joins s.coefficient).1), if_neg h, add_zero]
    · rename_i other
      rw [coefficient_cons, coefficient_cons, ih tail]
      split
      · rename_i joins
        have apart : ¬t.Joins v w := fun h => other (Prod.mk.inj (joins.pair_eq h head le))
        rw [if_neg apart, add_zero]
      · rfl

theorem Merged.coefficient_addTerm (hq : q.Merged) (c : Exact) (v w v' w' : Var) :
    (q.addTerm c v w).coefficient v' w' =
      q.coefficient v' w' + if s(v, w) = s(v', w') then c else 0 := by
  rw [QuadForm.addTerm, coefficient_mergeTerm hq.1 (orderedTerm_le c v w)]
  simp only [QuadTerm.joins_iff, QuadTerm.pair_orderedTerm, QuadTerm.coefficient_orderedTerm]

/-- A term of coefficient zero counts as much as none. -/
theorem Merged.coefficient_canonicalize (hq : q.Merged) (v w : Var) :
    q.canonicalize.coefficient v w = q.coefficient v w := by
  obtain ⟨terms⟩ := q
  rw [QuadForm.canonicalize]
  induction terms with
  | nil => rfl
  | cons t rest ih =>
    rw [coefficient_cons, List.filter_cons]
    split
    · rw [coefficient_cons, ih hq.tail]
    · rename_i zero
      rw [exact_zero, exact_bne_finite, not_not] at zero
      rw [ih hq.tail]
      split
      · rename_i joins
        rw [hq.coefficient_tail joins, zero]
        rfl
      · rfl

theorem Merged.coefficient_of_mem (hq : q.Merged) {t : QuadTerm Exact} (ht : t ∈ q.terms) :
    q.coefficient t.first t.second = t.coefficient := by
  obtain ⟨terms⟩ := q
  induction terms with
  | nil => cases ht
  | cons s rest ih =>
    rw [coefficient_cons]
    split
    · rename_i joins
      rcases List.mem_cons.1 ht with rfl | ht
      · rfl
      · have same := QuadTerm.eq_of_pair (QuadTerm.joins_iff.1 joins) (hq.1 s List.mem_cons_self)
          (hq.1 t (List.mem_cons_of_mem _ ht))
        exact absurd (List.mem_map.2 ⟨t, ht, same.symm⟩) (List.nodup_cons.1 hq.2).1
    · rename_i apart
      rcases List.mem_cons.1 ht with rfl | ht
      · exact absurd (.inl ⟨rfl, rfl⟩) apart
      · exact ih hq.tail ht

/-- A pair with a coefficient has a term. -/
theorem Merged.mem_of_coefficient (hq : q.Merged) {t : QuadTerm Exact}
    (le : t.first.index ≤ t.second.index) (nonzero : t.coefficient ≠ 0)
    (h : q.coefficient t.first t.second = t.coefficient) : t ∈ q.terms := by
  rw [coefficient] at h
  cases found : q.terms.find? (·.Joins t.first t.second) with
  | none =>
    rw [found] at h
    exact absurd h.symm nonzero
  | some s =>
    rw [found] at h
    have mem := List.mem_of_find?_eq_some found
    have joins : s.Joins t.first t.second := by simpa using List.find?_some found
    have same := QuadTerm.eq_of_pair (QuadTerm.joins_iff.1 joins) (hq.1 s mem) le
    obtain ⟨c, v, w⟩ := s
    obtain ⟨rfl, rfl⟩ := Prod.mk.inj same
    obtain rfl : c = t.coefficient := h
    exact mem

/-- What is left without zeros is the ordered terms of a coefficient that is their own. -/
theorem Merged.mem_canonicalize (hq : q.Merged) (t : QuadTerm Exact) :
    t ∈ q.canonicalize.terms ↔ t.first.index ≤ t.second.index ∧ t.coefficient ≠ 0 ∧
      t.coefficient = q.coefficient t.first t.second := by
  constructor
  · intro ht
    obtain ⟨mem, nonzero⟩ := List.mem_filter.1 ht
    exact ⟨hq.1 t mem, exact_bne_finite.1 nonzero, (hq.coefficient_of_mem mem).symm⟩
  · rintro ⟨le, nonzero, own⟩
    exact List.mem_filter.2 ⟨hq.mem_of_coefficient le nonzero own.symm, exact_bne_finite.2 nonzero⟩

/-! ### Totals -/

/-- The coefficients of the form are the totals of the products, and its value is their sum. -/
structure Accumulates (q : QuadForm Exact) (ts : List (Exact × Var × Var)) : Prop where
  merged : q.Merged
  coefficient : ∀ v w, q.coefficient v w = pairTotal ts s(v, w)
  defined : ∀ p, PairsDefined p ts → q.Defined p
  value : ∀ p, PairsDefined p ts → q.evaluate p = quadValue p ts

namespace Accumulates

variable {ts : List (Exact × Var × Var)}

theorem addTerm (h : q.Accumulates ts) (c : Exact) (v w : Var) :
    (q.addTerm c v w).Accumulates (ts ++ [(c, v, w)]) := by
  have before {p : Point Exact} (hp : PairsDefined p (ts ++ [(c, v, w)])) :
      PairsDefined p ts ∧ (v.value p).IsRational ∧ (w.value p).IsRational := by
    rw [PairsDefined, List.forall_mem_append, List.forall_mem_singleton] at hp
    exact hp
  refine ⟨h.merged.addTerm c v w, fun v' w' => ?_, fun p hp => ?_, fun p hp => ?_⟩
  · rw [h.merged.coefficient_addTerm, h.coefficient, pairTotal_concat]
  · obtain ⟨hts, hv, hw⟩ := before hp
    exact defined_addTerm (h.defined p hts) c hv hw
  · obtain ⟨hts, hv, hw⟩ := before hp
    rw [evaluate_addTerm q c hv hw, h.value p hts, quadValue_append, quadValue_cons]
    exact congrArg _ (add_zero _).symm

theorem canonicalize (h : q.Accumulates ts) : q.canonicalize.Accumulates ts where
  merged := h.merged.canonicalize
  coefficient v w := (h.merged.coefficient_canonicalize v w).trans (h.coefficient v w)
  defined p hp := fun t ht => h.defined p hp t (List.mem_filter.1 ht).1
  value p hp := (evaluate_canonicalize (h.defined p hp)).trans (h.value p hp)

theorem mem_canonicalize (h : q.Accumulates ts) (t : QuadTerm Exact) :
    t ∈ q.canonicalize.terms ↔ t.first.index ≤ t.second.index ∧ t.coefficient ≠ 0 ∧
      t.coefficient = pairTotal ts t.pair := by
  rw [h.merged.mem_canonicalize, h.coefficient]
  rfl

/-- The terms left without zeros are the same up to their order, whatever order the products had. -/
theorem perm_canonicalize {q' : QuadForm Exact} {ts' : List (Exact × Var × Var)}
    (h : q.Accumulates ts) (h' : q'.Accumulates ts')
    (perm : (ts.map unordered).Perm (ts'.map unordered)) :
    q.canonicalize.terms.Perm q'.canonicalize.terms := by
  refine (List.perm_ext_iff_of_nodup h.merged.canonicalize.2.of_map
    h'.merged.canonicalize.2.of_map).2 fun t => ?_
  rw [h.mem_canonicalize, h'.mem_canonicalize, pairTotal_perm perm]

end Accumulates

theorem accumulates_after (calls : List (Call Exact)) :
    (after calls).Accumulates (added calls) := by
  induction calls using List.reverseRecOn with
  | nil =>
    exact ⟨merged_after [], fun _ _ => rfl, fun _ _ => List.forall_mem_nil _, fun _ _ => rfl⟩
  | append_singleton calls c ih =>
    rw [after_concat, added_concat]
    cases c with
    | add c v w => exact ih.addTerm c v w
    | canonicalize =>
      rw [Call.product?, Option.toList_none, List.append_nil]
      exact ih.canonicalize

/-- Products that are added one after the other are what the canonical form is made of. -/
theorem accumulates_addTerms (ts : List (Exact × Var × Var)) :
    (empty.addTerms ts).Accumulates ts := by
  have sums := accumulates_after (ts.map fun t => Call.add t.1 t.2.1 t.2.2)
  have products : added (ts.map fun t => Call.add t.1 t.2.1 t.2.2) = ts := by
    rw [added, List.filterMap_map]
    exact List.filterMap_some
  rwa [after, List.foldl_map, products] at sums

end Totals

end QuadForm

/-! ### The same calls on columns -/

namespace QuadColumns

variable {α : Type} [Scalar α]

/-- What a call does to the columns. -/
def perform (q : QuadColumns α) : QuadForm.Call α → QuadColumns α
  | .add c v w => q.add (QuadForm.orderedTerm c v w)
  | .canonicalize => q.sweep 0

/-- The columns that calls make of empty ones. -/
def after (calls : List (QuadForm.Call α)) : QuadColumns α := calls.foldl perform empty

theorem InStep.terms_sweep_zero {q : QuadColumns α} (h : q.InStep) :
    (q.sweep 0).terms = q.terms.filter (·.coefficient != 0) := (terms_sweep q h 0).2

/-- The columns stay in step, and hold the form. -/
theorem terms_after (calls : List (QuadForm.Call α)) :
    (after calls).InStep ∧ (after calls).terms = (QuadForm.after calls).terms := by
  induction calls using List.reverseRecOn with
  | nil => exact ⟨inStep_empty, rfl⟩
  | append_singleton calls c ih =>
    obtain ⟨step, terms⟩ := ih
    have nodup : (after calls).pairs.Nodup := by
      rw [← step.map_terms, terms]
      exact (QuadForm.merged_after calls).2
    rw [QuadForm.after_concat, after, List.foldl_concat, ← after]
    cases c with
    | add c v w =>
      refine ⟨step.add _, ?_⟩
      rw [perform, step.terms_add nodup, terms]
      rfl
    | canonicalize =>
      refine ⟨(terms_sweep _ step 0).1, ?_⟩
      rw [perform, step.terms_sweep_zero, terms]
      rfl

/-! ### The loop that deletes while it scans -/

/-- One pass of the loop, as long as the place is inside the columns. -/
def pass? (s : QuadColumns α × Nat) : Option (QuadColumns α × Nat) :=
  if h : s.2 < s.1.coefficients.length then
    some (if s.1.coefficients[s.2] == 0 then (s.1.erase s.2, s.2) else (s.1, s.2 + 1))
  else none

/-- A number of passes, one after the other. -/
def passes : Nat → QuadColumns α × Nat → Option (QuadColumns α × Nat)
  | 0, s => some s
  | n + 1, s => (pass? s).bind (passes n)

theorem InStep.pass {s s' : QuadColumns α × Nat} (h : s.1.InStep) (one : pass? s = some s') :
    s'.1.InStep := by
  rw [pass?, Option.dite_none_right_eq_some] at one
  obtain ⟨inside, one⟩ := one
  cases one
  split
  · exact h.erase s.2
  · exact h

/-- The columns are of one length after each pass, so what is taken out is there in all three. -/
theorem InStep.passes {s s' : QuadColumns α × Nat} {n : Nat} (h : s.1.InStep)
    (run : QuadColumns.passes n s = some s') : s'.1.InStep := by
  induction n generalizing s with
  | zero =>
    cases run
    exact h
  | succ n ih =>
    obtain ⟨next, one, more⟩ := Option.bind_eq_some_iff.1 run
    exact ih (h.pass one) more

theorem pass?_end (q : QuadColumns α) : pass? (q, q.coefficients.length) = none :=
  dif_neg (Nat.lt_irrefl _)

/-- The loop makes as many passes as there are places, and is then at the end. -/
theorem passes_sweep (q : QuadColumns α) (i : Nat) (h : i ≤ q.coefficients.length) :
    passes (q.coefficients.length - i) (q, i) =
      some (q.sweep i, (q.sweep i).coefficients.length) := by
  fun_induction sweep q i with
  | case1 q i inside zero ih =>
    have length : (q.erase i).coefficients.length = q.coefficients.length - 1 :=
      List.length_eraseIdx_of_lt inside
    have left : q.coefficients.length - i = (q.erase i).coefficients.length - i + 1 := by omega
    rw [left, passes, pass?, dif_pos inside, if_pos zero, Option.bind_some]
    exact ih (by omega)
  | case2 q i inside nonzero ih =>
    have left : q.coefficients.length - i = q.coefficients.length - (i + 1) + 1 := by omega
    rw [left, passes, pass?, dif_pos inside, if_neg nonzero, Option.bind_some]
    exact ih inside
  | case3 q i outside =>
    obtain rfl : i = q.coefficients.length := by omega
    rw [Nat.sub_self, passes]

end QuadColumns

section Schedules

variable [Transcendental]

theorem pairsDefined_of_covers {p : Point Exact} (hp : p.IsRational) {ts : List (Exact × Var × Var)}
    (h : p.Covers (ts.flatMap fun t => [t.2.1, t.2.2])) : PairsDefined p ts := by
  intro t ht
  have covered : ∀ v ∈ [t.2.1, t.2.2], v.index < p.length := fun v hv =>
    h v (List.mem_flatMap.2 ⟨t, ht, hv⟩)
  exact ⟨hp.value (covered _ (by simp)), hp.value (covered _ (by simp))⟩

/-- Whatever products are added to an empty form, and wherever zeros are dropped in between, the
columns are in step and hold the form, pairs are in order, and no two terms are about the same two
variables. The value is the sum of the products, and coefficients are their totals. When zeros
have just been dropped, the terms are the pairs with a total. So neither the order of the products,
nor that of the variables in a product, nor where zeros were dropped before makes a difference to
them, and they are those of the canonical form of the products. The loop that drops zeros keeps the
columns in step, ends after one pass for each place, and leaves the rest in its order. -/
theorem QuadForm.after_accumulates (calls : List (Call Exact)) :
    let q := after calls
    let ts := added calls
    let columns := QuadColumns.after calls
    (columns.InStep ∧ columns.terms = q.terms) ∧
    (∀ t ∈ q.terms, t.first.index ≤ t.second.index) ∧
    (q.terms.map QuadTerm.pair).Nodup ∧
    (∀ p : Point Exact, p.IsRational → p.Covers (ts.flatMap fun t => [t.2.1, t.2.2]) →
      q.evaluate p = (ts.map fun t => t.1 * t.2.1.value p * t.2.2.value p).sum) ∧
    (∀ v w, q.coefficient v w = pairTotal ts s(v, w)) ∧
    (∀ t, t ∈ q.canonicalize.terms ↔ t.first.index ≤ t.second.index ∧ t.coefficient ≠ 0 ∧
      t.coefficient = pairTotal ts t.pair) ∧
    (∀ calls', (ts.map unordered).Perm ((added calls').map unordered) →
      (∀ v w, q.coefficient v w = (after calls').coefficient v w) ∧
      q.canonicalize.terms.Perm (after calls').canonicalize.terms) ∧
    q.canonicalize.terms.Perm (ofTerms ts).terms ∧
    (∀ n s, QuadColumns.passes n (columns, 0) = some s → s.1.InStep) ∧
    QuadColumns.passes columns.coefficients.length (columns, 0) =
      some (columns.sweep 0, (columns.sweep 0).coefficients.length) ∧
    QuadColumns.pass? (columns.sweep 0, (columns.sweep 0).coefficients.length) = none ∧
    (columns.sweep 0).terms = columns.terms.filter (·.coefficient ≠ 0) := by
  intro q ts columns
  have sums : q.Accumulates ts := accumulates_after calls
  obtain ⟨step, terms⟩ := QuadColumns.terms_after calls
  refine ⟨⟨step, terms⟩, sums.merged.1, sums.merged.nodup_pairs, fun p hp covers => ?_,
    sums.coefficient, sums.mem_canonicalize, fun calls' perm => ⟨fun v w => ?_, ?_⟩,
    sums.perm_canonicalize (accumulates_addTerms ts) (.refl _), fun n s => step.passes,
    columns.passes_sweep 0 (Nat.zero_le _), (columns.sweep 0).pass?_end, ?_⟩
  · rw [sums.value p (pairsDefined_of_covers hp covers), quadValue, exact_sum_eq]
    rfl
  · rw [sums.coefficient, (accumulates_after calls').coefficient, pairTotal_perm perm]
  · exact sums.perm_canonicalize (accumulates_after calls') perm
  · rw [step.terms_sweep_zero]
    refine List.filter_congr fun t _ => ?_
    rw [Bool.eq_iff_iff, exact_zero, exact_bne_finite, decide_eq_true_iff]

end Schedules

open Exact.SquareOnly in
/-- The products `y x + x x - x x`, zeros dropped, `+ 2 x x + 2 x y - 2 x x`: what is left is
`3 x y`, as it is when the same products come in another order with their variables exchanged, and
zeros are dropped elsewhere. At `x = 2`, `y = 5` the value is 30. -/
theorem QuadForm.after_accumulates_interleaved :
    let x : Var := ⟨0⟩
    let y : Var := ⟨1⟩
    let calls : List (Call Exact) := [.add (.finite 1) y x, .add (.finite 1) x x,
      .add (.finite (-1)) x x, .canonicalize, .add (.finite 2) x x, .add (.finite 2) x y,
      .add (.finite (-2)) x x]
    let calls' : List (Call Exact) := [.add (.finite 2) y x, .add (.finite (-2)) x x,
      .add (.finite 2) x x, .canonicalize, .canonicalize, .add (.finite 1) x x,
      .add (.finite 1) x y, .add (.finite (-1)) x x]
    let p : Point Exact := [.finite 2, .finite 5]
    (after calls).canonicalize.terms.Perm (after calls').canonicalize.terms ∧
      (⟨.finite 3, x, y⟩ : QuadTerm Exact) ∈ (after calls).canonicalize.terms ∧
      (after calls').coefficient y x = .finite 3 ∧ (after calls).evaluate p = .finite 30 := by
  intro x y calls calls' p
  have rational : p.IsRational := by
    unfold Point.IsRational
    decide
  have covers : p.Covers ((added calls).flatMap fun t => [t.2.1, t.2.2]) := by
    unfold Point.Covers
    decide
  have perm : ((added calls).map unordered).Perm ((added calls').map unordered) := by
    decide +kernel
  obtain ⟨-, -, -, value, coefficient, left, schedule, -⟩ := after_accumulates calls
  obtain ⟨same, terms⟩ := schedule calls' perm
  refine ⟨terms, (left _).2 (by decide +kernel), ?_,
    (value p rational covers).trans (by decide +kernel)⟩
  rw [← same, coefficient]
  decide +kernel

end SolverBridge
