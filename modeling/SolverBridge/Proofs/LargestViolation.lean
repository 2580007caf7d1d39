import SolverBridge.Proofs.BoxValues
import SolverBridge.Proofs.Reformulation
import SolverBridge.Proofs.Spelling

/-! The largest violation of an indicator. The number that an indicator is relaxed by is added up
term by term. It is the exact maximum of `form - rhs` in the box, one that is reached at a corner,
or else it is infinite, and then the form is unbounded. So the indicator is reformulated whenever
any number could relax it, and the number is no larger than it has to be. -/

namespace SolverBridge

/-! ### Indicators -/

section Indicators

variable [Transcendental] {K : Type*} [Field K] [LinearOrder K] [IsStrictOrderedRing K]
  {domains : List (Domain Exact)}

/-- The fold adds the largest value of the form to a largest value. -/
theorem isPeak_foldlM {terms : List (Exact × Var)} (h : LinearForm.HasBox domains ⟨terms⟩)
    {s : Set K} {init : Exact} (hs : IsPeak s init) :
    ∃ m, terms.foldlM (fun m t => domains[t.2.index]?.map fun d =>
        m + Scalar.max (t.1 * d.lower) (t.1 * d.upper)) init = some m ∧
      IsPeak (Set.image2 (· + ·) s (boxValues K domains ⟨terms⟩)) m := by
  induction terms generalizing s init with
  | nil =>
    refine ⟨init, rfl, ?_⟩
    have values : boxValues K domains ⟨[]⟩ = {0} := by
      refine Set.eq_singleton_iff_unique_mem.2 ⟨⟨0, List.forall_mem_nil _, rfl⟩, ?_⟩
      rintro _ ⟨x, -, rfl⟩
      rfl
    simpa [values] using hs
  | cons t rest ih =>
    obtain ⟨d, known, span⟩ := h.known t.2 List.mem_cons_self
    obtain ⟨c, hc⟩ := h.rational t List.mem_cons_self
    have nonzero : c ≠ 0 := finite_bne_zero.1 (hc ▸ h.canonical.2 t List.mem_cons_self)
    obtain ⟨m, fold, peak⟩ := ih h.tail (hs.add (isPeak_max (K := K) span nonzero))
    refine ⟨m, ?_, ?_⟩
    · rw [List.foldlM_cons, known, hc]
      exact fold
    · rw [boxValues_cons known (List.nodup_cons.1 h.canonical.1).1, hc,
        ← Set.image2_assoc (add_assoc · · ·)]
      exact peak

namespace Indicator

variable {i : Indicator Exact}

/-- The trigger is binary, the form has a box and the bound of the form is rational. -/
structure HasBox (domains : List (Domain Exact)) (i : Indicator Exact) : Prop where
  trigger : isBinaryVar domains i.trigger = true
  form : i.form.HasBox domains
  rhs : i.rhs.IsRational

/-- What the form exceeds its bound by in the box; negative where it does not. -/
def violations (K : Type*) [Field K] [LinearOrder K] (domains : List (Domain Exact))
    (i : Indicator Exact) : Set K :=
  (fun x => i.form.valueAt x - i.rhs.toRat) '' {x | InBox domains i.form x}

/-- The number that is added up is the largest violation in the box. -/
theorem isPeak_largestViolation (K : Type*) [Field K] [LinearOrder K] [IsStrictOrderedRing K]
    (h : i.HasBox domains) :
    ∃ m, i.largestViolation? domains = some m ∧ IsPeak (violations K domains i) m := by
  obtain ⟨r, hr⟩ := h.rhs
  have start : IsPeak {((-r : Rat) : K)} (-i.rhs) := by
    rw [hr]
    exact .finite isGreatest_singleton
  obtain ⟨m, fold, peak⟩ := isPeak_foldlM h.form start
  refine ⟨m, fold, ?_⟩
  have values : violations K domains i =
      Set.image2 (· + ·) {((-r : Rat) : K)} (boxValues K domains i.form) := by
    rw [Set.image2_singleton_left, boxValues, Set.image_image, violations, hr]
    refine Set.image_congr fun x _ => ?_
    rw [Rat.cast_neg, neg_add_eq_sub]
    rfl
  rw [values]
  exact peak

/-- With a binary trigger, the largest violation decides. -/
theorem rows?_eq (h : i.HasBox domains) {m : Exact} (hm : i.largestViolation? domains = some m) :
    i.rows? domains = if Scalar.isFinite m then
      if Scalar.le m 0 then some [] else some [i.relaxedRow m] else none := by
  rw [rows?, if_pos h.trigger, hm]

/-- Either the form is unbounded in the box, or its violation has a largest value there, which
decides between no row and one. -/
theorem reformulate?_cases (K : Type*) [Field K] [LinearOrder K] [IsStrictOrderedRing K]
    (h : i.HasBox domains) :
    ((FlatConstraint.indicator i).reformulate? domains = none ∧
      ∀ b : K, ∃ x, InBox domains i.form x ∧ b < i.form.valueAt x) ∨
    ∃ m : Rat, IsGreatest (violations K domains i) m ∧
      (FlatConstraint.indicator i).reformulate? domains =
        some (if m ≤ 0 then [] else [.linear (i.relaxedRow (.finite m))]) := by
  obtain ⟨m, sum, peak⟩ := isPeak_largestViolation K h
  rw [FlatConstraint.reformulate?, FlatConstraint.rows?, rows?_eq h sum]
  cases peak with
  | posInf unbounded =>
    refine .inl ⟨rfl, fun b => ?_⟩
    obtain ⟨_, ⟨x, hx, rfl⟩, le⟩ := unbounded (b + 1 - i.rhs.toRat)
    exact ⟨x, hx, by linarith⟩
  | @finite q greatest =>
    refine .inr ⟨q, greatest, ?_⟩
    rw [if_pos (isFinite_iff.2 (Exact.isRational_finite q)), exact_zero]
    by_cases nonpos : q ≤ 0
    · rw [if_pos (le_finite.2 nonpos), if_pos nonpos]
      rfl
    · rw [if_neg (nonpos ∘ le_finite.1), if_neg nonpos]
      rfl

omit [Transcendental] in
theorem not_unbounded {m : Rat} (greatest : IsGreatest (violations K domains i) (m : K)) :
    ¬∀ b : K, ∃ x, InBox domains i.form x ∧ b < i.form.valueAt x := by
  intro unbounded
  obtain ⟨x, hx, lt⟩ := unbounded (m + i.rhs.toRat)
  have le : i.form.valueAt x - i.rhs.toRat ≤ m := greatest.2 ⟨x, hx, rfl⟩
  linarith

theorem reformulate?_eq_none (K : Type*) [Field K] [LinearOrder K] [IsStrictOrderedRing K]
    (h : i.HasBox domains) : (FlatConstraint.indicator i).reformulate? domains = none ↔
      ∀ b : K, ∃ x, InBox domains i.form x ∧ b < i.form.valueAt x := by
  rcases reformulate?_cases K h with ⟨none, unbounded⟩ | ⟨m, greatest, some⟩
  · exact iff_of_true none unbounded
  · rw [some]
    exact iff_of_false nofun (not_unbounded greatest)

theorem reformulate?_eq_nil (K : Type*) [Field K] [LinearOrder K] [IsStrictOrderedRing K]
    (h : i.HasBox domains) : (FlatConstraint.indicator i).reformulate? domains = some [] ↔
      ∀ x : Var → K, InBox domains i.form x → i.form.valueAt x ≤ i.rhs.toRat := by
  rcases reformulate?_cases K h with ⟨none, unbounded⟩ | ⟨m, greatest, some⟩
  · rw [none]
    refine iff_of_false nofun fun holds => ?_
    obtain ⟨x, hx, lt⟩ := unbounded i.rhs.toRat
    exact absurd (holds x hx) (not_le_of_gt lt)
  · rw [some, Option.some_inj]
    constructor
    · intro nil x hx
      have nonpos : m ≤ 0 := by
        by_contra positive
        rw [if_neg positive] at nil
        cases nil
      have le : i.form.valueAt x - i.rhs.toRat ≤ m := greatest.2 ⟨x, hx, rfl⟩
      have : (m : K) ≤ 0 := Rat.cast_nonpos.2 nonpos
      linarith
    · intro holds
      -- the largest violation is that of a point of the box
      obtain ⟨x, hx, value⟩ := greatest.1
      have nonpos : (m : K) ≤ 0 := by
        rw [← value, sub_nonpos]
        exact holds x hx
      exact if_pos (Rat.cast_nonpos.1 nonpos)

end Indicator

end Indicators

/-! ### The row -/

namespace LinearForm

variable [Transcendental]

/-- Merging one more term adds to the coefficient of its variable. -/
theorem Canonical.coefficient_extended {f : LinearForm Exact} (hf : f.Canonical) (c : Exact)
    (v w : Var) :
    (f.extended [(c, v)]).coefficient w = f.coefficient w + if w = v then c else 0 := by
  have merged : mergedInto [] (f.terms ++ [(c, v)]) = mergeTerm f.terms c v := by
    rw [mergedInto, List.foldl_append, ← mergedInto]
    exact congrArg (mergeTerm · c v) (mergedInto_of_nodup hf.1)
  have terms : f.extended [(c, v)] = ⟨(mergeTerm f.terms c v).filter (·.1 != 0)⟩ :=
    congrArg (fun ts => LinearForm.mk (ts.filter (·.1 != 0))) merged
  rw [terms, coefficient_filter (nodup_mergeTerm hf.1), coefficient_mergeTerm]

end LinearForm

/-- The row is `form + c * trigger <= bound`, with the terms of the trigger merged. -/
structure LinearRow.Relaxes [Transcendental] (row : LinearRow Exact) (i : Indicator Exact)
    (c bound : Rat) : Prop where
  lower : row.lower = .negInf
  upper : row.upper = .finite bound
  canonical : row.form.Canonical
  coefficient : ∀ v, row.form.coefficient v =
    i.form.coefficient v + if v = i.trigger then .finite c else 0

theorem Indicator.relaxes_relaxedRow [Transcendental] {i : Indicator Exact}
    (hf : i.form.Canonical) (hr : i.rhs.IsRational) (m : Rat) :
    if i.value = 0 then (i.relaxedRow (.finite m)).Relaxes i (-m) i.rhs.toRat
    else (i.relaxedRow (.finite m)).Relaxes i m (i.rhs.toRat + m) := by
  rw [relaxedRow]
  split
  · exact ⟨rfl, hr.finite_toRat.symm, LinearForm.canonical_ofTerms _,
      hf.coefficient_extended (.finite (-m)) i.trigger⟩
  · refine ⟨rfl, ?_, LinearForm.canonical_ofTerms _,
      hf.coefficient_extended (.finite m) i.trigger⟩
    rw [← finite_add, hr.finite_toRat]
    rfl

/-- Let the trigger of an indicator be binary and let its form be over known variables with bounds
in order. The indicator is not reformulated exactly when its form is unbounded in the box, and it
needs no row exactly when the form is at most its bound there. Otherwise it becomes one row, which
relaxes the bound by the largest violation in the box, one that is reached. So an indicator that is
reformulated still is with narrower bounds. -/
theorem Indicator.reformulate_tight [Transcendental] (K : Type*) [Field K] [LinearOrder K]
    [IsStrictOrderedRing K] {domains : List (Domain Exact)} {i : Indicator Exact}
    (h : i.HasBox domains) :
    ((FlatConstraint.indicator i).reformulate? domains = none ↔
      ∀ b : K, ∃ x, InBox domains i.form x ∧ b < i.form.valueAt x) ∧
    ((FlatConstraint.indicator i).reformulate? domains = some [] ↔
      ∀ x : Var → K, InBox domains i.form x → i.form.valueAt x ≤ i.rhs.toRat) ∧
    ((FlatConstraint.indicator i).reformulate? domains ≠ none →
      (FlatConstraint.indicator i).reformulate? domains ≠ some [] →
        ∃ (row : LinearRow Exact) (m : Rat),
          (FlatConstraint.indicator i).reformulate? domains = some [.linear row] ∧
          IsGreatest (i.violations K domains) m ∧
          if i.value = 0 then row.Relaxes i (-m) i.rhs.toRat
          else row.Relaxes i m (i.rhs.toRat + m)) ∧
    ∀ domains', Narrowed domains' domains → i.form.HasBox domains' →
      (FlatConstraint.indicator i).reformulate? domains ≠ none →
        (FlatConstraint.indicator i).reformulate? domains' ≠ none := by
  refine ⟨reformulate?_eq_none K h, reformulate?_eq_nil K h, fun some nonempty => ?_,
    fun domains' narrowed box some none => ?_⟩
  · rcases reformulate?_cases K h with ⟨none, -⟩ | ⟨m, greatest, pieces⟩
    · exact absurd none some
    · by_cases nonpos : m ≤ 0
      · rw [if_pos nonpos] at pieces
        exact absurd pieces nonempty
      · rw [if_neg nonpos] at pieces
        exact ⟨_, m, pieces, greatest, relaxes_relaxedRow h.form.canonical h.rhs m⟩
  · have box' : i.HasBox domains' := ⟨narrowed.isBinaryVar h.trigger, box, h.rhs⟩
    refine some ((reformulate?_eq_none K h).2 fun b => ?_)
    obtain ⟨x, hx, lt⟩ := (reformulate?_eq_none K box').1 none b
    exact ⟨x, narrowed.inBox hx, lt⟩

open Exact.SquareOnly in
/-- The trigger occurs in the form, and two variables are bounded on the one side that counts:
`b + 2 * x - 3 * y` reaches `21` at `(1, 10, 0)`, so that `M` is `17`. -/
theorem Indicator.reformulate_tight_half_open :
    let domains : List (Domain Exact) :=
      [.binary, .continuous .negInf (.finite 10), .continuous (.finite 0) .posInf]
    let i : Indicator Exact :=
      ⟨⟨0⟩, 1, ⟨[(.finite 1, ⟨0⟩), (.finite 2, ⟨1⟩), (.finite (-3), ⟨2⟩)]⟩, .finite 4⟩
    i.HasBox domains ∧ IsGreatest (i.violations Rat domains) 17 ∧
      (FlatConstraint.indicator i).reformulate? domains =
        some [.linear (i.relaxedRow (.finite 17))] ∧
      (i.relaxedRow (.finite 17)).Relaxes i 17 21 := by
  intro domains i
  have box : i.HasBox domains := by
    refine ⟨by decide +kernel, ⟨⟨by decide, by decide +kernel⟩, ?_, fun v hv => ?_⟩, ⟨4, rfl⟩⟩
    · unfold TermsRational
      decide
    · simp only [i, LinearForm.vars, List.map_cons, List.map_nil, List.mem_cons, List.not_mem_nil,
        or_false] at hv
      rcases hv with rfl | rfl | rfl <;>
        exact ⟨_, rfl, by decide +kernel, by decide +kernel, by decide +kernel⟩
  have sum : i.largestViolation? domains = some (.finite 17) := by decide +kernel
  have positive : Scalar.le (Exact.finite 17) 0 = false := by decide +kernel
  have pieces : (FlatConstraint.indicator i).reformulate? domains =
      some [.linear (i.relaxedRow (.finite 17))] := by
    rw [FlatConstraint.reformulate?, FlatConstraint.rows?, Indicator.rows?_eq box sum]
    simp [positive, isFinite_iff, Exact.isRational_finite]
  obtain ⟨-, -, row, -⟩ := Indicator.reformulate_tight Rat box
  obtain ⟨r, m, pieces', greatest, relaxes⟩ := row (by simp [pieces]) (by simp [pieces])
  rw [pieces] at pieces'
  cases pieces'
  have upper : (i.relaxedRow (.finite 17)).upper = .finite 21 := by decide +kernel
  rw [if_neg (by decide)] at relaxes
  have total : Exact.finite 21 = .finite (4 + m) := upper.symm.trans relaxes.upper
  obtain rfl : m = 17 := by linarith [Exact.finite.inj total]
  have bound : i.rhs.toRat + 17 = 21 := by decide +kernel
  rw [bound] at relaxes
  exact ⟨box, by simpa using greatest, pieces, relaxes⟩

end SolverBridge
