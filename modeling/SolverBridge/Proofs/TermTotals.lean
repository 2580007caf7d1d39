import SolverBridge.Proofs.Columns
import SolverBridge.Proofs.LargestViolation

/-! The merge of a list of terms. What matters of the list is the total of each variable: it is the
coefficient in the form, and the variables of the form are those whose total is not zero, each
where it first occurs. So the value of the form is that of the terms, merging again changes
nothing, and forms of rearranged terms have the same terms. For canonical forms this is the same as
to agree on every coefficient: one form has the terms of the other as soon as they are equally many
and each term of the first is one of the second, because no variable comes twice. -/

namespace SolverBridge

/-- The sum of the coefficients of a variable. -/
def totalOf (ts : List (Exact × Var)) (v : Var) : Exact := ((ts.filter (·.2 = v)).map (·.1)).sum

theorem totalOf_cons (t : Exact × Var) (ts : List (Exact × Var)) (v : Var) :
    totalOf (t :: ts) v = (if v = t.2 then t.1 else 0) + totalOf ts v := by
  by_cases same : v = t.2
  · simp [totalOf, same]
  · simp [totalOf, same, Ne.symm same]

theorem totalOf_perm {ts ts' : List (Exact × Var)} (h : ts.Perm ts') (v : Var) :
    totalOf ts v = totalOf ts' v := ((h.filter _).map _).sum_eq

/-! ### Variables in the order of first occurrence -/

theorem vars_mergeTerm (terms : List (Exact × Var)) (c : Exact) (v : Var) :
    (mergeTerm terms c v).map (·.2) =
      if v ∈ terms.map (·.2) then terms.map (·.2) else terms.map (·.2) ++ [v] := by
  induction terms with
  | nil => simp [mergeTerm]
  | cons t rest ih =>
    rw [mergeTerm]
    by_cases same : t.2 = v
    · simp [same]
    · rw [if_neg same, List.map_cons, ih]
      split <;> simp_all [Ne.symm same]

theorem vars_mergedInto (acc ts : List (Exact × Var)) :
    (mergedInto acc ts).map (·.2) =
      acc.map (·.2) ++ ((ts.map (·.2)).filter (· ∉ acc.map (·.2))).eraseDups := by
  induction ts generalizing acc with
  | nil => simp [mergedInto]
  | cons t rest ih =>
    rw [mergedInto, List.foldl_cons, ← mergedInto, ih, vars_mergeTerm, List.map_cons]
    by_cases known : t.2 ∈ acc.map (·.2)
    · rw [if_pos known, List.filter_cons_of_neg (by simpa using known)]
    · rw [if_neg known, List.filter_cons_of_pos (by simpa using known), List.eraseDups_cons,
        List.append_assoc, List.singleton_append, List.filter_filter]
      -- what is new behind the first variable is new and not that variable
      refine congrArg (fun vs => _ ++ t.2 :: vs.eraseDups) (List.filter_congr fun v _ => ?_)
      rw [Bool.eq_iff_iff]
      simp [and_comm]

theorem nodup_mergedInto {acc : List (Exact × Var)} (h : (acc.map (·.2)).Nodup)
    (ts : List (Exact × Var)) : ((mergedInto acc ts).map (·.2)).Nodup := by
  induction ts generalizing acc with
  | nil => exact h
  | cons t rest ih => exact ih (nodup_mergeTerm h)

/-- No variable comes twice once all terms are merged. -/
theorem nodup_merged (ts : List (Exact × Var)) : ((mergedInto [] ts).map (·.2)).Nodup :=
  nodup_mergedInto (by simp) ts

section Totals

variable [Transcendental]

namespace LinearForm

theorem coefficient_mergedInto (acc ts : List (Exact × Var)) (v : Var) :
    coefficient ⟨mergedInto acc ts⟩ v = coefficient ⟨acc⟩ v + totalOf ts v := by
  induction ts generalizing acc with
  | nil => exact (add_zero _).symm
  | cons t rest ih =>
    rw [mergedInto, List.foldl_cons, ← mergedInto, ih, coefficient_mergeTerm, totalOf_cons,
      add_assoc]

theorem coefficient_ofTerms (ts : List (Exact × Var)) (v : Var) :
    (ofTerms ts).coefficient v = totalOf ts v := by
  have filtered := coefficient_filter (nodup_merged ts) v
  rw [coefficient_mergedInto] at filtered
  exact filtered.trans (zero_add _)

theorem vars_ofTerms (ts : List (Exact × Var)) :
    (ofTerms ts).vars = (ts.map (·.2)).eraseDups.filter fun v => totalOf ts v ≠ 0 := by
  have occurring : (mergedInto [] ts).map (·.2) = (ts.map (·.2)).eraseDups := by
    simpa using vars_mergedInto [] ts
  rw [vars, terms_ofTerms, ← occurring, List.filter_map]
  refine congrArg _ (List.filter_congr fun t ht => ?_)
  have total : t.1 = totalOf ts t.2 := by
    have merged := coefficient_mergedInto [] ts t.2
    have own : coefficient ⟨mergedInto [] ts⟩ t.2 = t.1 :=
      coefficient_of_mem (nodup_merged ts) ht
    rw [← own, merged]
    exact zero_add _
  rw [Function.comp_apply, ← total, Bool.eq_iff_iff, exact_zero, exact_bne_finite]
  exact decide_eq_true_iff.symm

/-! ### The same terms -/

variable {f g : LinearForm Exact}

theorem coefficient_of_sameTerms (hf : f.Canonical) (hg : g.Canonical)
    (h : f.sameTerms g = true) (v : Var) : f.coefficient v = g.coefficient v := by
  simp only [sameTerms, Bool.and_eq_true, beq_iff_eq, List.all_eq_true] at h
  obtain ⟨size, agree⟩ := h
  have same : ∀ t ∈ f.terms, g.coefficient t.2 = t.1 := fun t ht => (exact_beq.1 (agree t ht)).1
  have subset : f.vars ⊆ g.vars := by
    intro v hv
    obtain ⟨t, ht, rfl⟩ := List.mem_map.1 hv
    rw [mem_vars_iff hg, same t ht]
    exact exact_bne_finite.1 (hf.2 t ht)
  have length : g.vars.length ≤ f.vars.length := by
    simpa [vars, LinearForm.size] using Nat.le_of_eq size.symm
  have perm : f.vars.Perm g.vars :=
    (List.subperm_of_subset hf.1 subset).perm_of_length_le length
  by_cases hv : v ∈ f.vars
  · obtain ⟨t, ht, rfl⟩ := List.mem_map.1 hv
    rw [same t ht, coefficient_of_mem hf.1 ht]
  · rw [coefficient_of_not_mem hv, coefficient_of_not_mem (hv ∘ perm.mem_iff.2)]

theorem sameTerms_iff (hf : f.Canonical) (hg : g.Canonical) (hr : TermsRational f.terms) :
    f.sameTerms g = true ↔ ∀ v, f.coefficient v = g.coefficient v :=
  ⟨coefficient_of_sameTerms hf hg, sameTerms_of_coefficient hf hg hr⟩

theorem sameTerms_of_perm {ts ts' : List (Exact × Var)} (hr : TermsRational ts)
    (h : ts.Perm ts') : (ofTerms ts).sameTerms (ofTerms ts') = true := by
  refine sameTerms_of_coefficient (canonical_ofTerms ts) (canonical_ofTerms ts')
    (termsRational_ofTerms hr) fun v => ?_
  rw [coefficient_ofTerms, coefficient_ofTerms, totalOf_perm h]

/-- To have the same terms is an equivalence of canonical forms with rational coefficients. -/
theorem equivalence_sameTerms :
    Equivalence fun f g : {f : LinearForm Exact // f.Canonical ∧ TermsRational f.terms} =>
      f.1.sameTerms g.1 = true where
  refl f := (sameTerms_iff f.2.1 f.2.1 f.2.2).2 fun _ => rfl
  symm {f g} h := (sameTerms_iff g.2.1 f.2.1 g.2.2).2 fun v =>
    (coefficient_of_sameTerms f.2.1 g.2.1 h v).symm
  trans {f g k} h h' := (sameTerms_iff f.2.1 k.2.1 f.2.2).2 fun v =>
    (coefficient_of_sameTerms f.2.1 g.2.1 h v).trans (coefficient_of_sameTerms g.2.1 k.2.1 h' v)

end LinearForm

theorem termsDefined_of_covers {p : Point Exact} (hp : p.IsRational) {ts : List (Exact × Var)}
    (h : p.Covers (ts.map (·.2))) : TermsDefined p ts :=
  fun t ht => hp.value (h t.2 (List.mem_map_of_mem ht))

/-- What is collected from rational terms is their canonical merge. The coefficient of a variable is
its total; the variables are those that occur, in the order of first occurrence, without those
whose total is zero; and the value is the sum of the terms. So merging again changes nothing, more
terms add to the value and a factor multiplies it, and the order of the terms does not matter.
Canonical forms have the same terms exactly when all their coefficients agree. -/
theorem LinearForm.ofTerms_merges {ts : List (Exact × Var)} (hr : TermsRational ts) :
    Columns.collect ts = ((ofTerms ts).terms.map (·.1), (ofTerms ts).vars) ∧
    (∀ v, (ofTerms ts).coefficient v = ((ts.filter (·.2 = v)).map (·.1)).sum) ∧
    ((ofTerms ts).vars = (ts.map (·.2)).eraseDups.filter fun v =>
      ((ts.filter (·.2 = v)).map (·.1)).sum ≠ 0) ∧
    (∀ p : Point Exact, p.IsRational → p.Covers (ts.map (·.2)) →
      (ofTerms ts).evaluate p = (ts.map fun t => t.1 * t.2.value p).sum) ∧
    ofTerms (ofTerms ts).terms = ofTerms ts ∧
    (∀ (f : LinearForm Exact) (p : Point Exact), p.IsRational → p.Covers f.vars →
      (p.Covers (ts.map (·.2)) →
        (f.extended ts).evaluate p = f.evaluate p + (ts.map fun t => t.1 * t.2.value p).sum) ∧
      ∀ q, (f.scaled (.finite q)).evaluate p = .finite q * f.evaluate p) ∧
    (∀ ts', ts.Perm ts' → (ofTerms ts).sameTerms (ofTerms ts') = true) ∧
    (∀ f g : LinearForm Exact, f.Canonical → g.Canonical → TermsRational f.terms →
      (f.sameTerms g = true ↔ ∀ v, f.coefficient v = g.coefficient v)) ∧
    Equivalence fun f g : {f : LinearForm Exact // f.Canonical ∧ TermsRational f.terms} =>
      f.1.sameTerms g.1 = true := by
  have value (p : Point Exact) : linearValue p ts = (ts.map fun t => t.1 * t.2.value p).sum :=
    exact_sum_eq _
  refine ⟨?_, coefficient_ofTerms ts, vars_ofTerms ts, fun p hp covers => ?_,
    (canonical_ofTerms ts).ofTerms_terms, fun f p hp hf => ⟨fun covers => ?_, fun q => ?_⟩,
    fun ts' => sameTerms_of_perm hr, fun f g => sameTerms_iff, equivalence_sameTerms⟩
  · rw [Columns.collect_eq, List.unzip_eq_map]
    rfl
  · rw [← value]
    exact evaluate_ofTerms (termsDefined_of_covers hp covers)
  · rw [← value]
    exact evaluate_extended (termsDefined_of_covers hp hf) (termsDefined_of_covers hp covers)
  · exact evaluate_scaled q (termsDefined_of_covers hp hf)

end Totals

open Exact.SquareOnly in
/-- The terms `y + 2 x + 3 y + z - z`: what is left of them starts with `y`, in whatever order they
are merged the form has the same terms, and at `x = 2`, `y = 5` it has the value 24. -/
theorem LinearForm.ofTerms_merges_cancelling :
    let ts : List (Exact × Var) := [(.finite 1, ⟨1⟩), (.finite 2, ⟨0⟩), (.finite 3, ⟨1⟩),
      (.finite 1, ⟨2⟩), (.finite (-1), ⟨2⟩)]
    let p : Point Exact := [.finite 2, .finite 5, .finite 7]
    TermsRational ts ∧ (ofTerms ts).vars = [⟨1⟩, ⟨0⟩] ∧
      (ofTerms ts).coefficient ⟨1⟩ = .finite 4 ∧ (ofTerms ts).evaluate p = .finite 24 ∧
      (ofTerms ts).sameTerms (ofTerms ts.reverse) = true := by
  intro ts p
  have rational : TermsRational ts := by
    unfold TermsRational
    decide
  have point : p.IsRational := by
    unfold Point.IsRational
    decide
  have covers : p.Covers (ts.map (·.2)) := by
    unfold Point.Covers
    decide
  obtain ⟨-, coefficient, vars, value, -, -, perm, -⟩ := ofTerms_merges rational
  refine ⟨rational, vars.trans (by decide +kernel), (coefficient ⟨1⟩).trans (by decide +kernel),
    (value _ point covers).trans (by decide +kernel), perm _ (List.reverse_perm ts).symm⟩

end SolverBridge
