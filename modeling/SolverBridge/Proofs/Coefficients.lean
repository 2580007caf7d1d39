import SolverBridge.Proofs.Defined

/-! Coefficients. The values of a linear form, a quadratic form and a constant determine the
coefficients of all three: on a plane through the origin only the coefficients of two variables
count, and five points of the plane tell them apart. Canonical forms with the same coefficients
have the same terms but for their order. -/

namespace SolverBridge

/-! ### Rational points -/

/-- The rational number; an infinity or an undefined value is read as zero. -/
def Exact.toRat : Exact → Rat
  | .finite q => q
  | _ => 0

theorem Exact.IsRational.finite_toRat {a : Exact} (h : a.IsRational) : .finite a.toRat = a := by
  obtain ⟨q, rfl⟩ := h
  rfl

theorem Exact.IsRational.eq_of_toRat {a b : Exact} (ha : a.IsRational) (hb : b.IsRational)
    (h : a.toRat = b.toRat) : a = b := by
  rw [← ha.finite_toRat, ← hb.finite_toRat, h]

/-- The point that gives these values to the first `n` variables. -/
def Point.ofValues (n : Nat) (x : Var → Rat) : Point Exact :=
  (List.range n).map fun i => .finite (x ⟨i⟩)

theorem Point.isRational_ofValues (n : Nat) (x : Var → Rat) : (ofValues n x).IsRational := by
  intro a ha
  obtain ⟨i, -, rfl⟩ := List.mem_map.1 ha
  exact ⟨x ⟨i⟩, rfl⟩

theorem Point.covers_ofValues {n : Nat} {vs : List Var} (h : ∀ v ∈ vs, v.index < n)
    (x : Var → Rat) : (ofValues n x).Covers vs := by
  intro v hv
  simpa [ofValues] using h v hv

theorem exists_index_lt (vs : List Var) : ∃ n, ∀ v ∈ vs, v.index < n := by
  induction vs with
  | nil => exact ⟨0, by simp⟩
  | cons v vs ih =>
    obtain ⟨n, hn⟩ := ih
    refine ⟨max (v.index + 1) n, fun w hw => ?_⟩
    rcases List.mem_cons.1 hw with rfl | hw
    · omega
    · have := hn w hw
      omega

/-- All coordinates are zero but for those of two variables. -/
def plane (v : Var) (a : Rat) (w : Var) (b : Rat) (u : Var) : Rat :=
  if u = v then a else if u = w then b else 0

section Values

variable [Transcendental] {n : Nat} {x : Var → Rat}

theorem Var.value_ofValues {v : Var} (h : v.index < n) :
    v.value (Point.ofValues n x) = .finite (x v) := by
  simp [Var.value, Point.ofValues, h]

/-! ### Linear forms -/

/-- The weighted sum of rational values. -/
def weightedSum (terms : List (Exact × Var)) (x : Var → Rat) : Rat :=
  (terms.map fun t => t.1.toRat * x t.2).sum

theorem linearValue_ofValues {terms : List (Exact × Var)} (hr : TermsRational terms)
    (hn : ∀ v ∈ terms.map (·.2), v.index < n) :
    linearValue (Point.ofValues n x) terms = .finite (weightedSum terms x) := by
  induction terms with
  | nil => rfl
  | cons t rest ih =>
    rw [TermsRational, List.forall_mem_cons] at hr
    rw [List.map_cons, List.forall_mem_cons] at hn
    have head : t.1 * t.2.value (Point.ofValues n x) = .finite (t.1.toRat * x t.2) := by
      rw [Var.value_ofValues hn.1, ← hr.1.finite_toRat, finite_mul]
      rfl
    rw [linearValue_cons, head, ih hr.2 hn.2, finite_add]
    simp [weightedSum]

namespace LinearForm

theorem coefficient_cons (t : Exact × Var) (rest : List (Exact × Var)) (v : Var) :
    coefficient ⟨t :: rest⟩ v = if t.2 = v then t.1 else coefficient ⟨rest⟩ v := by
  by_cases h : t.2 = v <;> simp [coefficient, h]

theorem coefficient_of_not_mem {f : LinearForm Exact} {v : Var} (h : v ∉ f.vars) :
    f.coefficient v = 0 := by
  have none : f.terms.find? (·.2 = v) = none := by
    refine List.find?_eq_none.2 fun t ht htv => h ?_
    exact List.mem_map.2 ⟨t, ht, by simpa using htv⟩
  simp [coefficient, none]

theorem coefficient_of_mem {f : LinearForm Exact} (hf : f.vars.Nodup) {t : Exact × Var}
    (ht : t ∈ f.terms) : f.coefficient t.2 = t.1 := by
  obtain ⟨terms⟩ := f
  induction terms with
  | nil => exact absurd ht List.not_mem_nil
  | cons s rest ih =>
    have nodup := List.nodup_cons.1 hf
    rw [coefficient_cons]
    rcases List.mem_cons.1 ht with rfl | ht
    · simp
    · have other : s.2 ≠ t.2 := fun e => nodup.1 (List.mem_map.2 ⟨t, ht, e.symm⟩)
      rw [if_neg other]
      exact ih nodup.2 ht

theorem isRational_coefficient {f : LinearForm Exact} (hr : TermsRational f.terms) (v : Var) :
    (f.coefficient v).IsRational := by
  obtain ⟨terms⟩ := f
  induction terms with
  | nil => exact .zero
  | cons t rest ih =>
    rw [TermsRational, List.forall_mem_cons] at hr
    rw [coefficient_cons]
    split
    · exact hr.1
    · exact ih hr.2

theorem coefficient_mergeTerm (terms : List (Exact × Var)) (c : Exact) (v w : Var) :
    coefficient ⟨mergeTerm terms c v⟩ w = coefficient ⟨terms⟩ w + if w = v then c else 0 := by
  induction terms with
  | nil =>
    rw [mergeTerm, coefficient_cons]
    simp [coefficient, eq_comm]
  | cons t rest ih =>
    rw [mergeTerm]
    split
    · rename_i same
      rw [coefficient_cons, coefficient_cons, same]
      by_cases h : v = w
      · rw [if_pos h, if_pos h, if_pos h.symm]
      · rw [if_neg h, if_neg h, if_neg (Ne.symm h), add_zero]
    · rename_i other
      rw [coefficient_cons, coefficient_cons, ih]
      split
      · rename_i same
        rw [if_neg (same ▸ other), add_zero]
      · rfl

theorem coefficient_filter {terms : List (Exact × Var)} (nodup : (terms.map (·.2)).Nodup)
    (v : Var) : coefficient ⟨terms.filter (·.1 != 0)⟩ v = coefficient ⟨terms⟩ v := by
  induction terms with
  | nil => rfl
  | cons t rest ih =>
    rw [List.map_cons, List.nodup_cons] at nodup
    rw [coefficient_cons, List.filter_cons]
    split
    · rw [coefficient_cons, ih nodup.2]
    · rename_i zero
      rw [exact_zero, exact_bne_finite, not_not] at zero
      rw [ih nodup.2]
      split
      · rename_i same
        rw [zero, ← same]
        exact coefficient_of_not_mem nodup.1
      · rfl

/-- On a plane only the coefficients of its variables count. -/
theorem weightedSum_plane {f : LinearForm Exact} (hf : f.vars.Nodup) {v w : Var} (hvw : v ≠ w)
    (a b : Rat) : weightedSum f.terms (plane v a w b) =
      a * (f.coefficient v).toRat + b * (f.coefficient w).toRat := by
  obtain ⟨terms⟩ := f
  induction terms with
  | nil => simp [weightedSum, coefficient, exact_zero, Exact.toRat]
  | cons t rest ih =>
    have nodup := List.nodup_cons.1 hf
    have absent : coefficient ⟨rest⟩ t.2 = 0 := coefficient_of_not_mem nodup.1
    have sum := ih nodup.2
    simp only [weightedSum] at sum
    rw [weightedSum, List.map_cons, List.sum_cons, sum, coefficient_cons, coefficient_cons, plane]
    by_cases hv : t.2 = v
    · have hw : t.2 ≠ w := hv ▸ hvw
      rw [hv] at absent
      rw [if_pos hv, if_pos hv, if_neg hw, absent, exact_zero, Exact.toRat]
      ring
    · by_cases hw : t.2 = w
      · rw [hw] at absent
        rw [if_neg hv, if_neg hv, if_pos hw, if_pos hw, absent, exact_zero, Exact.toRat]
        ring
      · rw [if_neg hv, if_neg hv, if_neg hw, if_neg hw]
        ring

theorem mem_vars_iff {f : LinearForm Exact} (hf : f.Canonical) {v : Var} :
    v ∈ f.vars ↔ f.coefficient v ≠ 0 := by
  constructor
  · intro hv
    obtain ⟨t, ht, rfl⟩ := List.mem_map.1 hv
    rw [coefficient_of_mem hf.1 ht]
    exact exact_bne_finite.1 (hf.2 t ht)
  · intro h
    by_contra hv
    exact h (coefficient_of_not_mem hv)

/-- Canonical forms with the same coefficients have the same terms. -/
theorem sameTerms_of_coefficient {f g : LinearForm Exact} (hf : f.Canonical) (hg : g.Canonical)
    (hr : TermsRational f.terms) (h : ∀ v, f.coefficient v = g.coefficient v) :
    f.sameTerms g = true := by
  have members : ∀ v, v ∈ f.vars ↔ v ∈ g.vars := by
    intro v
    rw [mem_vars_iff hf, mem_vars_iff hg, h]
  have size : f.size = g.size := by
    have perm := (List.perm_ext_iff_of_nodup hf.1 hg.1).2 members
    simpa [size] using perm.length_eq
  simp only [sameTerms, Bool.and_eq_true, beq_iff_eq, List.all_eq_true]
  refine ⟨size, fun t ht => ?_⟩
  rw [← h, coefficient_of_mem hf.1 ht]
  exact exact_beq.2 ⟨rfl, (hr t ht).isDefined⟩

end LinearForm

/-! ### Quadratic forms -/

/-- The sum of the products of a list of terms. -/
def productSum (terms : List (QuadTerm Exact)) (x : Var → Rat) : Rat :=
  (terms.map fun t => t.coefficient.toRat * x t.first * x t.second).sum

/-- The term is about these two variables, in any order. -/
def QuadTerm.Joins {α : Type} (t : QuadTerm α) (v w : Var) : Prop :=
  t.first = v ∧ t.second = w ∨ t.first = w ∧ t.second = v

instance {α : Type} (t : QuadTerm α) (v w : Var) : Decidable (t.Joins v w) :=
  inferInstanceAs (Decidable (_ ∨ _))

omit [Transcendental] in
/-- Ordered terms about the same two variables have them in the same places. -/
theorem QuadTerm.Joins.pair_eq {α : Type} {s t : QuadTerm α} {v w : Var} (hs : s.Joins v w)
    (ht : t.Joins v w) (le : s.first.index ≤ s.second.index)
    (le' : t.first.index ≤ t.second.index) : (s.first, s.second) = (t.first, t.second) := by
  have equal {v w : Var} (h : v.index ≤ w.index) (h' : w.index ≤ v.index) : v = w :=
    congrArg Var.mk (Nat.le_antisymm h h')
  rcases hs with ⟨rfl, rfl⟩ | ⟨rfl, rfl⟩ <;> rcases ht with ⟨h1, h2⟩ | ⟨h1, h2⟩
  · rw [h1, h2]
  · rw [h1, h2] at le'
    rw [h1, h2, equal le le']
  · rw [h1, h2] at le'
    rw [h1, h2, equal le le']
  · rw [h1, h2]

namespace QuadForm

/-- The coefficient of an unordered pair of variables, zero when it does not occur. -/
def coefficient {α : Type} [Scalar α] (q : QuadForm α) (v w : Var) : α :=
  ((q.terms.find? (·.Joins v w)).map (·.coefficient)).getD 0

theorem coefficient_cons (t : QuadTerm Exact) (rest : List (QuadTerm Exact)) (v w : Var) :
    coefficient ⟨t :: rest⟩ v w =
      if t.Joins v w then t.coefficient else coefficient ⟨rest⟩ v w := by
  by_cases h : t.Joins v w <;> simp [coefficient, h]

theorem isRational_coefficient {q : QuadForm Exact}
    (hr : ∀ t ∈ q.terms, t.coefficient.IsRational) (v w : Var) :
    (q.coefficient v w).IsRational := by
  obtain ⟨terms⟩ := q
  induction terms with
  | nil => exact .zero
  | cons t rest ih =>
    rw [List.forall_mem_cons] at hr
    rw [coefficient_cons]
    split
    · exact hr.1
    · exact ih hr.2

omit [Transcendental] in
theorem Merged.tail {t : QuadTerm Exact} {rest : List (QuadTerm Exact)}
    (h : Merged ⟨t :: rest⟩) : Merged ⟨rest⟩ :=
  ⟨fun s hs => h.1 s (List.mem_cons_of_mem _ hs), (List.nodup_cons.1 h.2).2⟩

/-- A pair has one term at most. -/
theorem Merged.coefficient_tail {t : QuadTerm Exact} {rest : List (QuadTerm Exact)}
    (h : Merged ⟨t :: rest⟩) {v w : Var} (joins : t.Joins v w) :
    coefficient ⟨rest⟩ v w = 0 := by
  have none : rest.find? (·.Joins v w) = none := by
    refine List.find?_eq_none.2 fun s hs hsvw => ?_
    have same : (s.first, s.second) = (t.first, t.second) :=
      QuadTerm.Joins.pair_eq (of_decide_eq_true hsvw) joins
        (h.1 s (List.mem_cons_of_mem _ hs)) (h.1 t List.mem_cons_self)
    exact (List.nodup_cons.1 h.2).1 (List.mem_map.2 ⟨s, hs, same⟩)
  simp [coefficient, none]

theorem evaluate_ofValues {q : QuadForm Exact} (hr : ∀ t ∈ q.terms, t.coefficient.IsRational)
    (hn : ∀ t ∈ q.terms, t.first.index < n ∧ t.second.index < n) :
    q.evaluate (Point.ofValues n x) = .finite (productSum q.terms x) := by
  obtain ⟨terms⟩ := q
  induction terms with
  | nil => rfl
  | cons t rest ih =>
    rw [List.forall_mem_cons] at hr hn
    have head : termValue (Point.ofValues n x) t =
        .finite (t.coefficient.toRat * x t.first * x t.second) := by
      rw [termValue, productValue, Var.value_ofValues hn.1.1, Var.value_ofValues hn.1.2,
        ← hr.1.finite_toRat, finite_mul, finite_mul]
      rfl
    rw [evaluate_cons, head, ih hr.2 hn.2, finite_add]
    simp [productSum]

/-- On a plane only the coefficients of the pairs of its variables count. -/
theorem productSum_plane {q : QuadForm Exact} (hq : q.Merged) {v w : Var} (hvw : v ≠ w)
    (a b : Rat) : productSum q.terms (plane v a w b) =
      a * a * (q.coefficient v v).toRat + b * b * (q.coefficient w w).toRat +
        a * b * (q.coefficient v w).toRat := by
  obtain ⟨terms⟩ := q
  induction terms with
  | nil => simp [productSum, coefficient, exact_zero, Exact.toRat]
  | cons t rest ih =>
    have sum := ih hq.tail
    simp only [productSum] at sum
    have tail (u u' : Var) (h : t.Joins u u') : (coefficient ⟨rest⟩ u u').toRat = 0 := by
      rw [hq.coefficient_tail h]
      rfl
    rw [productSum, List.map_cons, List.sum_cons, sum]
    simp only [coefficient_cons, plane]
    have hwv : w ≠ v := hvw.symm
    -- a term counts when both its ends are on the plane, and then no later one joins the same pair
    by_cases h1v : t.first = v <;> by_cases h2v : t.second = v
    · have := tail v v (.inl ⟨h1v, h2v⟩)
      simp [QuadTerm.Joins, h1v, h2v, hvw, this]
      ring
    · by_cases h2w : t.second = w
      · have := tail v w (.inl ⟨h1v, h2w⟩)
        simp [QuadTerm.Joins, h1v, h2w, hvw, hwv, this]
        ring
      · simp [QuadTerm.Joins, h1v, h2v, h2w, hvw]
    · by_cases h1w : t.first = w
      · have := tail v w (.inr ⟨h1w, h2v⟩)
        simp [QuadTerm.Joins, h1w, h2v, hvw, hwv, this]
        ring
      · simp [QuadTerm.Joins, h1v, h2v, h1w, hvw]
    · by_cases h1w : t.first = w <;> by_cases h2w : t.second = w
      · have := tail w w (.inl ⟨h1w, h2w⟩)
        simp [QuadTerm.Joins, h1w, h2w, hwv, this]
        ring
      · simp [QuadTerm.Joins, h1w, h2v, h2w, hwv]
      · simp [QuadTerm.Joins, h1v, h1w, h2w, hwv]
      · simp [QuadTerm.Joins, h1v, h1w, h2v, h2w]

/-- A term of a canonical form has a coefficient other than zero. -/
theorem exists_coefficient_ne_zero {q : QuadForm Exact} (hq : q.Canonical) (h : q.terms ≠ []) :
    ∃ v w, q.coefficient v w ≠ 0 := by
  obtain ⟨terms⟩ := q
  cases terms with
  | nil => exact absurd rfl h
  | cons t rest =>
    refine ⟨t.first, t.second, ?_⟩
    rw [coefficient_cons, if_pos (.inl ⟨rfl, rfl⟩)]
    exact exact_bne_finite.1 (hq.2 t List.mem_cons_self)

end QuadForm

/-! ### Determination -/

omit [Transcendental] in
/-- Five points of a plane determine a polynomial of degree two. -/
theorem eq_of_plane {c l s u c' l' s' u' : Rat} (m t m' t' : Rat)
    (h : ∀ a b : Rat, c + (a * l + b * m) + (a * a * s + b * b * t + a * b * u) =
      c' + (a * l' + b * m') + (a * a * s' + b * b * t' + a * b * u')) :
    c = c' ∧ l = l' ∧ s = s' ∧ u = u' := by
  have origin := h 0 0
  have right := h 1 0
  have left := h (-1) 0
  have above := h 0 1
  have corner := h 1 1
  refine ⟨?_, ?_, ?_, ?_⟩ <;> linarith

/-- Polynomials of degree two with the same values have the same coefficients. -/
theorem coefficients_of_values {f f' : LinearForm Exact} {q q' : QuadForm Exact} {c c' : Rat}
    (hf : f.vars.Nodup) (hf' : f'.vars.Nodup) (hq : q.Merged) (hq' : q'.Merged)
    (h : ∀ x, c + weightedSum f.terms x + productSum q.terms x =
      c' + weightedSum f'.terms x + productSum q'.terms x) :
    c = c' ∧ (∀ v, (f.coefficient v).toRat = (f'.coefficient v).toRat) ∧
      ∀ v w, (q.coefficient v w).toRat = (q'.coefficient v w).toRat := by
  have on {v w : Var} (hvw : v ≠ w) : c = c' ∧
      (f.coefficient v).toRat = (f'.coefficient v).toRat ∧
      (q.coefficient v v).toRat = (q'.coefficient v v).toRat ∧
      (q.coefficient v w).toRat = (q'.coefficient v w).toRat := by
    refine eq_of_plane (f.coefficient w).toRat (q.coefficient w w).toRat
      (f'.coefficient w).toRat (q'.coefficient w w).toRat fun a b => ?_
    have values := h (plane v a w b)
    rwa [f.weightedSum_plane hf hvw, f'.weightedSum_plane hf' hvw, q.productSum_plane hq hvw,
      q'.productSum_plane hq' hvw] at values
  have next (v : Var) : v ≠ ⟨v.index + 1⟩ := by
    intro e
    have := congrArg Var.index e
    simp at this
  refine ⟨(on (next ⟨0⟩)).1, fun v => (on (next v)).2.1, fun v w => ?_⟩
  by_cases hvw : v = w
  · rw [← hvw]
    exact (on (next v)).2.2.1
  · exact (on hvw).2.2.2

end Values

end SolverBridge
