import SolverBridge.Flat.LinearForm
import SolverBridge.Flat.QuadForm
import SolverBridge.Proofs.Rationals

/-! The value of linear and quadratic forms. Merging the terms of a variable, or of a pair of
variables, and leaving out those of coefficient zero changes no value at a point where the
variables are rational. Nothing is asked of the coefficients for this; with rational
coefficients the value is rational. -/

namespace SolverBridge

variable [Transcendental] {p : Point Exact}

/-! ### Linear forms -/

/-- The variables of the terms are rational at the point. -/
def TermsDefined (p : Point Exact) (terms : List (Exact × Var)) : Prop :=
  ∀ t ∈ terms, (t.2.value p).IsRational

/-- The coefficients of the terms are rational. -/
def TermsRational (terms : List (Exact × Var)) : Prop := ∀ t ∈ terms, t.1.IsRational

theorem linearValue_cons (t : Exact × Var) (terms : List (Exact × Var)) :
    linearValue p (t :: terms) = t.1 * t.2.value p + linearValue p terms := exact_sum_cons _ _

theorem linearValue_append (terms more : List (Exact × Var)) :
    linearValue p (terms ++ more) = linearValue p terms + linearValue p more := by
  rw [linearValue, List.map_append, exact_sum_append]
  rfl

theorem isRational_linearValue {terms : List (Exact × Var)} (hr : TermsRational terms)
    (hd : TermsDefined p terms) : (linearValue p terms).IsRational := by
  apply isRational_sum
  intro x hx
  obtain ⟨t, ht, rfl⟩ := List.mem_map.1 hx
  exact (hr t ht).mul (hd t ht)

/-- Coefficients of one variable may be added up before or after the multiplication. -/
theorem add_mul_value (c d : Exact) {v : Exact} (h : v.IsRational) :
    (c + d) * v = c * v + d * v := by
  obtain ⟨q, rfl⟩ := h
  rw [exact_mul_comm, finite_mul_add, exact_mul_comm c, exact_mul_comm d]

theorem zero_mul_value {v : Exact} (h : v.IsRational) : 0 * v = 0 :=
  finite_zero_mul ((Exact.isRational_finite 0).mul h).isDefined

theorem linearValue_mergeTerm {terms : List (Exact × Var)} (c : Exact) {v : Var}
    (hv : (v.value p).IsRational) :
    linearValue p (mergeTerm terms c v) = linearValue p terms + c * v.value p := by
  induction terms with
  | nil =>
    rw [mergeTerm, linearValue_cons]
    exact add_comm _ _
  | cons t rest ih =>
    rw [mergeTerm]
    split
    · rename_i h
      subst h
      rw [linearValue_cons, linearValue_cons, add_mul_value _ _ hv, add_right_comm]
    · rw [linearValue_cons, ih, linearValue_cons, add_assoc]

theorem mul_mul_value (q : Rat) (c : Exact) {v : Exact} (h : v.IsRational) :
    .finite q * c * v = .finite q * (c * v) := by
  obtain ⟨r, rfl⟩ := h
  rw [exact_mul_comm, finite_mul_assoc, mul_comm, ← finite_mul_assoc, exact_mul_comm c]

/-- A rational factor of all coefficients is one of the value. -/
theorem linearValue_map_mul (q : Rat) {terms : List (Exact × Var)} (h : TermsDefined p terms) :
    linearValue p (terms.map fun t => (.finite q * t.1, t.2)) =
      .finite q * linearValue p terms := by
  induction terms with
  | nil => exact (finite_mul_zero q).symm
  | cons t rest ih =>
    rw [TermsDefined, List.forall_mem_cons] at h
    rw [List.map_cons, linearValue_cons, ih h.2, linearValue_cons, finite_mul_add,
      mul_mul_value q t.1 h.1]

/-- Terms merged one after the other into a list. -/
def mergedInto (acc terms : List (Exact × Var)) : List (Exact × Var) :=
  terms.foldl (fun acc t => mergeTerm acc t.1 t.2) acc

theorem linearValue_mergedInto {acc terms : List (Exact × Var)} (h : TermsDefined p terms) :
    linearValue p (mergedInto acc terms) = linearValue p acc + linearValue p terms := by
  induction terms generalizing acc with
  | nil => exact (add_zero _).symm
  | cons t rest ih =>
    rw [TermsDefined, List.forall_mem_cons] at h
    rw [mergedInto, List.foldl_cons, ← mergedInto, ih h.2, linearValue_mergeTerm _ h.1,
      linearValue_cons, add_assoc]

omit [Transcendental] in
theorem mem_vars_mergedInto {acc terms : List (Exact × Var)} {v : Var} :
    v ∈ (mergedInto acc terms).map (·.2) ↔ v ∈ acc.map (·.2) ∨ v ∈ terms.map (·.2) := by
  induction terms generalizing acc with
  | nil => simp [mergedInto]
  | cons t rest ih =>
    rw [mergedInto, List.foldl_cons, ← mergedInto, ih, mem_vars_mergeTerm, List.map_cons,
      List.mem_cons, or_assoc]

omit [Transcendental] in
theorem termsRational_mergeTerm {terms : List (Exact × Var)} {c : Exact} {v : Var}
    (h : TermsRational terms) (hc : c.IsRational) : TermsRational (mergeTerm terms c v) := by
  induction terms with
  | nil => simpa [TermsRational, mergeTerm] using hc
  | cons t rest ih =>
    rw [TermsRational, List.forall_mem_cons] at h
    rw [mergeTerm]
    split
    · exact List.forall_mem_cons.2 ⟨h.1.add hc, h.2⟩
    · exact List.forall_mem_cons.2 ⟨h.1, ih h.2⟩

omit [Transcendental] in
theorem termsRational_mergedInto {acc terms : List (Exact × Var)} (ha : TermsRational acc)
    (h : TermsRational terms) : TermsRational (mergedInto acc terms) := by
  induction terms generalizing acc with
  | nil => exact ha
  | cons t rest ih =>
    rw [TermsRational, List.forall_mem_cons] at h
    exact ih (termsRational_mergeTerm ha h.1) h.2

/-- A term of coefficient zero adds nothing. -/
theorem linearValue_filter {terms : List (Exact × Var)} (h : TermsDefined p terms) :
    linearValue p (terms.filter (·.1 != 0)) = linearValue p terms := by
  induction terms with
  | nil => rfl
  | cons t rest ih =>
    rw [TermsDefined, List.forall_mem_cons] at h
    rw [linearValue_cons, List.filter_cons]
    split
    · rw [linearValue_cons, ih h.2]
    · rename_i hz
      have zero : t.1 = 0 := by rwa [exact_zero, exact_bne_finite, not_not] at hz
      rw [ih h.2, zero, zero_mul_value h.1, zero_add]

namespace LinearForm

theorem terms_ofTerms (terms : List (Exact × Var)) :
    (ofTerms terms).terms = (mergedInto [] terms).filter (·.1 != 0) := rfl

theorem mem_vars_of_mem_ofTerms {terms : List (Exact × Var)} {t : Exact × Var}
    (h : t ∈ (ofTerms terms).terms) : t.2 ∈ terms.map (·.2) := by
  have merged := List.mem_map_of_mem (f := (·.2)) (List.mem_filter.1 h).1
  simpa using mem_vars_mergedInto.1 merged

theorem termsDefined_ofTerms {terms : List (Exact × Var)} (h : TermsDefined p terms) :
    TermsDefined p (ofTerms terms).terms := by
  intro t ht
  obtain ⟨s, hs, e⟩ := List.mem_map.1 (mem_vars_of_mem_ofTerms ht)
  rw [← e]
  exact h s hs

theorem termsRational_ofTerms {terms : List (Exact × Var)} (h : TermsRational terms) :
    TermsRational (ofTerms terms).terms := fun t ht =>
  termsRational_mergedInto (fun _ h => absurd h List.not_mem_nil) h t (List.mem_filter.1 ht).1

/-- The canonical form has the value of the terms that it is made of. -/
theorem evaluate_ofTerms {terms : List (Exact × Var)} (h : TermsDefined p terms) :
    (ofTerms terms).evaluate p = linearValue p terms := by
  have merged : TermsDefined p (mergedInto [] terms) := by
    intro t ht
    have hv := mem_vars_mergedInto.1 (List.mem_map_of_mem (f := (·.2)) ht)
    obtain ⟨s, hs, e⟩ := List.mem_map.1 (hv.resolve_left List.not_mem_nil)
    rw [← e]
    exact h s hs
  rw [evaluate, terms_ofTerms, linearValue_filter merged, linearValue_mergedInto h]
  exact zero_add _

theorem termsRational_extended {f : LinearForm Exact} {more : List (Exact × Var)}
    (hf : TermsRational f.terms) (hm : TermsRational more) :
    TermsRational (f.extended more).terms :=
  termsRational_ofTerms (List.forall_mem_append.2 ⟨hf, hm⟩)

theorem termsDefined_extended {f : LinearForm Exact} {more : List (Exact × Var)}
    (hf : TermsDefined p f.terms) (hm : TermsDefined p more) :
    TermsDefined p (f.extended more).terms :=
  termsDefined_ofTerms (List.forall_mem_append.2 ⟨hf, hm⟩)

theorem evaluate_extended {f : LinearForm Exact} {more : List (Exact × Var)}
    (hf : TermsDefined p f.terms) (hm : TermsDefined p more) :
    (f.extended more).evaluate p = f.evaluate p + linearValue p more := by
  have both : TermsDefined p (f.terms ++ more) := List.forall_mem_append.2 ⟨hf, hm⟩
  rw [extended, evaluate_ofTerms both, linearValue_append]
  rfl

theorem negatedTerms_eq (f : LinearForm Exact) :
    f.negatedTerms = f.terms.map fun t => (.finite (-1) * t.1, t.2) :=
  List.map_congr_left fun t _ => by rw [exact_neg_eq]

theorem termsDefined_negatedTerms {f : LinearForm Exact} (h : TermsDefined p f.terms) :
    TermsDefined p f.negatedTerms := by
  intro t ht
  obtain ⟨s, hs, rfl⟩ := List.mem_map.1 ht
  exact h s hs

theorem termsRational_negatedTerms {f : LinearForm Exact} (h : TermsRational f.terms) :
    TermsRational f.negatedTerms := by
  intro t ht
  obtain ⟨s, hs, rfl⟩ := List.mem_map.1 ht
  exact (h s hs).neg

theorem linearValue_negatedTerms {f : LinearForm Exact} (h : TermsDefined p f.terms) :
    linearValue p f.negatedTerms = -f.evaluate p := by
  rw [negatedTerms_eq, linearValue_map_mul _ h, exact_neg_eq]
  rfl

theorem scaled_eq (f : LinearForm Exact) (q : Rat) :
    f.scaled (.finite q) = ofTerms (f.terms.map fun t => (.finite q * t.1, t.2)) :=
  congrArg ofTerms (List.map_congr_left fun t _ => by rw [exact_mul_comm])

theorem termsDefined_map_mul (q : Rat) {terms : List (Exact × Var)} (h : TermsDefined p terms) :
    TermsDefined p (terms.map fun t => (.finite q * t.1, t.2)) := by
  intro t ht
  obtain ⟨s, hs, rfl⟩ := List.mem_map.1 ht
  exact h s hs

theorem termsDefined_scaled {f : LinearForm Exact} (q : Rat) (h : TermsDefined p f.terms) :
    TermsDefined p (f.scaled (.finite q)).terms := by
  rw [scaled_eq]
  exact termsDefined_ofTerms (termsDefined_map_mul q h)

theorem termsRational_scaled {f : LinearForm Exact} (q : Rat) (h : TermsRational f.terms) :
    TermsRational (f.scaled (.finite q)).terms := by
  apply termsRational_ofTerms
  intro t ht
  obtain ⟨s, hs, rfl⟩ := List.mem_map.1 ht
  exact (h s hs).mul ⟨q, rfl⟩

theorem evaluate_scaled {f : LinearForm Exact} (q : Rat) (h : TermsDefined p f.terms) :
    (f.scaled (.finite q)).evaluate p = .finite q * f.evaluate p := by
  rw [scaled_eq, evaluate_ofTerms (termsDefined_map_mul q h), linearValue_map_mul q h]
  rfl

theorem isRational_evaluate {f : LinearForm Exact} (hr : TermsRational f.terms)
    (hd : TermsDefined p f.terms) : (f.evaluate p).IsRational := isRational_linearValue hr hd

end LinearForm

/-! ### Quadratic forms -/

/-- The value of the product of a coefficient and two variables. -/
def productValue (p : Point Exact) (c : Exact) (v w : Var) : Exact := c * v.value p * w.value p

/-- The sum of the products of a list of terms. -/
def quadValue (p : Point Exact) (terms : List (Exact × Var × Var)) : Exact :=
  Scalar.sum (terms.map fun t => productValue p t.1 t.2.1 t.2.2)

/-- Both variables of every term are rational at the point. -/
def PairsDefined (p : Point Exact) (terms : List (Exact × Var × Var)) : Prop :=
  ∀ t ∈ terms, (t.2.1.value p).IsRational ∧ (t.2.2.value p).IsRational

/-- The coefficients of the terms are rational. -/
def PairsRational (terms : List (Exact × Var × Var)) : Prop := ∀ t ∈ terms, t.1.IsRational

theorem quadValue_cons (t : Exact × Var × Var) (terms : List (Exact × Var × Var)) :
    quadValue p (t :: terms) = productValue p t.1 t.2.1 t.2.2 + quadValue p terms :=
  exact_sum_cons _ _

theorem quadValue_append (terms more : List (Exact × Var × Var)) :
    quadValue p (terms ++ more) = quadValue p terms + quadValue p more := by
  rw [quadValue, List.map_append, exact_sum_append]
  rfl

theorem productValue_add (c d : Exact) {v w : Var} (hv : (v.value p).IsRational)
    (hw : (w.value p).IsRational) :
    productValue p (c + d) v w = productValue p c v w + productValue p d v w := by
  rw [productValue, add_mul_value _ _ hv, add_mul_value _ _ hw]
  rfl

theorem productValue_comm (c : Exact) {v w : Var} (hv : (v.value p).IsRational)
    (hw : (w.value p).IsRational) : productValue p c v w = productValue p c w v := by
  obtain ⟨x, hx⟩ := hv
  rw [productValue, productValue, hx, exact_mul_comm c, mul_mul_value x c hw,
    exact_mul_comm _ (.finite x)]

namespace QuadForm

/-- The value of a term of a quadratic form. -/
def termValue (p : Point Exact) (t : QuadTerm Exact) : Exact :=
  productValue p t.coefficient t.first t.second

/-- Both variables of every term are rational at the point. -/
def Defined (p : Point Exact) (q : QuadForm Exact) : Prop :=
  ∀ t ∈ q.terms, (t.first.value p).IsRational ∧ (t.second.value p).IsRational

theorem evaluate_cons (t : QuadTerm Exact) (terms : List (QuadTerm Exact)) :
    evaluate ⟨t :: terms⟩ p = termValue p t + evaluate ⟨terms⟩ p := exact_sum_cons _ _

theorem evaluate_mergeTerm {terms : List (QuadTerm Exact)} {t : QuadTerm Exact}
    (hv : (t.first.value p).IsRational) (hw : (t.second.value p).IsRational) :
    evaluate ⟨mergeTerm terms t⟩ p = evaluate ⟨terms⟩ p + termValue p t := by
  induction terms with
  | nil =>
    rw [mergeTerm, evaluate_cons]
    exact add_comm _ _
  | cons s rest ih =>
    rw [mergeTerm]
    split
    · rename_i h
      rw [evaluate_cons, evaluate_cons, termValue, termValue, h.1, h.2,
        productValue_add _ _ hv hw, add_right_comm]
      rfl
    · rw [evaluate_cons, ih, evaluate_cons, add_assoc]

theorem defined_mergeTerm {terms : List (QuadTerm Exact)} {t : QuadTerm Exact}
    (h : Defined p ⟨terms⟩) (hv : (t.first.value p).IsRational)
    (hw : (t.second.value p).IsRational) : Defined p ⟨mergeTerm terms t⟩ := by
  induction terms with
  | nil => exact List.forall_mem_singleton.2 ⟨hv, hw⟩
  | cons s rest ih =>
    rw [Defined, List.forall_mem_cons] at h
    rw [mergeTerm]
    split
    · exact List.forall_mem_cons.2 h
    · exact List.forall_mem_cons.2 ⟨h.1, ih h.2⟩

theorem termValue_orderedTerm (c : Exact) {v w : Var} (hv : (v.value p).IsRational)
    (hw : (w.value p).IsRational) : termValue p (orderedTerm c v w) = productValue p c v w := by
  rw [orderedTerm]
  split
  · rfl
  · exact productValue_comm c hw hv

theorem evaluate_addTerm (q : QuadForm Exact) (c : Exact) {v w : Var}
    (hv : (v.value p).IsRational) (hw : (w.value p).IsRational) :
    (q.addTerm c v w).evaluate p = q.evaluate p + productValue p c v w := by
  rw [← termValue_orderedTerm c hv hw, addTerm]
  apply evaluate_mergeTerm <;> rw [orderedTerm] <;> split <;> assumption

theorem defined_addTerm {q : QuadForm Exact} (h : q.Defined p) (c : Exact) {v w : Var}
    (hv : (v.value p).IsRational) (hw : (w.value p).IsRational) : (q.addTerm c v w).Defined p := by
  apply defined_mergeTerm h <;> rw [orderedTerm] <;> split <;> assumption

theorem evaluate_addTerms {q : QuadForm Exact} (hq : q.Defined p)
    {terms : List (Exact × Var × Var)} (h : PairsDefined p terms) :
    (q.addTerms terms).Defined p ∧
      (q.addTerms terms).evaluate p = q.evaluate p + quadValue p terms := by
  induction terms generalizing q with
  | nil => exact ⟨hq, (add_zero _).symm⟩
  | cons t rest ih =>
    rw [PairsDefined, List.forall_mem_cons] at h
    obtain ⟨⟨hv, hw⟩, hrest⟩ := h
    obtain ⟨defined, value⟩ := ih (defined_addTerm hq t.1 hv hw) hrest
    refine ⟨defined, value.trans ?_⟩
    rw [evaluate_addTerm q t.1 hv hw, quadValue_cons, add_assoc]

theorem evaluate_canonicalize {q : QuadForm Exact} (h : q.Defined p) :
    q.canonicalize.evaluate p = q.evaluate p := by
  obtain ⟨terms⟩ := q
  rw [canonicalize]
  induction terms with
  | nil => rfl
  | cons t rest ih =>
    rw [Defined, List.forall_mem_cons] at h
    rw [evaluate_cons, List.filter_cons]
    split
    · rw [evaluate_cons, ih h.2]
    · rename_i hz
      have zero : t.coefficient = 0 := by rwa [exact_zero, exact_bne_finite, not_not] at hz
      rw [ih h.2, termValue, productValue, zero, zero_mul_value h.1.1, zero_mul_value h.1.2,
        zero_add]

/-- The canonical form has the value of the products that it is made of. -/
theorem evaluate_ofTerms {terms : List (Exact × Var × Var)} (h : PairsDefined p terms) :
    (ofTerms terms).evaluate p = quadValue p terms := by
  have none : (empty : QuadForm Exact).Defined p := fun _ h => absurd h List.not_mem_nil
  obtain ⟨defined, value⟩ := evaluate_addTerms none h
  rw [ofTerms, evaluate_canonicalize defined, value]
  exact zero_add _

end QuadForm

theorem isRational_quadValue {terms : List (Exact × Var × Var)} (hr : PairsRational terms)
    (hd : PairsDefined p terms) : (quadValue p terms).IsRational := by
  apply isRational_sum
  intro x hx
  obtain ⟨t, ht, rfl⟩ := List.mem_map.1 hx
  exact ((hr t ht).mul (hd t ht).1).mul (hd t ht).2

end SolverBridge
