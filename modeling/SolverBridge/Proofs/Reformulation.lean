import SolverBridge.Proofs.Satisfaction
import SolverBridge.Reformulation

/-! Reformulations into rows are exact. At a point that respects the domains of the variables,
a constraint holds up to a tolerance below one precisely when all its rows do.

For a conjunction or disjunction this is counting: the values are bits, so that a row with
integral sides and a slack below one is the row without slack. For an indicator the row
is the inequality itself when the trigger is on, and when it is off the row asks no more
than the largest violation that the bounds allow, which is what `M` is. Variables may
occur repeatedly, and in the result or trigger as well as among the arguments: only the
values of the forms are compared. -/

namespace SolverBridge

section Exactness

variable [Transcendental] {p : Point Exact} {domains : List (Domain Exact)}

theorem Point.Respects.isBit (h : p.Respects domains) {v : Var}
    (hv : isBinaryVar domains v = true) : (v.value p).IsBit := by
  cases e : domains[v.index]? with
  | none => simp [isBinaryVar, e] at hv
  | some d => exact (h v d e).isBit (by simpa [isBinaryVar, e] using hv)

/-! ### Definitions -/

theorem definitionRow_exact {r : Var} {f : LinearForm Exact} {c : Exact} {t : Rat}
    (hr : (r.value p).IsRational) (hd : TermsDefined p f.terms) (hf : TermsRational f.terms)
    (hc : c.IsRational) :
    (FlatConstraint.linearDefining r f c).isSatisfied p (.finite t) = true ↔
      (FlatConstraint.linear (definitionRow r f c)).isSatisfied p (.finite t) = true := by
  have defined : TermsDefined p ((1, r) :: f.negatedTerms) :=
    List.forall_mem_cons.2 ⟨hr, LinearForm.termsDefined_negatedTerms hd⟩
  have value : (LinearForm.ofTerms ((1, r) :: f.negatedTerms)).evaluate p =
      r.value p - f.evaluate p := by
    rw [LinearForm.evaluate_ofTerms defined, linearValue_cons, exact_one_mul,
      LinearForm.linearValue_negatedTerms hd, exact_sub]
  obtain ⟨x, hx⟩ := hr
  obtain ⟨y, hy⟩ := LinearForm.isRational_evaluate hf hd
  obtain ⟨k, rfl⟩ := hc
  rw [hx, hy, finite_sub] at value
  rw [definitionRow, satisfied_equal value, FlatConstraint.isSatisfied, hx, hy, finite_add,
    close_finite, sub_sub]

/-! ### Indicators -/

theorem le_max_of_eq {a b : Exact} {q : Rat} (h : a = .finite q ∨ b = .finite q) :
    Scalar.le (.finite q) (Scalar.max a b) = true := by
  rcases h with rfl | rfl
  · exact exact_le_max_left b nofun
  · exact exact_le_max_right a nofun

/-- A rational multiple of a number is at most the larger of those of its bounds, when that is
rational. -/
theorem mul_le_max {c x m : Rat} {l u : Exact} (hl : Scalar.le l (.finite x) = true)
    (hu : Scalar.le (.finite x) u = true)
    (hm : Scalar.max (.finite c * l) (.finite c * u) = .finite m) : c * x ≤ m := by
  rw [← le_finite, ← hm]
  rcases lt_trichotomy c 0 with hc | rfl | hc
  · rcases le_finite_cases hl with rfl | ⟨y, hy, rfl⟩
    · rw [finite_mul_negInf, if_neg (not_lt_of_gt hc), if_pos hc]
      exact exact_le_trans rfl (exact_le_max_left _ nofun)
    · refine exact_le_trans (le_finite.2 (mul_le_mul_of_nonpos_left hy hc.le)) ?_
      exact exact_le_max_left _ nofun
  · rw [zero_mul]
    rcases finite_zero_mul_cases l with el | el
    · exact le_max_of_eq (.inl el)
    · rcases finite_zero_mul_cases u with eu | eu
      · exact le_max_of_eq (.inr eu)
      · rw [el, eu] at hm
        cases hm
  · rcases finite_le_cases hu with rfl | ⟨y, hy, rfl⟩
    · rw [finite_mul_posInf, if_pos hc]
      exact exact_le_trans rfl (exact_le_max_right _ nofun)
    · refine exact_le_trans (le_finite.2 (mul_le_mul_of_nonneg_left hy hc.le)) ?_
      exact exact_le_max_right _ nofun

/-- The bound that the fold has added up so far moves by no less than the terms' value. -/
theorem foldlM_violation {terms : List (Exact × Var)} {init m : Exact} (hin : p.Respects domains)
    (hr : TermsRational terms) (hd : TermsDefined p terms) (hm : m.IsRational)
    (h : terms.foldlM (fun m t => domains[t.2.index]?.map fun d =>
      m + Scalar.max (t.1 * d.lower) (t.1 * d.upper)) init = some m) :
    ∃ a b v : Rat, init = .finite a ∧ m = .finite b ∧ linearValue p terms = .finite v ∧
      a + v ≤ b := by
  induction terms generalizing init with
  | nil =>
    obtain ⟨b, rfl⟩ := hm
    rw [List.foldlM_nil] at h
    cases h
    exact ⟨b, b, 0, rfl, rfl, rfl, (add_zero b).le⟩
  | cons t rest ih =>
    rw [TermsRational, List.forall_mem_cons] at hr
    rw [TermsDefined, List.forall_mem_cons] at hd
    rw [List.foldlM_cons] at h
    obtain ⟨next, hnext, h⟩ := Option.bind_eq_some_iff.1 h
    obtain ⟨d, domain, rfl⟩ := Option.map_eq_some_iff.1 hnext
    obtain ⟨a', b, v, ha, hb, hv, le⟩ := ih hr.2 hd.2 h
    obtain ⟨⟨a, rfl⟩, k, hk⟩ := Exact.IsRational.of_add ⟨a', ha⟩
    obtain ⟨c, hc⟩ := hr.1
    obtain ⟨x, hx⟩ := hd.1
    have within := hin t.2 d domain
    have bound : c * x ≤ k := by
      rw [hc] at hk
      exact mul_le_max (hx ▸ within.lower) (hx ▸ within.upper) hk
    rw [hk, finite_add] at ha
    cases ha
    refine ⟨a, b, c * x + v, rfl, hb, ?_, by linarith⟩
    rw [linearValue_cons, hc, hx, hv, finite_mul, finite_add]

namespace Indicator

variable {i : Indicator Exact}

theorem le_rhs_add {m : Exact} (hin : p.Respects domains) (hr : TermsRational i.form.terms)
    (hd : TermsDefined p i.form.terms) (h : i.largestViolation? domains = some m)
    (hm : m.IsRational) : ∃ k b v : Rat, i.rhs = .finite k ∧ m = .finite b ∧
      i.form.evaluate p = .finite v ∧ v ≤ k + b := by
  obtain ⟨a, b, v, ha, hb, hv, le⟩ := foldlM_violation hin hr hd hm h
  cases e : i.rhs with
  | finite k =>
    rw [e, finite_neg] at ha
    cases ha
    exact ⟨k, b, v, rfl, hb, hv, by linarith⟩
  | _ =>
    rw [e] at ha
    cases ha

/-- The relaxed row asks for the inequality when the trigger is on, and for nothing that the
bounds do not give when it is off. -/
theorem relaxedRow_exact {k b v t : Rat} (ht : 0 ≤ t) (hvalue : i.value = 0 ∨ i.value = 1)
    (hbit : (i.trigger.value p).IsBit) (hd : TermsDefined p i.form.terms)
    (hk : i.rhs = .finite k) (hv : i.form.evaluate p = .finite v) (le : v ≤ k + b) :
    (FlatConstraint.indicator i).isSatisfied p (.finite t) = true ↔
      (FlatConstraint.linear (i.relaxedRow (.finite b))).isSatisfied p (.finite t) = true := by
  have row (c : Rat) {x : Rat} (hx : i.trigger.value p = .finite x) :
      (i.form.extended [(.finite c, i.trigger)]).evaluate p = .finite (v + c * x) := by
    have trigger : TermsDefined p [(.finite c, i.trigger)] :=
      List.forall_mem_singleton.2 ⟨x, hx⟩
    rw [LinearForm.evaluate_extended hd trigger, hv, linearValue_cons, hx, finite_mul]
    exact congrArg Exact.finite (congrArg _ (add_zero _))
  rw [isSatisfied_iff hbit hk hv, relaxedRow, hk, finite_neg, finite_add]
  rcases hvalue with hz | hz <;> rcases hbit with hx | hx
  · rw [if_pos hz, satisfied_atMost (row (-b) hx), hx, hz]
    constructor
    · intro h
      linarith [h (by simp)]
    · intro h _
      linarith
  · rw [if_pos hz, satisfied_atMost (row (-b) hx), hx, hz]
    constructor
    · intro _
      linarith
    · intro _ h
      simp at h
  · rw [if_neg (by omega), satisfied_atMost (row b hx), hx, hz]
    constructor
    · intro _
      linarith
    · intro _ h
      simp at h
  · rw [if_neg (by omega), satisfied_atMost (row b hx), hx, hz]
    constructor
    · intro h
      linarith [h (by simp)]
    · intro h _
      linarith

theorem rows_exact {rows : List (LinearRow Exact)} {t : Rat} (ht : 0 ≤ t)
    (hvalue : i.value = 0 ∨ i.value = 1) (hr : TermsRational i.form.terms)
    (hd : TermsDefined p i.form.terms) (hin : p.Respects domains)
    (h : i.rows? domains = some rows) :
    (FlatConstraint.indicator i).isSatisfied p (.finite t) = true ↔
      ∀ r ∈ rows, (FlatConstraint.linear r).isSatisfied p (.finite t) = true := by
  rw [rows?] at h
  split at h
  · rename_i binary
    have hbit := hin.isBit binary
    split at h
    · rename_i m violation
      split at h
      · rename_i finite
        obtain ⟨k, b, v, hk, rfl, hv, le⟩ :=
          le_rhs_add hin hr hd violation (isFinite_iff.1 finite)
        split at h
        · rename_i nonpos
          have : b ≤ 0 := le_finite.1 nonpos
          cases h
          refine (iff_of_true ?_ fun _ h => absurd h List.not_mem_nil)
          rw [isSatisfied_iff hbit hk hv]
          intro _
          linarith
        · cases h
          rw [List.forall_mem_singleton]
          exact relaxedRow_exact ht hvalue hbit hd hk hv le
      · cases h
    · cases h
  · cases h

end Indicator

/-! ### Conjunctions and disjunctions -/

/-- One if the value of the variable is true, and zero if not. -/
def Var.bit (p : Point Exact) (v : Var) : Nat := (Scalar.isTrue (v.value p)).toNat

/-- How many of the variables are true. -/
def trueCount (p : Point Exact) (vs : List Var) : Nat :=
  vs.countP fun v => Scalar.isTrue (v.value p)

theorem Var.value_eq_bit {v : Var} (h : (v.value p).IsBit) :
    v.value p = .finite (v.bit p : Int) := by
  rcases h with e | e <;> rw [Var.bit, e] <;> rfl

theorem trueCount_cons (v : Var) (vs : List Var) :
    trueCount p (v :: vs) = v.bit p + trueCount p vs := by
  rw [trueCount, List.countP_cons, Nat.add_comm, Var.bit, trueCount]
  cases Scalar.isTrue (v.value p) <;> rfl

theorem trueCount_le_length (vs : List Var) : trueCount p vs ≤ vs.length := List.countP_le_length

theorem all_isTrue_iff {vs : List Var} :
    (vs.map (Var.value p)).all Scalar.isTrue = true ↔ trueCount p vs = vs.length := by
  rw [trueCount, List.countP_eq_length, List.all_map, List.all_eq_true]
  rfl

theorem any_isTrue_iff {vs : List Var} :
    (vs.map (Var.value p)).any Scalar.isTrue = true ↔ 0 < trueCount p vs := by
  rw [trueCount, List.countP_pos_iff, List.any_map, List.any_eq_true]
  rfl

theorem bit_le_one (v : Var) : v.bit p ≤ 1 := Bool.toNat_le _

theorem forall_one_le_bit {vs : List Var} :
    (∀ v ∈ vs, 1 ≤ v.bit p) ↔ trueCount p vs = vs.length := by
  rw [trueCount, List.countP_eq_length]
  refine forall₂_congr fun v _ => ?_
  rw [Var.bit]
  cases Scalar.isTrue (v.value p) <;> decide

theorem forall_bit_le_zero {vs : List Var} :
    (∀ v ∈ vs, v.bit p ≤ 0) ↔ trueCount p vs = 0 := by
  rw [trueCount, List.countP_eq_zero]
  refine forall₂_congr fun v _ => ?_
  rw [Var.bit]
  cases Scalar.isTrue (v.value p) <;> decide

/-- A bit is the conjunction of the variables when it is below each of them, and is not below
all ones only. -/
theorem eq_all_iff {b : Nat} {vs : List Var} (hb : b ≤ 1) :
    b = ((vs.map (Var.value p)).all Scalar.isTrue).toNat ↔
      (∀ v ∈ vs, b ≤ v.bit p) ∧ trueCount p vs + 1 ≤ vs.length + b := by
  have count := trueCount_le_length (p := p) vs
  have all : ((vs.map (Var.value p)).all Scalar.isTrue).toNat = 1 ↔
      trueCount p vs = vs.length := by rw [Bool.toNat_eq_one, all_isTrue_iff]
  have := Bool.toNat_le ((vs.map (Var.value p)).all Scalar.isTrue)
  obtain rfl | rfl : b = 0 ∨ b = 1 := by omega
  · have : ∀ v ∈ vs, 0 ≤ v.bit p := fun _ _ => Nat.zero_le _
    rw [and_iff_right this]
    omega
  · rw [forall_one_le_bit]
    omega

/-- A bit is the disjunction of the variables when it is above each of them, and not above
their sum. -/
theorem eq_any_iff {b : Nat} {vs : List Var} (hb : b ≤ 1) :
    b = ((vs.map (Var.value p)).any Scalar.isTrue).toNat ↔
      (∀ v ∈ vs, v.bit p ≤ b) ∧ b ≤ trueCount p vs := by
  have any : ((vs.map (Var.value p)).any Scalar.isTrue).toNat = 1 ↔ 0 < trueCount p vs := by
    rw [Bool.toNat_eq_one, any_isTrue_iff]
  have := Bool.toNat_le ((vs.map (Var.value p)).any Scalar.isTrue)
  obtain rfl | rfl : b = 0 ∨ b = 1 := by omega
  · rw [forall_bit_le_zero]
    omega
  · have : ∀ v ∈ vs, v.bit p ≤ 1 := fun v _ => bit_le_one v
    rw [and_iff_right this]
    omega

theorem linearValue_neg_bits {vs : List Var} (h : ∀ v ∈ vs, (v.value p).IsBit) :
    linearValue p (vs.map fun v => (-1, v)) = .finite (-(trueCount p vs : Int) : Int) := by
  induction vs with
  | nil => rfl
  | cons v rest ih =>
    rw [List.forall_mem_cons] at h
    rw [List.map_cons, linearValue_cons, ih h.2, Var.value_eq_bit h.1, exact_one, finite_neg,
      finite_mul, finite_add, trueCount_cons]
    congr 1
    push_cast
    ring

namespace FuncGraph

variable {g : FuncGraph Exact} {t : Rat}

theorem evaluate_differenceForm {x : Var} (hr : (g.result.value p).IsBit)
    (hx : (x.value p).IsBit) :
    (g.differenceForm x).evaluate p = .finite ((g.result.bit p - x.bit p : Int) : Rat) := by
  have defined : TermsDefined p [(1, g.result), (-1, x)] :=
    List.forall_mem_cons.2 ⟨hr.isRational, List.forall_mem_singleton.2 hx.isRational⟩
  rw [differenceForm, LinearForm.evaluate_ofTerms defined, linearValue_cons, exact_one_mul]
  have := linearValue_neg_bits (List.forall_mem_singleton.2 hx)
  rw [List.map_singleton] at this
  rw [this, Var.value_eq_bit hr, finite_add, trueCount_cons]
  congr 1
  push_cast
  simp [trueCount]
  ring

theorem evaluate_excessForm (hr : (g.result.value p).IsBit)
    (hx : ∀ x ∈ g.args, (x.value p).IsBit) :
    g.excessForm.evaluate p = .finite ((g.result.bit p - trueCount p g.args : Int) : Rat) := by
  have args : TermsDefined p (g.args.map fun x => (-1, x)) := by
    intro t ht
    obtain ⟨x, hm, rfl⟩ := List.mem_map.1 ht
    exact (hx x hm).isRational
  have defined : TermsDefined p ((1, g.result) :: g.args.map fun x => (-1, x)) :=
    List.forall_mem_cons.2 ⟨hr.isRational, args⟩
  rw [excessForm, LinearForm.evaluate_ofTerms defined, linearValue_cons, exact_one_mul,
    linearValue_neg_bits hx, Var.value_eq_bit hr, finite_add]
  congr 1
  push_cast
  ring

/-- The function's value is a bit, so that the result is close to it only by being equal. -/
theorem isSatisfied_truth {f : Func} {b : Bool} (ht : 0 ≤ t) (ht1 : t < 1)
    (hr : (g.result.value p).IsBit) (hf : g.value f p = Scalar.truth b) :
    (FlatConstraint.function f g).isSatisfied p (.finite t) = true ↔
      g.result.bit p = b.toNat := by
  have truth : (Scalar.truth b : Exact) = .finite (b.toNat : Int) := by cases b <;> rfl
  rw [FlatConstraint.isSatisfied, hf, truth, Var.value_eq_bit hr, close_int ht ht1,
    Nat.cast_inj]

theorem isBinary_iff : g.isBinary domains = true ↔
    g.args ≠ [] ∧ isBinaryVar domains g.result = true ∧
      ∀ x ∈ g.args, isBinaryVar domains x = true := by
  rw [isBinary, Bool.and_eq_true, Bool.and_eq_true, Bool.not_eq_true', List.isEmpty_eq_false_iff,
    List.all_eq_true, and_assoc]

/-- With all arguments true the count reaches their number, and the last row forces the
result; with one false the result is below it. -/
theorem conjunctionRows_exact (ht : 0 ≤ t) (ht1 : t < 1) (hr : (g.result.value p).IsBit)
    (hx : ∀ x ∈ g.args, (x.value p).IsBit) :
    (FlatConstraint.function .conjunction g).isSatisfied p (.finite t) = true ↔
      ∀ r ∈ g.conjunctionRows, (FlatConstraint.linear r).isSatisfied p (.finite t) = true := by
  have difference : ∀ x ∈ g.args,
      (FlatConstraint.linear (.atMost (g.differenceForm x) 0)).isSatisfied p (.finite t) = true ↔
        g.result.bit p ≤ x.bit p := by
    intro x hm
    have := satisfied_atMost_int (k := 0) ht ht1 (evaluate_differenceForm hr (hx x hm))
    rw [Int.cast_zero] at this
    rw [exact_zero, this]
    omega
  have excess : (FlatConstraint.linear (.atLeast g.excessForm
      (1 - Scalar.ofInt g.args.length))).isSatisfied p (.finite t) = true ↔
        trueCount p g.args + 1 ≤ g.args.length + g.result.bit p := by
    have := satisfied_atLeast_int (k := 1 - g.args.length) ht ht1 (evaluate_excessForm hr hx)
    rw [exact_one, finite_ofInt, finite_sub]
    push_cast at this ⊢
    rw [this]
    omega
  rw [conjunctionRows, List.forall_mem_append, List.forall_mem_map, List.forall_mem_singleton,
    forall₂_congr difference, excess, isSatisfied_truth ht ht1 hr rfl]
  exact eq_all_iff (bit_le_one _)

/-- With one argument true the result is above it; with none the last row puts it to zero. -/
theorem disjunctionRows_exact (ht : 0 ≤ t) (ht1 : t < 1) (hr : (g.result.value p).IsBit)
    (hx : ∀ x ∈ g.args, (x.value p).IsBit) :
    (FlatConstraint.function .disjunction g).isSatisfied p (.finite t) = true ↔
      ∀ r ∈ g.disjunctionRows, (FlatConstraint.linear r).isSatisfied p (.finite t) = true := by
  have difference : ∀ x ∈ g.args,
      (FlatConstraint.linear (.atLeast (g.differenceForm x) 0)).isSatisfied p (.finite t) = true ↔
        x.bit p ≤ g.result.bit p := by
    intro x hm
    have := satisfied_atLeast_int (k := 0) ht ht1 (evaluate_differenceForm hr (hx x hm))
    rw [Int.cast_zero] at this
    rw [exact_zero, this]
    omega
  have excess : (FlatConstraint.linear (.atMost g.excessForm 0)).isSatisfied p (.finite t) = true ↔
      g.result.bit p ≤ trueCount p g.args := by
    have := satisfied_atMost_int (k := 0) ht ht1 (evaluate_excessForm hr hx)
    rw [Int.cast_zero] at this
    rw [exact_zero, this]
    omega
  rw [disjunctionRows, List.forall_mem_append, List.forall_mem_map, List.forall_mem_singleton,
    forall₂_congr difference, excess, isSatisfied_truth ht ht1 hr rfl]
  exact eq_any_iff (bit_le_one _)

end FuncGraph

/-! ### All kinds -/

theorem rows_exact {c : FlatConstraint Exact} {rows : List (LinearRow Exact)} {t : Rat}
    (hc : c.Sound p) (ht : 0 ≤ t) (ht1 : t < 1) (hin : p.Respects domains)
    (hrows : c.rows? domains = some rows) :
    c.isSatisfied p (.finite t) = true ↔
      ∀ r ∈ rows, (FlatConstraint.linear r).isSatisfied p (.finite t) = true := by
  cases c with
  | linear | quadratic | general => cases hrows
  | linearDefining r f k =>
    cases hrows
    obtain ⟨result, rational, defined, constant⟩ := hc
    rw [List.forall_mem_singleton]
    exact definitionRow_exact result defined rational constant
  | indicator i =>
    obtain ⟨value, rational, defined⟩ := hc
    exact Indicator.rows_exact ht value rational defined hin hrows
  | function f g =>
    cases f with
    | conjunction =>
      rw [FlatConstraint.rows?, Option.ite_none_right_eq_some] at hrows
      obtain ⟨binary, hrows⟩ := hrows
      cases hrows
      obtain ⟨-, hr, hx⟩ := FuncGraph.isBinary_iff.1 binary
      exact g.conjunctionRows_exact ht ht1 (hin.isBit hr) fun x hm => hin.isBit (hx x hm)
    | disjunction =>
      rw [FlatConstraint.rows?, Option.ite_none_right_eq_some] at hrows
      obtain ⟨binary, hrows⟩ := hrows
      cases hrows
      obtain ⟨-, hr, hx⟩ := FuncGraph.isBinary_iff.1 binary
      exact g.disjunctionRows_exact ht ht1 (hin.isBit hr) fun x hm => hin.isBit (hx x hm)
    | _ => cases hrows

/-- A reformulation is exact at every point that respects the domains. Nothing is asked of the
order or the coefficients of the forms. -/
theorem reformulate_exact {c : FlatConstraint Exact} {pieces : List (FlatConstraint Exact)}
    {t : Rat} (hc : c.IsRational) (hvalue : ∀ i, c = .indicator i → i.value = 0 ∨ i.value = 1)
    (ht : 0 ≤ t) (ht1 : t < 1) (hp : p.IsRational) (hcover : p.Covers c.vars)
    (hin : p.Respects domains) (h : c.reformulate? domains = some pieces) :
    c.isSatisfied p (.finite t) = true ↔ ∀ d ∈ pieces, d.isSatisfied p (.finite t) = true := by
  obtain ⟨rows, hrows, rfl⟩ := Option.map_eq_some_iff.1 h
  rw [List.forall_mem_map]
  exact rows_exact (FlatConstraint.sound_of_covers hc hvalue hp hcover) ht ht1 hin hrows

end Exactness

open Exact.SquareOnly in
/-- The trigger occurs in the form that it guards, and `M` is eight. -/
theorem reformulate_exact_aliased_trigger :
    let i : Indicator Exact := ⟨⟨0⟩, 1, ⟨[(.finite 1, ⟨0⟩), (.finite 1, ⟨1⟩)]⟩, .finite 3⟩
    let p : Point Exact := [.finite 1, .finite 2]
    (FlatConstraint.indicator i).isSatisfied p (.finite 0) = true ↔
      ∀ d ∈ [FlatConstraint.linear (i.relaxedRow (.finite 8))],
        d.isSatisfied p (.finite 0) = true := by
  intro i p
  let domains : List (Domain Exact) := [.binary, .continuous (.finite 0) (.finite 10)]
  have numbers : (FlatConstraint.indicator i).IsRational := by
    refine ⟨fun t ht => ?_, ⟨3, rfl⟩⟩
    simp only [i, List.mem_cons, List.not_mem_nil, or_false] at ht
    rcases ht with rfl | rfl <;> exact ⟨1, rfl⟩
  have rational : p.IsRational := by
    intro x hx
    simp only [p, List.mem_cons, List.not_mem_nil, or_false] at hx
    rcases hx with rfl | rfl <;> exact Exact.isRational_finite _
  have covers : p.Covers (FlatConstraint.indicator i).vars := by
    unfold Point.Covers
    decide
  have respects : p.Respects domains := by
    intro v d hd
    obtain ⟨_ | _ | n⟩ := v <;> cases hd
    · exact ⟨by decide +kernel, by decide +kernel, fun _ => ⟨1, rfl⟩⟩
    · exact ⟨by decide +kernel, by decide +kernel, nofun⟩
  have violation : i.largestViolation? domains = some (.finite 8) := by decide +kernel
  have positive : Scalar.le (Exact.finite 8) 0 = false := by decide +kernel
  have pieces : (FlatConstraint.indicator i).reformulate? domains =
      some [.linear (i.relaxedRow (.finite 8))] := by
    have binary : isBinaryVar domains i.trigger = true := by decide +kernel
    rw [FlatConstraint.reformulate?, FlatConstraint.rows?, Indicator.rows?, if_pos binary,
      violation]
    simp [positive, isFinite_iff, Exact.isRational_finite]
  exact reformulate_exact numbers (fun j h => by cases h; exact .inr rfl) (le_refl 0) one_pos
    rational covers respects pieces

end SolverBridge
