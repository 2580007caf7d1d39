import Mathlib.Algebra.Order.Field.Basic
import Mathlib.Order.Bounds.Image
import SolverBridge.Proofs.Coefficients
import SolverBridge.Reformulation

/-! The values of a linear form in a box. Each variable of the form stays within its bounds, and
since none occurs twice, the terms are chosen independently of one another. So the largest value
of the form is the sum of the largest values of its terms, and each of these is reached at one of
the bounds of the variable, or it is infinite when that bound is.

The points of the box have coordinates in any ordered field, such as the rational or the real
numbers. Variables that the form does not mention are free, and nothing asks for integers. -/

namespace SolverBridge

/-! ### Maxima of exact numbers -/

section Maxima

variable [Transcendental] {a b : Exact} {c : Rat}

theorem exact_max_eq_right (h : Scalar.le a b = true) : Scalar.max a b = b := by
  rw [Scalar.max]
  split
  · rcases Bool.or_eq_true_iff.1 h with lt | eq
    · exact if_pos lt
    · rw [(Exact.eq_iff.1 eq).1, ite_self]
  · rfl

theorem exact_max_eq_left (h : Scalar.le b a = true) : Scalar.max a b = a := by
  have defined : a.IsDefined := by
    rintro rfl
    cases b <;> cases h
  have smaller : ¬Scalar.lt a b = true := by
    cases a <;> cases b <;>
      simp_all [Scalar.le, Scalar.lt, Exact.le, Exact.lt, Exact.eq, le_iff_lt_or_eq]
  rw [Scalar.max, if_pos (exact_beq.2 ⟨rfl, defined⟩), if_neg smaller]

theorem le_finite_mul (hc : 0 < c) (h : Scalar.le a b = true) :
    Scalar.le (.finite c * a) (.finite c * b) = true := by
  cases a <;> cases b <;> simp_all [finite_mul, finite_mul_posInf, finite_mul_negInf, Scalar.le,
    Exact.le, Exact.lt, Exact.eq]
  rcases h with h | h <;> simp [h]

theorem le_finite_mul_of_neg (hc : c < 0) (h : Scalar.le a b = true) :
    Scalar.le (.finite c * b) (.finite c * a) = true := by
  cases a <;> cases b <;> simp_all [finite_mul, finite_mul_posInf, finite_mul_negInf, Scalar.le,
    Exact.le, Exact.lt, Exact.eq, not_lt_of_gt]
  rcases h with h | h <;> simp [h]

end Maxima

/-! ### Values of a form -/

namespace LinearForm

variable {K : Type*} [Field K] {rest : List (Exact × Var)}

/-- The value of the form where its variables have values in a field. -/
def valueAt (f : LinearForm Exact) (x : Var → K) : K :=
  (f.terms.map fun t => (t.1.toRat : K) * x t.2).sum

theorem valueAt_cons (t : Exact × Var) (x : Var → K) :
    valueAt ⟨t :: rest⟩ x = t.1.toRat * x t.2 + valueAt ⟨rest⟩ x := List.sum_cons

/-- The value does not depend on a variable that does not occur. -/
theorem valueAt_update {v : Var} (fresh : v ∉ rest.map (·.2)) (x : Var → K) (y : K) :
    valueAt ⟨rest⟩ (Function.update x v y) = valueAt ⟨rest⟩ x := by
  refine congrArg List.sum (List.map_congr_left fun t ht => ?_)
  have other : t.2 ≠ v := fun e => fresh (e ▸ List.mem_map_of_mem ht)
  rw [Function.update_of_ne other]

end LinearForm

section Peaks

variable {K : Type*} [Field K] [LinearOrder K]

/-! ### Bounds -/

/-- As a lower bound, `a` admits `x`. -/
def Exact.IsBelow (a : Exact) (x : K) : Prop :=
  match a with
  | .finite q => (q : K) ≤ x
  | .negInf => True
  | .posInf | .nan => False

/-- As an upper bound, `a` admits `x`. -/
def Exact.IsAbove (a : Exact) (x : K) : Prop :=
  match a with
  | .finite q => x ≤ (q : K)
  | .posInf => True
  | .negInf | .nan => False

theorem Exact.isBelow_cast (q : Rat) : (Exact.finite q).IsBelow (q : K) := le_rfl

theorem Exact.isAbove_cast (q : Rat) : (Exact.finite q).IsAbove (q : K) := le_rfl

namespace Domain

/-- The number is within the bounds, integer or not. -/
def Spans (d : Domain Exact) (x : K) : Prop := d.lower.IsBelow x ∧ d.upper.IsAbove x

/-- The bounds are in order, and neither excludes all numbers. -/
structure IsSpan [Transcendental] (d : Domain Exact) : Prop where
  ordered : Scalar.le d.lower d.upper = true
  lower : Scalar.lt d.lower .posInf = true
  upper : Scalar.lt .negInf d.upper = true

end Domain

/-! ### Largest elements -/

/-- The largest element of a set of numbers, or infinity when there are larger and larger ones. -/
inductive IsPeak (s : Set K) : Exact → Prop
  | finite {q : Rat} (h : IsGreatest s (q : K)) : IsPeak s (.finite q)
  | posInf (h : ∀ b, ∃ y ∈ s, b ≤ y) : IsPeak s .posInf

theorem IsPeak.nonempty {s : Set K} {a : Exact} (h : IsPeak s a) : s.Nonempty := by
  cases h with
  | finite h => exact ⟨_, h.1⟩
  | posInf h =>
    obtain ⟨y, hy, -⟩ := h 0
    exact ⟨y, hy⟩

variable [IsStrictOrderedRing K]

/-- Where two numbers are chosen independently, the largest sum is that of the largest ones. -/
theorem IsPeak.add {s t : Set K} {a b : Exact} (hs : IsPeak s a) (ht : IsPeak t b) :
    IsPeak (Set.image2 (· + ·) s t) (a + b) := by
  obtain ⟨x, hx⟩ := hs.nonempty
  obtain ⟨y, hy⟩ := ht.nonempty
  cases hs with
  | finite hs =>
    cases ht with
    | finite ht =>
      rw [finite_add]
      refine .finite ?_
      rw [Rat.cast_add]
      exact hs.image2 (fun b => add_left_mono) (fun a => add_right_mono) ht
    | posInf ht =>
      refine .posInf fun b => ?_
      obtain ⟨z, hz, le⟩ := ht (b - x)
      exact ⟨x + z, Set.mem_image2_of_mem hx hz, by linarith⟩
  | posInf hs =>
    have unbounded : ∀ c, ∃ z ∈ Set.image2 (· + ·) s t, c ≤ z := by
      intro c
      obtain ⟨z, hz, le⟩ := hs (c - y)
      exact ⟨z + y, Set.mem_image2_of_mem hz hy, by linarith⟩
    cases ht <;> exact .posInf unbounded

/-! ### One variable -/

section Span

variable [Transcendental] {d : Domain Exact} {c : Rat}

theorem isBelow_mono {a b : Exact} {x : K} (h : Scalar.le a b = true) (hb : b.IsBelow x) :
    a.IsBelow x := by
  cases b with
  | finite q =>
    rcases le_finite_cases h with rfl | ⟨y, le, rfl⟩
    · trivial
    · exact (Rat.cast_le.2 le).trans hb
  | negInf => cases a <;> trivial
  | _ => cases hb

theorem isAbove_mono {a b : Exact} {x : K} (h : Scalar.le b a = true) (hb : b.IsAbove x) :
    a.IsAbove x := by
  cases b with
  | finite q =>
    rcases finite_le_cases h with rfl | ⟨y, le, rfl⟩
    · trivial
    · exact hb.trans (Rat.cast_le.2 le)
  | posInf => cases a <;> trivial
  | _ => cases hb

omit [IsStrictOrderedRing K] in
/-- A lower bound allows arbitrarily large numbers. -/
theorem exists_isBelow {a : Exact} (h : Scalar.lt a .posInf = true) (b : K) :
    ∃ x, b ≤ x ∧ a.IsBelow x := by
  cases a with
  | finite q => exact ⟨max b q, le_max_left b q, le_max_right b (q : K)⟩
  | negInf => exact ⟨b, le_refl b, trivial⟩
  | _ => cases h

omit [IsStrictOrderedRing K] in
/-- An upper bound allows arbitrarily small numbers. -/
theorem exists_isAbove {a : Exact} (h : Scalar.lt .negInf a = true) (b : K) :
    ∃ x, x ≤ b ∧ a.IsAbove x := by
  cases a with
  | finite q => exact ⟨min b q, min_le_left b q, min_le_right b (q : K)⟩
  | posInf => exact ⟨b, le_refl b, trivial⟩
  | _ => cases h

/-- A positive multiple is largest at the upper bound. -/
theorem isPeak_upper (hd : d.IsSpan) (hc : 0 < c) :
    IsPeak ((fun x : K => c * x) '' {x | d.Spans x}) (.finite c * d.upper) := by
  have positive : (0 : K) < c := Rat.cast_pos.2 hc
  cases e : d.upper with
  | finite u =>
    have below : d.lower.IsBelow (u : K) := isBelow_mono (e ▸ hd.ordered) (Exact.isBelow_cast u)
    have above : d.upper.IsAbove (u : K) := e ▸ Exact.isAbove_cast u
    refine .finite ⟨⟨u, ⟨below, above⟩, (Rat.cast_mul c u).symm⟩, ?_⟩
    rintro _ ⟨x, hx, rfl⟩
    have le : x ≤ u := by simpa [Domain.Spans, e, Exact.IsAbove] using hx.2
    rw [Rat.cast_mul]
    exact mul_le_mul_of_nonneg_left le positive.le
  | posInf =>
    rw [finite_mul_posInf, if_pos hc]
    refine .posInf fun b => ?_
    obtain ⟨x, le, below⟩ := exists_isBelow hd.lower (b / c)
    refine ⟨c * x, ⟨x, ⟨below, by rw [e]; trivial⟩, rfl⟩, ?_⟩
    rwa [div_le_iff₀' positive] at le
  | _ => exact absurd hd.upper (by rw [e]; nofun)

/-- A negative multiple is largest at the lower bound. -/
theorem isPeak_lower (hd : d.IsSpan) (hc : c < 0) :
    IsPeak ((fun x : K => c * x) '' {x | d.Spans x}) (.finite c * d.lower) := by
  have negative : (c : K) < 0 := Rat.cast_lt_zero.2 hc
  cases e : d.lower with
  | finite l =>
    have below : d.lower.IsBelow (l : K) := e ▸ Exact.isBelow_cast l
    have above : d.upper.IsAbove (l : K) := isAbove_mono (e ▸ hd.ordered) (Exact.isAbove_cast l)
    refine .finite ⟨⟨l, ⟨below, above⟩, (Rat.cast_mul c l).symm⟩, ?_⟩
    rintro _ ⟨x, hx, rfl⟩
    have le : l ≤ x := by simpa [Domain.Spans, e, Exact.IsBelow] using hx.1
    rw [Rat.cast_mul]
    exact mul_le_mul_of_nonpos_left le negative.le
  | negInf =>
    rw [finite_mul_negInf, if_neg (not_lt_of_gt hc), if_pos hc]
    refine .posInf fun b => ?_
    obtain ⟨x, le, above⟩ := exists_isAbove hd.upper (b / c)
    refine ⟨c * x, ⟨x, ⟨by rw [e]; trivial, above⟩, rfl⟩, ?_⟩
    rwa [le_div_iff_of_neg' negative] at le
  | _ => exact absurd hd.lower (by rw [e]; nofun)

/-- The larger of the multiples of the bounds is the largest of all multiples. -/
theorem isPeak_max (hd : d.IsSpan) (hc : c ≠ 0) :
    IsPeak ((fun x : K => c * x) '' {x | d.Spans x})
      (Scalar.max (.finite c * d.lower) (.finite c * d.upper)) := by
  rcases lt_or_gt_of_ne hc with negative | positive
  · rw [exact_max_eq_left (le_finite_mul_of_neg negative hd.ordered)]
    exact isPeak_lower hd negative
  · rw [exact_max_eq_right (le_finite_mul positive hd.ordered)]
    exact isPeak_upper hd positive

end Span

/-! ### All variables of a form -/

section Box

variable [Transcendental]

/-- The form is canonical with rational coefficients, and each of its variables is known and has
bounds that are in order. -/
structure LinearForm.HasBox (domains : List (Domain Exact)) (f : LinearForm Exact) : Prop where
  canonical : f.Canonical
  rational : TermsRational f.terms
  known : ∀ v ∈ f.vars, ∃ d, domains[v.index]? = some d ∧ d.IsSpan

/-- The variables of the form are within their bounds. -/
def InBox (domains : List (Domain Exact)) (f : LinearForm Exact) (x : Var → K) : Prop :=
  ∀ v ∈ f.vars, ∀ d ∈ domains[v.index]?, d.Spans (x v)

/-- The values of the form in the box. -/
def boxValues (K : Type*) [Field K] [LinearOrder K] (domains : List (Domain Exact))
    (f : LinearForm Exact) : Set K := f.valueAt '' {x | InBox domains f x}

variable {domains : List (Domain Exact)} {rest : List (Exact × Var)} {t : Exact × Var}

theorem LinearForm.HasBox.tail (h : HasBox domains ⟨t :: rest⟩) : HasBox domains ⟨rest⟩ where
  canonical := ⟨(List.nodup_cons.1 h.canonical.1).2, (List.forall_mem_cons.1 h.canonical.2).2⟩
  rational := (List.forall_mem_cons.1 h.rational).2
  known := (List.forall_mem_cons.1 h.known).2

omit [IsStrictOrderedRing K] [Transcendental] in
/-- The first variable is chosen independently of the others. -/
theorem boxValues_cons {d : Domain Exact} (known : domains[t.2.index]? = some d)
    (fresh : t.2 ∉ rest.map (·.2)) :
    boxValues K domains ⟨t :: rest⟩ =
      Set.image2 (· + ·) ((fun x : K => t.1.toRat * x) '' {x | d.Spans x})
        (boxValues K domains ⟨rest⟩) := by
  apply Set.Subset.antisymm
  · rintro _ ⟨x, hx, rfl⟩
    have first : d.Spans (x t.2) := hx t.2 List.mem_cons_self d known
    have others : InBox domains ⟨rest⟩ x := fun v hv => hx v (List.mem_cons_of_mem _ hv)
    rw [LinearForm.valueAt_cons]
    exact Set.mem_image2_of_mem ⟨x t.2, first, rfl⟩ ⟨x, others, rfl⟩
  · rintro _ ⟨_, ⟨y, hy, rfl⟩, _, ⟨x, hx, rfl⟩, rfl⟩
    refine ⟨Function.update x t.2 y, fun v hv e he => ?_, ?_⟩
    · rcases List.mem_cons.1 hv with rfl | hv
      · rw [known] at he
        cases he
        rwa [Function.update_self]
      · have other : v ≠ t.2 := fun h => fresh (h ▸ hv)
        rw [Function.update_of_ne other]
        exact hx v hv e he
    · rw [LinearForm.valueAt_cons, Function.update_self, LinearForm.valueAt_update fresh]

end Box

end Peaks

/-! ### Narrower bounds -/

section Narrower

variable [Transcendental]

/-- The same sort of numbers within bounds that are no wider. -/
structure Domain.Narrows (d' d : Domain Exact) : Prop where
  integral : d'.integral = d.integral
  lower : Scalar.le d.lower d'.lower = true
  upper : Scalar.le d'.upper d.upper = true

/-- As many variables, each narrowed. -/
def Narrowed (domains' domains : List (Domain Exact)) : Prop :=
  ∀ n : Nat, Option.Rel Domain.Narrows domains'[n]? domains[n]?

variable {domains domains' : List (Domain Exact)}

theorem Narrowed.isBinaryVar (h : Narrowed domains' domains) {v : Var}
    (binary : isBinaryVar domains v = true) : isBinaryVar domains' v = true := by
  have related := h v.index
  unfold SolverBridge.isBinaryVar at binary ⊢
  cases e : domains[v.index]? with
  | none =>
    rw [e] at binary
    cases binary
  | some d =>
    rw [e] at binary related
    generalize domains'[v.index]? = o at related ⊢
    cases related with
    | @some d' _ narrower =>
      rw [Option.map_some, Option.getD_some, Domain.isBinary, Bool.and_eq_true, Bool.and_eq_true]
        at binary ⊢
      exact ⟨⟨narrower.integral.trans binary.1.1, exact_le_trans binary.1.2 narrower.lower⟩,
        exact_le_trans narrower.upper binary.2⟩

variable {K : Type*} [Field K] [LinearOrder K] [IsStrictOrderedRing K]

theorem Narrowed.inBox (h : Narrowed domains' domains) {f : LinearForm Exact} {x : Var → K}
    (hx : InBox domains' f x) : InBox domains f x := by
  intro v hv d hd
  have related := h v.index
  rw [hd] at related
  cases e : domains'[v.index]? with
  | none =>
    rw [e] at related
    cases related
  | some d' =>
    rw [e] at related
    cases related with
    | some narrower =>
      obtain ⟨below, above⟩ := hx v hv d' e
      exact ⟨isBelow_mono narrower.lower below, isAbove_mono narrower.upper above⟩

end Narrower

end SolverBridge
