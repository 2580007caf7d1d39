import SolverBridge.Proofs.Defined

/-! What the checks of a point mean when the values are rational. A row with one finite side
is an inequality with the tolerance for slack. Between integers a tolerance below one
is no slack at all, and an indicator whose trigger is a bit is a plain implication. -/

namespace SolverBridge

variable [Transcendental] {p : Point Exact}

/-! ### Points within domains -/

/-- The number lies within the bounds, and is an integer if it must be. -/
structure Domain.Contains (d : Domain Exact) (x : Exact) : Prop where
  lower : Scalar.le d.lower x = true
  upper : Scalar.le x d.upper = true
  integral : d.integral = true → ∃ z : Int, x = .finite z

/-- Every variable has a value of its domain. -/
def Point.Respects (p : Point Exact) (domains : List (Domain Exact)) : Prop :=
  ∀ v : Var, ∀ d ∈ domains[v.index]?, d.Contains (v.value p)

/-! ### Bits -/

/-- The number is zero or one. -/
def Exact.IsBit (a : Exact) : Prop := a = .finite 0 ∨ a = .finite 1

omit [Transcendental] in
theorem Exact.IsBit.isRational {a : Exact} (h : a.IsBit) : a.IsRational :=
  h.elim (fun e => ⟨0, e⟩) fun e => ⟨1, e⟩

theorem Exact.IsBit.round {a : Exact} (h : a.IsBit) : Scalar.round a = a := by
  rcases h with rfl | rfl
  · exact (by decide +kernel : Exact.round (.finite 0) = .finite 0)
  · exact (by decide +kernel : Exact.round (.finite 1) = .finite 1)

theorem Domain.Contains.isBit {d : Domain Exact} {x : Exact} (h : d.Contains x)
    (hd : d.isBinary = true) : x.IsBit := by
  rw [Domain.isBinary, Bool.and_eq_true, Bool.and_eq_true] at hd
  obtain ⟨⟨hi, hl⟩, hu⟩ := hd
  obtain ⟨z, rfl⟩ := h.integral hi
  have h0 : (0 : Rat) ≤ z := le_finite.1 (exact_le_trans hl h.lower)
  have h1 : (z : Rat) ≤ 1 := le_finite.1 (exact_le_trans h.upper hu)
  have : z = 0 ∨ z = 1 := by
    have : 0 ≤ z := by exact_mod_cast h0
    have : z ≤ 1 := by exact_mod_cast h1
    omega
  rcases this with rfl | rfl
  · exact .inl (by simp)
  · exact .inr (by simp)

/-! ### Rows -/

section Rows

variable {f : LinearForm Exact} {v t k : Rat}

theorem satisfied_equal (h : f.evaluate p = .finite v) :
    (FlatConstraint.linear (.equal f (.finite k))).isSatisfied p (.finite t) = true ↔
      |v - k| ≤ t := by
  rw [FlatConstraint.isSatisfied, LinearRow.equal, h, within_finite, abs_le]
  constructor <;> rintro ⟨_, _⟩ <;> constructor <;> linarith

theorem satisfied_atMost (h : f.evaluate p = .finite v) :
    (FlatConstraint.linear (.atMost f (.finite k))).isSatisfied p (.finite t) = true ↔
      v ≤ k + t := by
  rw [FlatConstraint.isSatisfied, LinearRow.atMost, h, Scalar.within, finite_add, Bool.and_eq_true,
    le_finite]
  exact and_iff_right rfl

theorem satisfied_atLeast (h : f.evaluate p = .finite v) :
    (FlatConstraint.linear (.atLeast f (.finite k))).isSatisfied p (.finite t) = true ↔
      k - t ≤ v := by
  rw [FlatConstraint.isSatisfied, LinearRow.atLeast, h, Scalar.within, finite_sub,
    Bool.and_eq_true, le_finite]
  exact and_iff_left rfl

end Rows

section Integers

variable {f : LinearForm Exact} {z k : Int} {t : Rat}

/-- A tolerance below one is no slack between integers. -/
theorem satisfied_atMost_int (ht : 0 ≤ t) (ht1 : t < 1) (h : f.evaluate p = .finite z) :
    (FlatConstraint.linear (.atMost f (.finite k))).isSatisfied p (.finite t) = true ↔ z ≤ k := by
  rw [satisfied_atMost h]
  constructor
  · intro le
    have : (z : Rat) < (k + 1 : Int) := by
      push_cast
      linarith
    exact Int.lt_add_one_iff.1 (Int.cast_lt.1 this)
  · intro le
    have : (z : Rat) ≤ k := Int.cast_le.2 le
    linarith

theorem satisfied_atLeast_int (ht : 0 ≤ t) (ht1 : t < 1) (h : f.evaluate p = .finite z) :
    (FlatConstraint.linear (.atLeast f (.finite k))).isSatisfied p (.finite t) = true ↔ k ≤ z := by
  rw [satisfied_atLeast h]
  constructor
  · intro le
    have : (k : Rat) < (z + 1 : Int) := by
      push_cast
      linarith
    exact Int.lt_add_one_iff.1 (Int.cast_lt.1 this)
  · intro le
    have : (k : Rat) ≤ z := Int.cast_le.2 le
    linarith

theorem close_int {a b : Int} (ht : 0 ≤ t) (ht1 : t < 1) :
    Scalar.close (.finite t) (.finite a) (Exact.finite b) = true ↔ a = b := by
  rw [close_finite]
  constructor
  · intro le
    have : |((a - b : Int) : Rat)| < (1 : Int) := by
      push_cast
      linarith
    rw [← Int.cast_abs, Int.cast_lt, Int.abs_lt_one_iff] at this
    omega
  · rintro rfl
    rwa [sub_self, abs_zero]

end Integers

/-! ### Indicators -/

namespace Indicator

variable {i : Indicator Exact}

theorem isTriggered_iff (h : (i.trigger.value p).IsBit) :
    i.isTriggered p = true ↔ i.trigger.value p = .finite i.value := by
  rw [isTriggered, h.round, finite_ofInt, exact_beq_finite]

theorem isSatisfied_iff {t k v : Rat} (hb : (i.trigger.value p).IsBit) (hk : i.rhs = .finite k)
    (hv : i.form.evaluate p = .finite v) :
    (FlatConstraint.indicator i).isSatisfied p (.finite t) = true ↔
      (i.trigger.value p = .finite i.value → v ≤ k + t) := by
  rw [FlatConstraint.isSatisfied, hk, hv, finite_add, Bool.or_eq_true, Bool.not_eq_true',
    ← Bool.not_eq_true, isTriggered_iff hb, le_finite, imp_iff_not_or]

end Indicator

/-! ### Soundness at a point -/

/-- What the reformulations read of a definition or an indicator is rational, and an indicator
asks for a bit. -/
def FlatConstraint.Sound (p : Point Exact) : FlatConstraint Exact → Prop
  | .linearDefining r f c => (r.value p).IsRational ∧ TermsRational f.terms ∧
      TermsDefined p f.terms ∧ c.IsRational
  | .indicator i => (i.value = 0 ∨ i.value = 1) ∧ TermsRational i.form.terms ∧
      TermsDefined p i.form.terms
  | _ => True

theorem FlatConstraint.sound_of_covers {c : FlatConstraint Exact} (hc : c.IsRational)
    (hvalue : ∀ i, c = .indicator i → i.value = 0 ∨ i.value = 1) (hp : p.IsRational)
    (hcover : p.Covers c.vars) : c.Sound p := by
  cases c with
  | linearDefining r f k =>
    rw [vars, Point.Covers, List.forall_mem_cons, LinearForm.vars, List.forall_mem_map] at hcover
    exact ⟨hp.value hcover.1, hc.1, fun s hs => hp.value (hcover.2 s hs), hc.2⟩
  | indicator i =>
    rw [vars, Point.Covers, List.forall_mem_cons, LinearForm.vars, List.forall_mem_map] at hcover
    exact ⟨hvalue i rfl, hc.1, fun s hs => hp.value (hcover.2 s hs)⟩
  | _ => trivial

end SolverBridge
