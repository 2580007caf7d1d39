import SolverBridge.Classify
import SolverBridge.Proofs.ReadingLaws

/-! Multiples. A body may be multiplied by a rational number other than zero before it is split or
after, and its residual terms may be multiplied before they are expanded or after: each number that
comes out is the same multiple, and the terms keep their places. That the factor is not zero is
needed because a coefficient of zero is dropped. That the numbers of the body are rational is
needed for its products, where a rational factor of an infinite number may be lost. -/

namespace SolverBridge

variable [Transcendental] {k : Rat}

/-! ### Numbers -/

theorem finite_mul_eq_zero (hk : k ≠ 0) {a : Exact} : .finite k * a = 0 ↔ a = 0 := by
  constructor
  · intro h
    have divided : .finite k⁻¹ * (.finite k * a) = .finite k⁻¹ * 0 := congrArg _ h
    rwa [finite_mul_assoc, inv_mul_cancel₀ hk, finite_mul_zero, ← exact_one, exact_one_mul]
      at divided
  · rintro rfl
    exact finite_mul_zero k

theorem finite_mul_beq_zero (hk : k ≠ 0) (a : Exact) : (.finite k * a == 0) = (a == 0) := by
  rw [Bool.eq_iff_iff, exact_zero, exact_beq_finite, exact_beq_finite, ← exact_zero,
    finite_mul_eq_zero hk]

theorem finite_mul_bne_zero (hk : k ≠ 0) (a : Exact) : (.finite k * a != 0) = (a != 0) :=
  congrArg (!·) (finite_mul_beq_zero hk a)

theorem finite_mul_neg (k : Rat) (a : Exact) : .finite k * -a = -(.finite k * a) := by
  rw [exact_neg_eq, exact_neg_eq, finite_mul_assoc, finite_mul_assoc, mul_comm]

theorem finite_mul_sub (k : Rat) (a b : Exact) :
    .finite k * (a - b) = .finite k * a - .finite k * b := by
  rw [exact_sub, finite_mul_add, finite_mul_neg, ← exact_sub]

/-! ### Forms -/

/-- Each coefficient is multiplied. -/
def timesTerms {β : Type} (k : Rat) (terms : List (Exact × β)) : List (Exact × β) :=
  terms.map fun t => (.finite k * t.1, t.2)

theorem filter_timesTerms {β : Type} (hk : k ≠ 0) (terms : List (Exact × β)) :
    (timesTerms k terms).filter (·.1 != 0) = timesTerms k (terms.filter (·.1 != 0)) := by
  rw [timesTerms, List.filter_map]
  exact congrArg _ (List.filter_congr fun t _ => finite_mul_bne_zero hk t.1)

namespace LinearForm

/-- Each coefficient is multiplied, and the terms keep their places. -/
def times (f : LinearForm Exact) (k : Rat) : LinearForm Exact := ⟨timesTerms k f.terms⟩

theorem mergeTerm_times (k : Rat) (terms : List (Exact × Var)) (c : Exact) (v : Var) :
    mergeTerm (timesTerms k terms) (.finite k * c) v = timesTerms k (mergeTerm terms c v) := by
  induction terms with
  | nil => rfl
  | cons t rest ih =>
    have cons : timesTerms k (t :: rest) = (.finite k * t.1, t.2) :: timesTerms k rest := rfl
    rw [cons, mergeTerm, mergeTerm]
    split
    · rw [← finite_mul_add]
      rfl
    · rw [ih]
      rfl

theorem mergedInto_times (k : Rat) (acc terms : List (Exact × Var)) :
    mergedInto (timesTerms k acc) (timesTerms k terms) = timesTerms k (mergedInto acc terms) := by
  induction terms generalizing acc with
  | nil => rfl
  | cons t rest ih => exact (congrArg (mergedInto · _) (mergeTerm_times k acc t.1 t.2)).trans (ih _)

theorem ofTerms_times (hk : k ≠ 0) (terms : List (Exact × Var)) :
    ofTerms (timesTerms k terms) = (ofTerms terms).times k := by
  have merged : mergedInto [] (timesTerms k terms) = timesTerms k (mergedInto [] terms) :=
    mergedInto_times k [] terms
  have filtered : (mergedInto [] (timesTerms k terms)).filter (·.1 != 0) =
      timesTerms k ((mergedInto [] terms).filter (·.1 != 0)) := by
    rw [merged, filter_timesTerms hk]
  exact congrArg LinearForm.mk filtered

theorem extended_times (hk : k ≠ 0) (f : LinearForm Exact) (more : List (Exact × Var)) :
    (f.times k).extended (timesTerms k more) = (f.extended more).times k := by
  rw [extended, extended, ← ofTerms_times hk, times, timesTerms, timesTerms, timesTerms,
    List.map_append]

end LinearForm

namespace QuadForm

/-- Each coefficient is multiplied, and the terms keep their places. -/
def times (q : QuadForm Exact) (k : Rat) : QuadForm Exact :=
  ⟨q.terms.map fun t => { t with coefficient := .finite k * t.coefficient }⟩

theorem mergeTerm_times (k : Rat) (terms : List (QuadTerm Exact)) (t : QuadTerm Exact) :
    mergeTerm (times ⟨terms⟩ k).terms { t with coefficient := .finite k * t.coefficient } =
      (times ⟨mergeTerm terms t⟩ k).terms := by
  induction terms with
  | nil => rfl
  | cons s rest ih =>
    have cons : (times ⟨s :: rest⟩ k).terms =
        { s with coefficient := .finite k * s.coefficient } :: (times ⟨rest⟩ k).terms := rfl
    rw [cons, mergeTerm, mergeTerm]
    split
    · dsimp only
      rw [← finite_mul_add]
      rfl
    · rw [ih]
      rfl

theorem addTerm_times (q : QuadForm Exact) (k : Rat) (c : Exact) (v w : Var) :
    (q.times k).addTerm (.finite k * c) v w = (q.addTerm c v w).times k := by
  have ordered : orderedTerm (.finite k * c) v w = { orderedTerm c v w with
      coefficient := .finite k * (orderedTerm c v w).coefficient } := by
    rw [orderedTerm, orderedTerm]
    split <;> rfl
  rw [addTerm, ordered]
  exact congrArg QuadForm.mk (mergeTerm_times k q.terms _)

theorem addTerms_times (q : QuadForm Exact) (k : Rat) (terms : List (Exact × Var × Var)) :
    (q.times k).addTerms (timesTerms k terms) = (q.addTerms terms).times k := by
  induction terms generalizing q with
  | nil => rfl
  | cons t rest ih =>
    exact (congrArg (addTerms · _) (addTerm_times q k t.1 t.2.1 t.2.2)).trans (ih _)

theorem canonicalize_times (hk : k ≠ 0) (q : QuadForm Exact) :
    (q.times k).canonicalize = q.canonicalize.times k := by
  refine congrArg QuadForm.mk ?_
  rw [times, List.filter_map]
  exact congrArg _ (List.filter_congr fun t _ => finite_mul_bne_zero hk t.coefficient)

theorem ofTerms_times (hk : k ≠ 0) (terms : List (Exact × Var × Var)) :
    ofTerms (timesTerms k terms) = (ofTerms terms).times k := by
  have added : empty.addTerms (timesTerms k terms) = (empty.addTerms terms).times k :=
    addTerms_times empty k terms
  rw [ofTerms, added, canonicalize_times hk]
  rfl

theorem isEmpty_times (q : QuadForm Exact) (k : Rat) : (q.times k).isEmpty = q.isEmpty :=
  List.isEmpty_map

end QuadForm

/-! ### Splits -/

namespace Piece

/-- Each number is multiplied. -/
def times (k : Rat) : Piece Exact → Piece Exact
  | .term c v => .term (.finite k * c) v
  | .constant c => .constant (.finite k * c)
  | .residual s e => .residual (.finite k * s) e

/-- All numbers of the piece are rational. -/
def IsRational : Piece Exact → Prop
  | .term c _ | .constant c => c.IsRational
  | .residual s e => s.IsRational ∧ e.IsRational

end Piece

namespace Expr

variable {e : Expr Exact}

/-- A factor of the scale is a factor of the piece where reading ends. -/
theorem pieces_times_of_single (hk : k ≠ 0) {f : Exact → Piece Exact}
    (h : ∀ s, (s == 0) = false → e.pieces s = [f s]) {s : Rat}
    (hf : f (.finite (k * s)) = (f (.finite s)).times k) :
    e.pieces (.finite (k * s)) = (e.pieces (.finite s)).map (Piece.times k) := by
  by_cases zero : s = 0
  · rw [zero, mul_zero, pieces_zero]
    rfl
  · have nonzero {q : Rat} (hq : q ≠ 0) : (Exact.finite q == 0) = false :=
      Bool.eq_false_iff.2 (hq ∘ finite_beq_zero.1)
    rw [h _ (nonzero (mul_ne_zero hk zero)), h _ (nonzero zero), hf]
    rfl

theorem pieces_times_of_isIrreducible (hk : k ≠ 0) (h : e.isIrreducible = true) (s : Rat) :
    e.pieces (.finite (k * s)) = (e.pieces (.finite s)).map (Piece.times k) :=
  pieces_times_of_single hk (fun _ => pieces_of_isIrreducible h) rfl

/-- A factor of the scale is a factor of every piece. -/
theorem pieces_times (hk : k ≠ 0) (hr : e.IsRational) (s : Rat) :
    e.pieces (.finite (k * s)) = (e.pieces (.finite s)).map (Piece.times k) := by
  induction e using Expr.induction generalizing s with
  | const c =>
    have single (s : Exact) (h : (s == 0) = false) :
        (Expr.const c).pieces s = [.constant (s * c)] := by simp [pieces, h]
    exact pieces_times_of_single hk single
      (congrArg Piece.constant (finite_mul_assoc k s c).symm)
  | var v =>
    have single (s : Exact) (h : (s == 0) = false) :
        (Expr.var v).pieces s = [.term s v] := by simp [pieces, h]
    exact pieces_times_of_single hk single rfl
  | neg a ih =>
    rw [pieces_neg, pieces_neg, ← mul_neg]
    exact ih (hr.child (.head _)) (-s)
  | sum es ih =>
    rw [pieces_sum, pieces_sum, List.map_flatMap]
    exact List.flatMap_congr fun e he => ih e he (hr.child he) s
  | mul a b iha ihb =>
    cases ha : a.asConstant? with
    | some c =>
      obtain ⟨c, rfl⟩ := (hr.child (.head _)).constant ha
      rw [pieces_mul_left ha, pieces_mul_left ha, mul_assoc]
      exact ihb (hr.child (.tail _ (.head _))) (s * c)
    | none =>
      cases hb : b.asConstant? with
      | some c =>
        obtain ⟨c, rfl⟩ := (hr.child (.tail _ (.head _))).constant hb
        rw [pieces_factor ha hb, pieces_factor ha hb, mul_assoc]
        exact iha (hr.child (.head _)) (s * c)
      | none => exact pieces_times_of_isIrreducible hk (by simp [isIrreducible, ha, hb]) s
  | div a b iha _ =>
    cases hb : b.asConstant? with
    | some c =>
      obtain ⟨c, rfl⟩ := (hr.child (.tail _ (.head _))).constant hb
      by_cases zero : c = 0
      · have undefined : (Exact.finite c != 0) = false :=
          Bool.eq_false_iff.2 fun h => finite_bne_zero.1 h zero
        exact pieces_times_of_isIrreducible hk (by simp [isIrreducible, hb, undefined]) s
      · rw [pieces_div hb zero, pieces_div hb zero, mul_div_assoc]
        exact iha (hr.child (.head _)) (s / c)
    | none => exact pieces_times_of_isIrreducible hk (by simp [isIrreducible, hb]) s
  | _ => exact pieces_times_of_isIrreducible hk rfl s

theorem isRational_pieces {s : Exact} (hs : s.IsRational) (hr : e.IsRational) :
    ∀ a ∈ e.pieces s, a.IsRational := by
  induction s, e using pieces_induction with
  | zero s e => exact List.forall_mem_nil _
  | const s c => exact List.forall_mem_singleton.2 (hs.mul (hr.number rfl))
  | var s v => exact List.forall_mem_singleton.2 hs
  | neg s a _ ih => exact ih hs.neg (hr.child (.head _))
  | sum s es _ ih =>
    intro a ha
    obtain ⟨e, he, ha⟩ := List.mem_flatMap.1 ha
    exact ih e he hs (hr.child he) a ha
  | mulLeft s a b k _ ha ih =>
    exact ih (hs.mul ((hr.child (.head _)).constant ha)) (hr.child (.tail _ (.head _)))
  | mulRight s a b k _ hb ih =>
    exact ih (hs.mul ((hr.child (.tail _ (.head _))).constant hb)) (hr.child (.head _))
  | div s a b k _ hb nonzero ih =>
    obtain ⟨q, rfl⟩ := hs
    obtain ⟨c, rfl⟩ := (hr.child (.tail _ (.head _))).constant hb
    rw [finite_div q (finite_bne_zero.1 nonzero)] at ih ⊢
    exact ih ⟨q / c, rfl⟩ (hr.child (.head _))
  | residual s e => exact List.forall_mem_singleton.2 ⟨hs, hr⟩

end Expr

namespace Split

/-- Each number is multiplied but for those in the residual terms, and all keep their places. -/
def times (s : Split Exact) (k : Rat) : Split Exact :=
  ⟨s.form.times k, .finite k * s.constant, timesTerms k s.residual⟩

/-- All numbers of the split are rational. -/
structure IsRational (s : Split Exact) : Prop where
  terms : TermsRational s.form.terms
  constant : s.constant.IsRational
  residual : ∀ t ∈ s.residual, t.1.IsRational ∧ t.2.IsRational

theorem ofPieces_times (hk : k ≠ 0) (ps : List (Piece Exact)) :
    ofPieces (ps.map (Piece.times k)) = (ofPieces ps).times k := by
  have terms : (ps.map (Piece.times k)).filterMap Piece.term? =
      timesTerms k (ps.filterMap Piece.term?) := by
    rw [timesTerms, List.filterMap_map, List.map_filterMap]
    congr 1
    funext a
    cases a <;> rfl
  have residual : (ps.map (Piece.times k)).filterMap Piece.residual? =
      timesTerms k (ps.filterMap Piece.residual?) := by
    rw [timesTerms, List.filterMap_map, List.map_filterMap]
    congr 1
    funext a
    cases a <;> rfl
  have constants : (ps.map (Piece.times k)).filterMap Piece.constant? =
      (ps.filterMap Piece.constant?).map (.finite k * ·) := by
    rw [List.filterMap_map, List.map_filterMap]
    congr 1
    funext a
    cases a <;> rfl
  rw [ofPieces, terms, residual, constants, LinearForm.ofTerms_times hk]
  exact congrArg (Split.mk _ · _) (finite_mul_sum k _).symm

theorem isRational_ofPieces {ps : List (Piece Exact)} (h : ∀ a ∈ ps, a.IsRational) :
    (ofPieces ps).IsRational := by
  constructor
  · refine LinearForm.termsRational_ofTerms fun t ht => ?_
    obtain ⟨a, ha, e⟩ := List.mem_filterMap.1 ht
    cases a <;> cases e
    exact h _ ha
  · refine isRational_sum fun c hc => ?_
    obtain ⟨a, ha, e⟩ := List.mem_filterMap.1 hc
    cases a <;> cases e
    exact h _ ha
  · intro t ht
    obtain ⟨a, ha, e⟩ := List.mem_filterMap.1 ht
    cases a <;> cases e
    exact h _ ha

theorem isRational_ofBody {b : Body Exact} (hr : b.IsRational) : (ofBody b).IsRational := by
  refine isRational_ofPieces fun a ha => ?_
  rcases List.mem_append.1 ha with ha | ha
  · rw [affinePieces, List.mem_append, List.mem_singleton] at ha
    rcases ha with ha | rfl
    · obtain ⟨t, ht, rfl⟩ := List.mem_map.1 ha
      exact hr.terms t (List.mem_filter.1 ht).1
    · exact hr.constant
  · cases he : b.expr with
    | none =>
      rw [he] at ha
      cases ha
    | some e =>
      rw [he] at ha
      exact Expr.isRational_pieces .one (hr.expr e he) a ha

theorem isRational_ofExpr {e : Expr Exact} (hr : e.IsRational) : (ofExpr e).IsRational :=
  isRational_ofBody ⟨List.forall_mem_nil _, .zero, fun _ h => by cases h; exact hr⟩

end Split

/-! ### Expansions -/

namespace Polynomial

/-- Each term is multiplied. -/
def times (p : Polynomial Exact) (k : Rat) : Polynomial Exact :=
  ⟨timesTerms k p.quad, timesTerms k p.linear, p.constant.map (.finite k * ·)⟩

theorem append_times (p q : Polynomial Exact) (k : Rat) :
    (p ++ q).times k = p.times k ++ q.times k := by
  have parts (p q : Polynomial Exact) : p ++ q =
      ⟨p.quad ++ q.quad, p.linear ++ q.linear, p.constant ++ q.constant⟩ := rfl
  rw [parts, parts, times, times, times, timesTerms, timesTerms, List.map_append, List.map_append,
    List.map_append]
  rfl

theorem quadForm_times (hk : k ≠ 0) (p : Polynomial Exact) :
    (p.times k).quadForm = p.quadForm.times k := QuadForm.ofTerms_times hk p.quad

theorem offset_times (p : Polynomial Exact) (k : Rat) :
    (p.times k).offset = .finite k * p.offset := (finite_mul_sum k p.constant).symm

/-- A factor of the scale is a factor of all products. -/
theorem product_times (k s : Rat) {a b : Split Exact} (ha : a.IsRational) (hb : b.IsRational) :
    product (.finite (k * s)) a b = (product (.finite s) a b).times k := by
  have product {c d : Exact} (hc : c.IsRational) (hd : d.IsRational) :
      .finite (k * s) * c * d = .finite k * (.finite s * c * d) := by
    obtain ⟨c, rfl⟩ := hc
    obtain ⟨d, rfl⟩ := hd
    simp only [finite_mul, mul_assoc]
  have linear {c : Exact} (hc : c.IsRational) {terms : List (Exact × Var)}
      (hr : TermsRational terms) :
      terms.map (fun t => (.finite (k * s) * t.1 * c, t.2)) =
        timesTerms k (terms.map fun t => (.finite s * t.1 * c, t.2)) := by
    rw [timesTerms, List.map_map]
    exact List.map_congr_left fun t ht => congrArg (·, t.2) (product (hr t ht) hc)
  have quad : (a.form.terms.flatMap fun s' => b.form.terms.map fun t =>
      (.finite (k * s) * s'.1 * t.1, s'.2, t.2)) =
        timesTerms k (a.form.terms.flatMap fun s' => b.form.terms.map fun t =>
          (.finite s * s'.1 * t.1, s'.2, t.2)) := by
    rw [timesTerms, List.map_flatMap]
    refine List.flatMap_congr fun s' hs => ?_
    rw [List.map_map]
    exact List.map_congr_left fun t ht =>
      congrArg (·, s'.2, t.2) (product (ha.terms s' hs) (hb.terms t ht))
  rw [Polynomial.product, quad, linear hb.constant ha.terms, linear ha.constant hb.terms,
    product ha.constant hb.constant, timesTerms, timesTerms, timesTerms, ← List.map_append]
  rfl

theorem isRational_of_linearFactor? {e : Expr Exact} {s : Split Exact} (hr : e.IsRational)
    (h : linearFactor? e = some s) : s.IsRational := by
  rw [linearFactor?, Option.ite_none_right_eq_some] at h
  obtain ⟨-, h⟩ := h
  cases h
  exact Split.isRational_ofExpr hr

theorem ofTerms?_times (k s : Rat) {es : List (Expr Exact)}
    (h : ∀ e ∈ es, ofTerm? (.finite (k * s)) e = (ofTerm? (.finite s) e).map (times · k)) :
    ofTerms? (.finite (k * s)) es = (ofTerms? (.finite s) es).map (times · k) := by
  induction es with
  | nil => rfl
  | cons e es ih =>
    rw [List.forall_mem_cons] at h
    rw [ofTerms?, ofTerms?, h.1, ih h.2]
    cases ofTerm? (.finite s) e <;> cases ofTerms? (.finite s) es <;>
      simp [append_times]

/-- Whether a term is expanded does not depend on its scale, and a factor of the scale is a factor
of the expansion. -/
theorem ofTerm?_times (k : Rat) {e : Expr Exact} (hr : e.IsRational) (s : Rat) :
    ofTerm? (.finite (k * s)) e = (ofTerm? (.finite s) e).map (times · k) := by
  induction e using Expr.induction generalizing s with
  | neg a ih =>
    rw [ofTerm?, ofTerm?, finite_neg, finite_neg, ← mul_neg]
    exact ih (hr.child (.head _)) (-s)
  | sum es ih =>
    rw [ofTerm?, ofTerm?]
    exact ofTerms?_times k s fun e he => ih e he (hr.child he) s
  | mul a b =>
    rw [ofTerm?, ofTerm?]
    cases hs : linearFactor? a with
    | none => rfl
    | some u =>
      cases ht : linearFactor? b with
      | none => rfl
      | some v =>
        have hu := isRational_of_linearFactor? (hr.child (.head _)) hs
        have hv := isRational_of_linearFactor? (hr.child (.tail _ (.head _))) ht
        exact congrArg some (product_times k s hu hv)
  | pow a b =>
    rw [ofTerm?, ofTerm?]
    split
    · cases hs : linearFactor? a with
      | none => rfl
      | some u =>
        have hu := isRational_of_linearFactor? (hr.child (.head _)) hs
        exact congrArg some (product_times k s hu hu)
    · rfl
  | _ => rfl

theorem ofResidual?_times (k : Rat) {terms : List (Exact × Expr Exact)}
    (h : ∀ t ∈ terms, t.1.IsRational ∧ t.2.IsRational) :
    ofResidual? (timesTerms k terms) = (ofResidual? terms).map (times · k) := by
  induction terms with
  | nil => rfl
  | cons t rest ih =>
    rw [List.forall_mem_cons] at h
    obtain ⟨s, hs⟩ := h.1.1
    have head := ofTerm?_times k h.1.2 s
    rw [← finite_mul, ← hs] at head
    have cons : timesTerms k (t :: rest) = (.finite k * t.1, t.2) :: timesTerms k rest := rfl
    rw [cons, ofResidual?, ofResidual?, head, ih h.2]
    cases ofTerm? t.1 t.2 <;> cases ofResidual? rest <;> simp [append_times]

end Polynomial

end SolverBridge
