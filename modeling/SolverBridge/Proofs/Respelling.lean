import Mathlib.Logic.Relation
import SolverBridge.Classify
import SolverBridge.Proofs.ReadingLaws

/-! Equivalent spellings of a sum. Where reading goes through an expression it does not matter how
a sum is spelled: nested or flat, with signs or with factors of minus one, with a constant factor
or divisor before the sum or at each item. The list of terms beside an expression may as well
stand in it. All these spellings are split into the same parts in the same order, and then they
are classified alike, since classification looks at the parts, and at the source only to keep it
as it is.

One respelling changes one place, and the places are those that reading reaches. Below a
constant factor, a divisor or a residual term the expression is not read but kept or taken for a
number, so that the same change there may show. -/

namespace SolverBridge

section Respellings

variable [Transcendental]

/-! ### One place -/

namespace Expr

/-- The second spelling differs from the first in one place that reading goes through. -/
inductive Respells : Expr Exact → Expr Exact → Prop
  | flatten (xs es ys : List (Expr Exact)) :
      Respells (.sum (xs ++ .sum es :: ys)) (.sum (xs ++ es ++ ys))
  | doubleNeg (e : Expr Exact) : Respells (.neg (.neg e)) e
  | negFactor (e : Expr Exact) : Respells (.neg e) (.mul (.const (.finite (-1))) e)
  | commute {a b : Expr Exact} {k : Exact} (ha : a.asConstant? = some k) :
      Respells (.mul a b) (.mul b a)
  | distributeLeft {a : Expr Exact} {k : Exact} (ha : a.asConstant? = some k)
      (es : List (Expr Exact)) : Respells (.mul a (.sum es)) (.sum (es.map (.mul a)))
  | distributeRight {b : Expr Exact} {k : Exact} (hb : b.asConstant? = some k)
      (es : List (Expr Exact)) : Respells (.mul (.sum es) b) (.sum (es.map (.mul · b)))
  | distributeDivisor {b : Expr Exact} {k : Exact} (hb : b.asConstant? = some k)
      (nonzero : (k != 0) = true) (es : List (Expr Exact)) :
      Respells (.div (.sum es) b) (.sum (es.map (.div · b)))
  | neg {e e' : Expr Exact} (h : Respells e e') : Respells (.neg e) (.neg e')
  | item (xs ys : List (Expr Exact)) {e e' : Expr Exact} (h : Respells e e') :
      Respells (.sum (xs ++ e :: ys)) (.sum (xs ++ e' :: ys))
  | factorLeft {a b b' : Expr Exact} {k : Exact} (ha : a.asConstant? = some k)
      (h : Respells b b') : Respells (.mul a b) (.mul a b')
  | factorRight {a a' b : Expr Exact} {k : Exact} (hb : b.asConstant? = some k)
      (h : Respells a a') : Respells (.mul a b) (.mul a' b)
  | divisor {a a' b : Expr Exact} {k : Exact} (hb : b.asConstant? = some k)
      (nonzero : (k != 0) = true) (h : Respells a a') : Respells (.div a b) (.div a' b)

/-- Respelled in any number of places, forth and back, with rational numbers throughout. -/
def Respelled : Expr Exact → Expr Exact → Prop :=
  Relation.EqvGen fun e e' => e.IsRational ∧ e'.IsRational ∧ e.Respells e'

/-- Under every rational scale a respelling is read with the same parts. -/
theorem Respells.sameParts {e e' : Expr Exact} (h : e.Respells e') (hr : e.IsRational)
    (hr' : e'.IsRational) (s : Rat) :
    SameParts (e.pieces (.finite s)) (e'.pieces (.finite s)) := by
  -- the induction is on the place; the scale changes on the way down to it
  induction h generalizing s with
  | flatten xs es ys =>
    apply SameParts.of_eq
    simp only [pieces_sum, List.flatMap_append, List.flatMap_cons, List.append_assoc]
  | doubleNeg e =>
    apply SameParts.of_eq
    rw [pieces_neg, pieces_neg, neg_neg]
  | negFactor e =>
    apply SameParts.of_eq
    rw [pieces_neg, pieces_mul_left (k := -1) rfl, mul_neg_one]
  | commute ha =>
    obtain ⟨k, rfl⟩ := (hr.child (.head _)).constant ha
    rw [pieces_mul_left ha]
    exact (pieces_mul_right (hr'.child (.head _)) ha s).symm
  | distributeLeft ha es =>
    obtain ⟨k, rfl⟩ := (hr.child (.head _)).constant ha
    apply SameParts.of_eq
    rw [pieces_mul_left ha, pieces_sum, pieces_sum, List.flatMap_map]
    exact List.flatMap_congr fun e _ => (pieces_mul_left ha s).symm
  | distributeRight hb es =>
    obtain ⟨k, rfl⟩ := (hr.child (.tail _ (.head _))).constant hb
    refine (pieces_mul_right (hr.child (.head _)) hb s).trans ?_
    rw [pieces_sum, pieces_sum, List.flatMap_map]
    exact .flatMap fun e he =>
      (pieces_mul_right ((hr.child (.head _)).child he) hb s).symm
  | distributeDivisor hb nonzero es =>
    obtain ⟨k, rfl⟩ := (hr.child (.tail _ (.head _))).constant hb
    have hk : k ≠ 0 := finite_bne_zero.1 nonzero
    apply SameParts.of_eq
    rw [pieces_div hb hk, pieces_sum, pieces_sum, List.flatMap_map]
    exact List.flatMap_congr fun e _ => (pieces_div hb hk s).symm
  | neg h ih =>
    rw [pieces_neg, pieces_neg]
    exact ih (hr.child (.head _)) (hr'.child (.head _)) (-s)
  | @item xs ys e e' h ih =>
    have he : e ∈ xs ++ e :: ys := List.mem_append_right _ List.mem_cons_self
    have he' : e' ∈ xs ++ e' :: ys := List.mem_append_right _ List.mem_cons_self
    rw [pieces_sum, pieces_sum, List.flatMap_append, List.flatMap_append, List.flatMap_cons,
      List.flatMap_cons]
    exact (SameParts.refl _).append ((ih (hr.child he) (hr'.child he') s).append (.refl _))
  | @factorLeft a b b' k ha h ih =>
    obtain ⟨k, rfl⟩ := (hr.child (.head _)).constant ha
    rw [pieces_mul_left ha, pieces_mul_left ha]
    exact ih (hr.child (.tail _ (.head _))) (hr'.child (.tail _ (.head _))) (s * k)
  | @factorRight a a' b k hb h ih =>
    obtain ⟨k, rfl⟩ := (hr.child (.tail _ (.head _))).constant hb
    have rational := hr.child (.head _)
    have rational' := hr'.child (.head _)
    exact ((pieces_mul_right rational hb s).trans (ih rational rational' (s * k))).trans
      (pieces_mul_right rational' hb s).symm
  | @divisor a a' b k hb nonzero h ih =>
    obtain ⟨k, rfl⟩ := (hr.child (.tail _ (.head _))).constant hb
    have hk : k ≠ 0 := finite_bne_zero.1 nonzero
    rw [pieces_div hb hk, pieces_div hb hk]
    exact ih (hr.child (.head _)) (hr'.child (.head _)) (s / k)

theorem Respelled.sameParts {e e' : Expr Exact} (h : e.Respelled e') (s : Rat) :
    SameParts (e.pieces (.finite s)) (e'.pieces (.finite s)) := by
  induction h with
  | rel e e' h => exact h.2.2.sameParts h.1 h.2.1 s
  | refl e => exact .refl _
  | symm e e' _ ih => exact ih.symm
  | trans e e' e'' _ _ ih ih' => exact ih.trans ih'

end Expr

/-! ### Bodies -/

/-- The terms, the constant and an expression as the items of one sum. -/
def Affine.toSum (a : Affine Exact) (e : Expr Exact) : Expr Exact :=
  .sum (a.terms.map (fun t => .mul (.const t.1) (.var t.2)) ++ [.const a.constant, e])

namespace Split

theorem ofExpr_eq (e : Expr Exact) : ofExpr e = ofPieces (e.pieces 1) :=
  (SameParts.zero_cons (e.pieces 1)).ofPieces_eq

/-- A term of coefficient zero is dropped from the list, and is not read as an item either. -/
theorem pieces_toSum (a : Affine Exact) (e : Expr Exact) :
    (a.toSum e).pieces 1 = affinePieces a ++ e.pieces 1 := by
  have terms (ts : List (Exact × Var)) :
      (ts.map fun t => Expr.mul (.const t.1) (.var t.2)).flatMap (Expr.pieces 1) =
        (ts.filter (·.1 != 0)).map fun t => .term t.1 t.2 := by
    induction ts with
    | nil => rfl
    | cons t ts ih =>
      rw [List.map_cons, List.flatMap_cons, ih, Expr.pieces_const_mul, List.filter_cons]
      split
      · rename_i nonzero
        rw [Expr.pieces_var nonzero]
        rfl
      · rename_i zero
        rw [exact_zero, exact_bne_finite, not_not] at zero
        rw [zero, Expr.pieces_zero]
        rfl
  rw [Affine.toSum, Expr.pieces_sum, List.flatMap_append, terms, affinePieces, List.flatMap_cons,
    List.flatMap_singleton, Expr.pieces_const, List.append_assoc]

theorem ofBody_toSum (a : Affine Exact) (e : Expr Exact) :
    ofBody ⟨a, some e⟩ = ofExpr (a.toSum e) := by
  rw [ofExpr_eq, pieces_toSum]
  rfl

end Split

namespace Body

/-- The list of terms is moved into the expression, or the expression is respelled. -/
inductive Respells : Body Exact → Body Exact → Prop
  | listed (a : Affine Exact) (e : Expr Exact) : Respells ⟨a, some e⟩ (.ofExpr (a.toSum e))
  | expr (a : Affine Exact) {e e' : Expr Exact} (h : e.Respelled e') :
      Respells ⟨a, some e⟩ ⟨a, some e'⟩

def Respelled : Body Exact → Body Exact → Prop := Relation.EqvGen Respells

theorem Respells.split_eq {b b' : Body Exact} (h : b.Respells b') :
    Split.ofBody b = Split.ofBody b' := by
  cases h with
  | listed a e => exact Split.ofBody_toSum a e
  | expr a h => exact ((SameParts.refl (Split.affinePieces a)).append (h.sameParts 1)).ofPieces_eq

theorem Respelled.split_eq {b b' : Body Exact} (h : b.Respelled b') :
    Split.ofBody b = Split.ofBody b' := by
  induction h with
  | rel b b' h => exact h.split_eq
  | refl b => rfl
  | symm b b' _ ih => exact ih.symm
  | trans b b' b'' _ _ ih ih' => exact ih.trans ih'

end Body

end Respellings

/-! ### Classification -/

/-- The same kind and the same payload, but for what is kept as it was given. -/
structure FlatConstraint.Alike {α : Type} (c d : FlatConstraint α) : Prop where
  kind : c.kind = d.kind
  payload : c.kind ≠ .general → c = d

/-- The same kind and the same payload, but for what is kept as it was given. -/
structure FlatObjective.Alike {α : Type} (o o' : FlatObjective α) : Prop where
  kind : o.kind = o'.kind
  payload : o.kind ≠ .general → o = o'

theorem FlatConstraint.Alike.refl {α : Type} (c : FlatConstraint α) : c.Alike c :=
  ⟨rfl, fun _ => rfl⟩

theorem FlatObjective.Alike.refl {α : Type} (o : FlatObjective α) : o.Alike o :=
  ⟨rfl, fun _ => rfl⟩

section Sources

variable {α : Type} [Scalar α]

/-- The source of a row with residual terms shows only where it is kept. -/
theorem alike_quadraticOrGeneral (c d : Constraint α) (f : LinearForm α)
    (residual : List (α × Expr α)) (l u : α) :
    (quadraticOrGeneral c f residual l u).Alike (quadraticOrGeneral d f residual l u) := by
  rw [quadraticOrGeneral, quadraticOrGeneral]
  split
  · exact ⟨rfl, fun h => absurd rfl h⟩
  · exact .refl _

theorem alike_classifyRange (c d : Constraint α) (s : Split α) (l u : α) :
    (classifyRange c s l u).Alike (classifyRange d s l u) := by
  rw [classifyRange, classifyRange]
  split
  · exact .refl _
  · split
    · exact .refl _
    · exact alike_quadraticOrGeneral c d s.form s.residual l u

theorem alike_classifyDefinition (c d : Constraint α) (r : Var) (s : Split α) :
    (classifyDefinition c r s).Alike (classifyDefinition d r s) := by
  rw [classifyDefinition, classifyDefinition]
  split
  · exact .refl _
  · split
    · exact .refl _
    · exact alike_quadraticOrGeneral c d _ s.residual _ _

theorem alike_classifyObjective {o o' : Objective α} (hs : o.sense = o'.sense)
    (h : Split.ofBody o.body = Split.ofBody o'.body) :
    (classifyObjective o).Alike (classifyObjective o') := by
  rw [classifyObjective, classifyObjective, h, hs]
  dsimp only
  split
  · exact .refl _
  · split
    · exact ⟨rfl, fun h => absurd rfl h⟩
    · exact .refl _

end Sources

/-- A list of terms and an expression are split like the sum of them all, and respelling an
expression changes no part of its split. So the kind of an objective, of a range and of a
definition and every payload but a kept source do not depend on the spelling of the body. -/
theorem classify_respelled [Transcendental] :
    (∀ (a : Affine Exact) (e : Expr Exact),
      Split.ofBody ⟨a, some e⟩ = Split.ofExpr (a.toSum e)) ∧
    (∀ e e' : Expr Exact, e.Respelled e' → Split.ofExpr e = Split.ofExpr e') ∧
    ∀ b b' : Body Exact, b.Respelled b' →
      (∀ sense, (classifyObjective ⟨sense, b⟩).Alike (classifyObjective ⟨sense, b'⟩)) ∧
      (∀ l u, (classifyConstraint (.range b l u)).Alike (classifyConstraint (.range b' l u))) ∧
      ∀ r, (classifyConstraint (.defining r b)).Alike (classifyConstraint (.defining r b')) := by
  refine ⟨Split.ofBody_toSum, fun e e' h => ?_, fun b b' h => ⟨fun sense => ?_, fun l u => ?_,
    fun r => ?_⟩⟩
  · rw [Split.ofExpr_eq, Split.ofExpr_eq]
    exact (h.sameParts 1).ofPieces_eq
  · exact alike_classifyObjective rfl h.split_eq
  · rw [classifyConstraint, classifyConstraint, h.split_eq]
    exact alike_classifyRange _ _ _ _ _
  · rw [classifyConstraint, classifyConstraint, h.split_eq]
    exact alike_classifyDefinition _ _ _ _

open Exact.SquareOnly in
/-- A list with a coefficient of zero and a negated sum of a sum that is multiplied by four, moved
into one flat sum: `2 * x + 5 - (4 * (x * y + 1) + y)` is quadratic either way. -/
theorem classify_respelled_distributed :
    let product : Expr Exact := .mul (.var ⟨0⟩) (.var ⟨1⟩)
    let four : Expr Exact := .const (.finite 4)
    let a : Affine Exact := ⟨[(.finite 2, ⟨0⟩), (.finite 0, ⟨1⟩)], .finite 5⟩
    let e : Expr Exact :=
      .neg (.sum [.mul (.sum [product, .const (.finite 1)]) four, .neg (.neg (.var ⟨1⟩))])
    let e' : Expr Exact := .mul (.const (.finite (-1)))
      (.sum [.mul product four, .mul (.const (.finite 1)) four, .var ⟨1⟩])
    e.Respelled e' ∧ Split.ofExpr e = Split.ofExpr e' ∧
      classifyConstraint (.range ⟨a, some e⟩ .negInf (.finite 3)) =
        classifyConstraint (.range (.ofExpr (a.toSum e')) .negInf (.finite 3)) ∧
      (classifyConstraint (.range ⟨a, some e⟩ .negInf (.finite 3))).kind = .quadratic := by
  intro product four a e e'
  have step {e e' : Expr Exact} (h : e.Respells e') (hr : e.IsRational) (hr' : e'.IsRational) :
      e.Respelled e' := .rel _ _ ⟨hr, hr', h⟩
  have respelled : e.Respelled e' := by
    have sign := step (.negFactor (.sum [.mul (.sum [product, .const (.finite 1)]) four,
      .neg (.neg (.var ⟨1⟩))])) (by decide +kernel) (by decide +kernel)
    have distributed := step (.factorLeft (a := .const (.finite (-1))) rfl
      (.item [] [.neg (.neg (.var ⟨1⟩))] (.distributeRight (b := four) rfl
        [product, .const (.finite 1)]))) (by decide +kernel) (by decide +kernel)
    have flat := step (.factorLeft (a := .const (.finite (-1))) rfl
      (.flatten [] [.mul product four, .mul (.const (.finite 1)) four]
        [.neg (.neg (.var ⟨1⟩))])) (by decide +kernel) (by decide +kernel)
    have plain := step (.factorLeft (a := .const (.finite (-1))) rfl
      (.item [.mul product four, .mul (.const (.finite 1)) four] []
        (.doubleNeg (.var ⟨1⟩)))) (by decide +kernel) (by decide +kernel)
    exact ((sign.trans _ _ _ distributed).trans _ _ _ flat).trans _ _ _ plain
  have moved : Body.Respelled ⟨a, some e⟩ (.ofExpr (a.toSum e')) :=
    .trans _ _ _ (.rel _ _ (.expr a respelled)) (.rel _ _ (.listed a e'))
  obtain ⟨-, split, classified⟩ := classify_respelled
  obtain ⟨-, range, -⟩ := classified _ _ moved
  have kind : (classifyConstraint (.range ⟨a, some e⟩ .negInf (.finite 3))).kind = .quadratic := by
    decide +kernel
  have alike := range .negInf (.finite 3)
  exact ⟨respelled, split e e' respelled, alike.payload (by rw [kind]; exact nofun), kind⟩

end SolverBridge
