import Mathlib.Data.List.Basic
import SolverBridge.Classify

/-! Variables by other names. What reading and classification make of an element does not depend on
which positions its variables have, but only on which of them are the same and which comes first
in a product: forms are merged by equality of variables, and only the pairs of a quadratic form
are put in order. So with other names for the variables, given in the same order, the same things
come out under the other names. -/

namespace SolverBridge

/-- Other names for variables, in the same order. -/
structure Renaming where
  name : Var → Var
  order : ∀ v w, (name v).le (name w) = v.le w

namespace Renaming

instance : CoeFun Renaming fun _ => Var → Var := ⟨name⟩

/-- Each variable moves up by the same number of positions. -/
def shift (n : Nat) : Renaming where
  name v := ⟨n + v.index⟩
  order v w := by simp [Var.le]

variable (ρ : Renaming) {v w : Var}

theorem injective (h : ρ v = ρ w) : v = w := by
  have vw := ρ.order v w
  have wv := ρ.order w v
  rw [h] at vw wv
  simp only [Var.le, Nat.le_refl, decide_true, true_eq_decide_iff] at vw wv
  exact congrArg Var.mk (Nat.le_antisymm vw wv)

theorem name_inj : ρ v = ρ w ↔ v = w := ⟨ρ.injective, congrArg ρ⟩

end Renaming

variable {α : Type}

/-! ### Data -/

/-- The terms with other names for their variables. -/
def renamedTerms (ρ : Renaming) (terms : List (α × Var)) : List (α × Var) :=
  terms.map fun t => (t.1, ρ t.2)

def renamedProducts (ρ : Renaming) (terms : List (α × Var × Var)) : List (α × Var × Var) :=
  terms.map fun t => (t.1, ρ t.2.1, ρ t.2.2)

namespace Expr

mutual

/-- The expression with other names for its variables. -/
def renamed (ρ : Renaming) (e : Expr α) : Expr α :=
  match e with
  | .const c => .const c
  | .var v => .var (ρ v)
  | .neg e => .neg (renamed ρ e)
  | .sum es => .sum (renamedEach ρ es)
  | .mul a b => .mul (renamed ρ a) (renamed ρ b)
  | .div a b => .div (renamed ρ a) (renamed ρ b)
  | .pow a b => .pow (renamed ρ a) (renamed ρ b)
  | .unary f e => .unary f (renamed ρ e)
  | .logBase c e => .logBase c (renamed ρ e)
  | .max es => .max (renamedEach ρ es)
  | .min es => .min (renamedEach ρ es)
  | .and es => .and (renamedEach ρ es)
  | .or es => .or (renamedEach ρ es)
  | .not e => .not (renamed ρ e)
  | .compare r a b => .compare r (renamed ρ a) (renamed ρ b)
  | .implies a b => .implies (renamed ρ a) (renamed ρ b)
  | .call f es => .call f (renamedEach ρ es)
termination_by structural e

def renamedEach (ρ : Renaming) (es : List (Expr α)) : List (Expr α) :=
  match es with
  | [] => []
  | e :: rest => renamed ρ e :: renamedEach ρ rest
termination_by structural es

end

theorem renamedEach_eq_map (ρ : Renaming) (es : List (Expr α)) :
    renamedEach ρ es = es.map (renamed ρ) := by
  induction es with
  | nil => rfl
  | cons e es ih => simp [renamedEach, ih]

end Expr

def Affine.renamed (ρ : Renaming) (a : Affine α) : Affine α := ⟨renamedTerms ρ a.terms, a.constant⟩

def Body.renamed (ρ : Renaming) (b : Body α) : Body α :=
  ⟨b.affine.renamed ρ, b.expr.map (Expr.renamed ρ)⟩

def Objective.renamed (ρ : Renaming) (o : Objective α) : Objective α := ⟨o.sense, o.body.renamed ρ⟩

def Constraint.renamed (ρ : Renaming) : Constraint α → Constraint α
  | .range b l u => .range (b.renamed ρ) l u
  | .defining r b => .defining (ρ r) (b.renamed ρ)
  | .logical e => .logical (e.renamed ρ)

def LinearForm.renamed (ρ : Renaming) (f : LinearForm α) : LinearForm α := ⟨renamedTerms ρ f.terms⟩

def QuadTerm.renamed (ρ : Renaming) (t : QuadTerm α) : QuadTerm α :=
  ⟨t.coefficient, ρ t.first, ρ t.second⟩

def QuadForm.renamed (ρ : Renaming) (q : QuadForm α) : QuadForm α :=
  ⟨q.terms.map (QuadTerm.renamed ρ)⟩

def Piece.renamed (ρ : Renaming) : Piece α → Piece α
  | .term c v => .term c (ρ v)
  | .constant c => .constant c
  | .residual s e => .residual s (e.renamed ρ)

def renamedResidual (ρ : Renaming) (ts : List (α × Expr α)) : List (α × Expr α) :=
  ts.map fun t => (t.1, t.2.renamed ρ)

def Split.renamed (ρ : Renaming) (s : Split α) : Split α :=
  ⟨s.form.renamed ρ, s.constant, renamedResidual ρ s.residual⟩

def Polynomial.renamed (ρ : Renaming) (q : Polynomial α) : Polynomial α :=
  ⟨renamedProducts ρ q.quad, renamedTerms ρ q.linear, q.constant⟩

def LinearRow.renamed (ρ : Renaming) (r : LinearRow α) : LinearRow α :=
  ⟨r.form.renamed ρ, r.lower, r.upper⟩

def FuncGraph.renamed (ρ : Renaming) (g : FuncGraph α) : FuncGraph α :=
  ⟨ρ g.result, g.args.map ρ, g.params⟩

def Indicator.renamed (ρ : Renaming) (i : Indicator α) : Indicator α :=
  ⟨ρ i.trigger, i.value, i.form.renamed ρ, i.rhs⟩

def FlatConstraint.renamed (ρ : Renaming) : FlatConstraint α → FlatConstraint α
  | .linear r => .linear (r.renamed ρ)
  | .quadratic r q => .quadratic (r.renamed ρ) (q.renamed ρ)
  | .linearDefining r f k => .linearDefining (ρ r) (f.renamed ρ) k
  | .function f g => .function f (g.renamed ρ)
  | .indicator i => .indicator (i.renamed ρ)
  | .general c => .general (c.renamed ρ)

def LinearObjective.renamed (ρ : Renaming) (o : LinearObjective α) : LinearObjective α :=
  ⟨o.sense, o.form.renamed ρ, o.constant⟩

def FlatObjective.renamed (ρ : Renaming) : FlatObjective α → FlatObjective α
  | .linear o => .linear (o.renamed ρ)
  | .quadratic o q => .quadratic (o.renamed ρ) (q.renamed ρ)
  | .general o => .general (o.renamed ρ)

@[simp] theorem FlatConstraint.kind_renamed (ρ : Renaming) (c : FlatConstraint α) :
    (c.renamed ρ).kind = c.kind := by
  cases c <;> rfl

@[simp] theorem FlatObjective.kind_renamed (ρ : Renaming) (o : FlatObjective α) :
    (o.renamed ρ).kind = o.kind := by
  cases o <;> rfl

/-! ### Forms -/

variable (ρ : Renaming)

theorem renamedTerms_append (ts us : List (α × Var)) :
    renamedTerms ρ (ts ++ us) = renamedTerms ρ ts ++ renamedTerms ρ us := List.map_append

namespace QuadForm

theorem orderedTerm_renamed (c : α) (v w : Var) :
    orderedTerm c (ρ v) (ρ w) = (orderedTerm c v w).renamed ρ := by
  rw [orderedTerm, orderedTerm, ρ.order]
  split <;> rfl

theorem isEmpty_renamed (q : QuadForm α) : (q.renamed ρ).isEmpty = q.isEmpty := List.isEmpty_map

end QuadForm

section Forms

variable [Scalar α]

theorem mergeTerm_renamed (terms : List (α × Var)) (c : α) (v : Var) :
    mergeTerm (renamedTerms ρ terms) c (ρ v) = renamedTerms ρ (mergeTerm terms c v) := by
  induction terms with
  | nil => rfl
  | cons t rest ih =>
    simp only [renamedTerms, List.map_cons, mergeTerm, ρ.name_inj] at ih ⊢
    split
    · rfl
    · rw [ih, List.map_cons]

theorem merged_renamed (acc terms : List (α × Var)) :
    (renamedTerms ρ terms).foldl (fun acc t => mergeTerm acc t.1 t.2) (renamedTerms ρ acc) =
      renamedTerms ρ (terms.foldl (fun acc t => mergeTerm acc t.1 t.2) acc) := by
  induction terms generalizing acc with
  | nil => rfl
  | cons t rest ih =>
    simp only [renamedTerms, List.map_cons, List.foldl_cons] at ih ⊢
    rw [← ih, ← renamedTerms, mergeTerm_renamed]
    rfl

namespace LinearForm

theorem ofTerms_renamed (terms : List (α × Var)) :
    ofTerms (renamedTerms ρ terms) = (ofTerms terms).renamed ρ := by
  have merged := merged_renamed ρ [] terms
  simp only [ofTerms, renamed, renamedTerms, List.map_nil] at merged ⊢
  rw [merged, List.filter_map]
  rfl

theorem extended_renamed (f : LinearForm α) (more : List (α × Var)) :
    (f.renamed ρ).extended (renamedTerms ρ more) = (f.extended more).renamed ρ := by
  rw [extended, extended, ← ofTerms_renamed, renamedTerms_append]
  rfl

theorem negatedTerms_renamed (f : LinearForm α) :
    (f.renamed ρ).negatedTerms = renamedTerms ρ f.negatedTerms := by
  simp [negatedTerms, renamed, renamedTerms]

theorem scaled_renamed (f : LinearForm α) (k : α) :
    (f.renamed ρ).scaled k = (f.scaled k).renamed ρ := by
  rw [scaled, scaled, ← ofTerms_renamed]
  simp [renamed, renamedTerms, Function.comp_def]

end LinearForm

namespace QuadForm

theorem mergeTerm_renamed (terms : List (QuadTerm α)) (t : QuadTerm α) :
    mergeTerm (terms.map (QuadTerm.renamed ρ)) (t.renamed ρ) =
      (mergeTerm terms t).map (QuadTerm.renamed ρ) := by
  induction terms with
  | nil => rfl
  | cons s rest ih =>
    simp only [List.map_cons, mergeTerm, QuadTerm.renamed, ρ.name_inj] at ih ⊢
    split
    · rfl
    · rw [ih]
      rfl

theorem addTerms_renamed (q : QuadForm α) (terms : List (α × Var × Var)) :
    (q.renamed ρ).addTerms (renamedProducts ρ terms) = (q.addTerms terms).renamed ρ := by
  induction terms generalizing q with
  | nil => rfl
  | cons t rest ih =>
    have step : (q.renamed ρ).addTerm t.1 (ρ t.2.1) (ρ t.2.2) =
        (q.addTerm t.1 t.2.1 t.2.2).renamed ρ := by
      simp only [addTerm, orderedTerm_renamed, renamed, mergeTerm_renamed]
    simp only [addTerms, renamedProducts, List.map_cons, List.foldl_cons] at ih ⊢
    rw [step, ih]

theorem ofTerms_renamed (terms : List (α × Var × Var)) :
    ofTerms (renamedProducts ρ terms) = (ofTerms terms).renamed ρ := by
  have added : empty.addTerms (renamedProducts ρ terms) = (empty.addTerms terms).renamed ρ :=
    addTerms_renamed ρ empty terms
  rw [ofTerms, ofTerms, added, canonicalize, canonicalize, renamed, renamed, List.filter_map]
  rfl

end QuadForm

end Forms

/-! ### Reading -/

namespace Expr

theorem asVar?_renamed (e : Expr α) : (e.renamed ρ).asVar? = e.asVar?.map ρ := by
  cases e <;> rfl

section

variable [Neg α]

theorem asConstant?_renamed (e : Expr α) : (e.renamed ρ).asConstant? = e.asConstant? := by
  induction e using Expr.induction with
  | neg e ih => simp only [renamed, asConstant?, ih]
  | _ => rfl

end

variable [Scalar α]

/-- The same pieces are read, with the other names in them. -/
theorem pieces_renamed (e : Expr α) (s : α) :
    (e.renamed ρ).pieces s = (e.pieces s).map (Piece.renamed ρ) := by
  induction e using Expr.induction generalizing s with
  | const | var =>
    simp only [renamed, pieces]
    split <;> rfl
  | neg e ih =>
    simp only [renamed, pieces, ih]
    split <;> rfl
  | sum es ih =>
    simp only [renamed, pieces, piecesEach_eq_flatMap, renamedEach_eq_map, List.flatMap_map]
    split
    · rfl
    · rw [List.map_flatMap]
      exact List.flatMap_congr fun e he => ih e he s
  | mul a b iha ihb =>
    simp only [renamed, pieces, asConstant?_renamed, iha, ihb]
    split
    · rfl
    · split <;> rfl
  | div a b iha =>
    simp only [renamed, pieces, asConstant?_renamed, iha]
    split
    · rfl
    · split
      · split <;> rfl
      · rfl
  | _ =>
    simp only [renamed, pieces]
    split <;> rfl

end Expr

namespace Split

theorem isLinear_renamed (s : Split α) : (s.renamed ρ).isLinear = s.isLinear := List.isEmpty_map

variable [Scalar α]

theorem ofPieces_renamed (ps : List (Piece α)) :
    ofPieces (ps.map (Piece.renamed ρ)) = (ofPieces ps).renamed ρ := by
  have terms : (ps.map (Piece.renamed ρ)).filterMap Piece.term? =
      renamedTerms ρ (ps.filterMap Piece.term?) := by
    rw [List.filterMap_map, renamedTerms, List.map_filterMap]
    congr 1
    funext q
    cases q <;> rfl
  have constants : (ps.map (Piece.renamed ρ)).filterMap Piece.constant? =
      ps.filterMap Piece.constant? := by
    rw [List.filterMap_map]
    congr 1
    funext q
    cases q <;> rfl
  have residual : (ps.map (Piece.renamed ρ)).filterMap Piece.residual? =
      renamedResidual ρ (ps.filterMap Piece.residual?) := by
    rw [List.filterMap_map, renamedResidual, List.map_filterMap]
    congr 1
    funext q
    cases q <;> rfl
  rw [ofPieces, ofPieces, terms, constants, residual, LinearForm.ofTerms_renamed]
  rfl

theorem ofBody_renamed (b : Body α) : ofBody (b.renamed ρ) = (ofBody b).renamed ρ := by
  have affine : affinePieces (b.affine.renamed ρ) =
      (affinePieces b.affine).map (Piece.renamed ρ) := by
    simp only [affinePieces, Affine.renamed, renamedTerms, List.filter_map, List.map_append,
      List.map_map]
    rfl
  rw [ofBody, ofBody, ← ofPieces_renamed, List.map_append, ← affine]
  congr 2
  obtain ⟨a, _ | e⟩ := b
  · rfl
  · exact Expr.pieces_renamed ρ e 1

theorem ofExpr_renamed (e : Expr α) : ofExpr (e.renamed ρ) = (ofExpr e).renamed ρ :=
  ofBody_renamed ρ (.ofExpr e)

end Split

variable [Scalar α]

/-! ### Products -/

namespace Polynomial

omit [Scalar α] in
theorem append_renamed (p q : Polynomial α) :
    p.renamed ρ ++ q.renamed ρ = (p ++ q).renamed ρ := by
  show append _ _ = renamed ρ (append _ _)
  simp only [append, renamed, renamedProducts, renamedTerms, List.map_append]

theorem product_renamed (scale : α) (s t : Split α) :
    product scale (s.renamed ρ) (t.renamed ρ) = (product scale s t).renamed ρ := by
  simp only [product, renamed, Split.renamed, LinearForm.renamed, renamedTerms, renamedProducts,
    List.flatMap_map, List.map_flatMap, List.map_append, List.map_map, Function.comp_def]

theorem linearFactor?_renamed (e : Expr α) :
    linearFactor? (e.renamed ρ) = (linearFactor? e).map (Split.renamed ρ) := by
  rw [linearFactor?, linearFactor?, Split.ofExpr_renamed, Split.isLinear_renamed]
  split <;> rfl

theorem ofTerm?_renamed (e : Expr α) (s : α) :
    ofTerm? s (e.renamed ρ) = (ofTerm? s e).map (renamed ρ) := by
  induction e using Expr.induction generalizing s with
  | neg e ih => exact ih (-s)
  | sum es ih =>
    simp only [Expr.renamed, ofTerm?]
    induction es with
    | nil => rfl
    | cons e rest ih' =>
      rw [List.forall_mem_cons] at ih
      simp only [Expr.renamedEach, ofTerms?, ih.1, ih' ih.2]
      cases ofTerm? s e <;> cases ofTerms? s rest <;> try rfl
      simp only [Option.map_some, append_renamed]
  | mul a b =>
    simp only [Expr.renamed, ofTerm?, linearFactor?_renamed]
    cases linearFactor? a <;> cases linearFactor? b <;> try rfl
    simp only [Option.map_some, product_renamed]
  | pow a b =>
    simp only [Expr.renamed, ofTerm?, linearFactor?_renamed, Expr.asConstant?_renamed]
    split
    · cases linearFactor? a <;> try rfl
      simp only [Option.map_some, product_renamed]
    · rfl
  | _ => rfl

theorem ofResidual?_renamed (ts : List (α × Expr α)) :
    ofResidual? (renamedResidual ρ ts) = (ofResidual? ts).map (renamed ρ) := by
  induction ts with
  | nil => rfl
  | cons t rest ih =>
    simp only [renamedResidual, List.map_cons, ofResidual?, ofTerm?_renamed] at ih ⊢
    rw [ih]
    cases ofTerm? t.1 t.2 <;> cases ofResidual? rest <;> try rfl
    simp only [Option.map_some, append_renamed]

theorem quadForm_renamed (p : Polynomial α) : (p.renamed ρ).quadForm = p.quadForm.renamed ρ :=
  QuadForm.ofTerms_renamed ρ p.quad

end Polynomial

/-! ### Known functions and indicators -/

omit [Scalar α] in
theorem variables?_renamed (es : List (Expr α)) :
    variables? (es.map (Expr.renamed ρ)) = (variables? es).map (List.map ρ) := by
  have items : (es.map (Expr.renamed ρ)).mapM Expr.asVar? =
      (es.mapM Expr.asVar?).map (List.map ρ) := by
    induction es with
    | nil => rfl
    | cons e rest ih =>
      simp only [List.map_cons, List.mapM_cons, ih, Expr.asVar?_renamed]
      cases e.asVar? <;> cases rest.mapM Expr.asVar? <;> rfl
  rw [variables?, variables?, List.isEmpty_map, items]
  split <;> rfl

theorem ofExpr?_renamed (e : Expr α) : Func.ofExpr? (e.renamed ρ) =
    (Func.ofExpr? e).map fun f => (f.1, f.2.1.map ρ, f.2.2) := by
  cases e with
  | max es | min es | and es | or es =>
    simp only [Expr.renamed, Func.ofExpr?, Expr.renamedEach_eq_map, variables?_renamed,
      Option.map_map]
    rfl
  | unary f e | logBase c e =>
    simp only [Expr.renamed, Func.ofExpr?, Expr.asVar?_renamed, Option.map_map]
    rfl
  | pow a b =>
    simp only [Expr.renamed, Func.ofExpr?, Expr.asVar?_renamed, Expr.asConstant?_renamed]
    cases a.asVar? <;> cases b.asConstant? <;> cases a.asConstant? <;> cases b.asVar? <;> rfl
  | _ => rfl

theorem functionOf?_renamed (r : Var) (e : Expr α) :
    functionOf? (ρ r) (e.renamed ρ) = (functionOf? r e).map (FlatConstraint.renamed ρ) := by
  simp only [functionOf?, ofExpr?_renamed, Option.map_map]
  rfl

theorem functionOfRange?_renamed (s : Split α) (l u : α) :
    functionOfRange? (s.renamed ρ) l u =
      (functionOfRange? s l u).map (FlatConstraint.renamed ρ) := by
  obtain ⟨⟨terms⟩, k, residual⟩ := s
  match terms, residual with
  | [(c, r)], [(scale, e)] =>
    simp only [functionOfRange?, Split.renamed, LinearForm.renamed, renamedTerms, renamedResidual,
      List.map_cons, List.map_nil, functionOf?_renamed]
    split <;> rfl
  | [], _ | _ :: _ :: _, _ | [_], [] | [_], _ :: _ :: _ => rfl

theorem functionOfDefinition?_renamed (r : Var) (s : Split α) :
    functionOfDefinition? (ρ r) (s.renamed ρ) =
      (functionOfDefinition? r s).map (FlatConstraint.renamed ρ) := by
  obtain ⟨⟨terms⟩, k, residual⟩ := s
  match terms, residual with
  | [], [(scale, e)] =>
    simp only [functionOfDefinition?, Split.renamed, LinearForm.renamed, renamedTerms,
      renamedResidual, List.map_cons, List.map_nil, functionOf?_renamed]
    split <;> rfl
  | _ :: _, _ | [], [] | [], _ :: _ :: _ => rfl

theorem trigger?_renamed (e : Expr α) :
    trigger? (e.renamed ρ) = (trigger? e).map fun t => (ρ t.1, t.2) := by
  cases e with
  | not e =>
    simp only [Expr.renamed, trigger?, Expr.asVar?_renamed, Option.map_map]
    rfl
  | compare r a b =>
    cases r with
    | eq =>
      -- what is compared is a variable and a constant, on either side
      have compared (v : Var) (k : α) :
          (if k == 0 then some (ρ v, (0 : Int)) else if k == 1 then some (ρ v, 1) else none) =
            (if k == 0 then some (v, (0 : Int)) else if k == 1 then some (v, 1) else none).map
              fun t => (ρ t.1, t.2) := by
        split
        · rfl
        · split <;> rfl
      simp only [Expr.renamed, trigger?, Expr.asVar?_renamed, Expr.asConstant?_renamed]
      cases a.asVar? with
      | some v => cases b.asConstant? <;> first | rfl | exact compared _ _
      | none =>
        cases b.asVar? with
        | some v => cases a.asConstant? <;> first | rfl | exact compared _ _
        | none => rfl
    | _ => rfl
  | _ => rfl

theorem inequality?_renamed (r : Relation) (a b : Split α) :
    inequality? r (a.renamed ρ) (b.renamed ρ) =
      (inequality? r a b).map fun t => (t.1.renamed ρ, t.2) := by
  cases r <;>
    simp only [inequality?, Split.renamed, LinearForm.negatedTerms_renamed,
      LinearForm.extended_renamed, LinearForm.scaled_renamed] <;> rfl

theorem Indicator.ofExpr?_renamed (e : Expr α) :
    Indicator.ofExpr? (e.renamed ρ) = (Indicator.ofExpr? e).map (Indicator.renamed ρ) := by
  cases e with
  | implies condition consequence =>
    cases consequence with
    | compare r a b =>
      simp only [Expr.renamed, Indicator.ofExpr?, trigger?_renamed, Split.ofExpr_renamed,
        Split.isLinear_renamed, inequality?_renamed]
      cases trigger? condition with
      | none => rfl
      | some t =>
        dsimp only [Option.map_some]
        split
        · rw [Option.map_map, Option.map_map]
          rfl
        · rfl
    | _ => rfl
  | _ => rfl

/-! ### Elements -/

theorem classifyObjective_renamed (o : Objective α) :
    classifyObjective (o.renamed ρ) = (classifyObjective o).renamed ρ := by
  simp only [classifyObjective, Objective.renamed, Split.ofBody_renamed, Split.isLinear_renamed]
  split
  · rfl
  · have expanded := Polynomial.ofResidual?_renamed ρ (Split.ofBody o.body).residual
    simp only [Split.renamed, expanded]
    cases Polynomial.ofResidual? (Split.ofBody o.body).residual with
    | none => rfl
    | some q =>
      simp only [Option.map_some, Polynomial.quadForm_renamed, QuadForm.isEmpty_renamed]
      have linear := LinearForm.extended_renamed ρ (Split.ofBody o.body).form q.linear
      split <;>
        simp only [FlatObjective.renamed, LinearObjective.renamed, Polynomial.renamed, linear] <;>
        rfl

theorem quadraticOrGeneral_renamed (source : Constraint α) (f : LinearForm α)
    (residual : List (α × Expr α)) (l u : α) :
    quadraticOrGeneral (source.renamed ρ) (f.renamed ρ) (renamedResidual ρ residual) l u =
      (quadraticOrGeneral source f residual l u).renamed ρ := by
  simp only [quadraticOrGeneral, Polynomial.ofResidual?_renamed]
  cases Polynomial.ofResidual? residual with
  | none => rfl
  | some q =>
    simp only [Option.map_some, Polynomial.quadForm_renamed, QuadForm.isEmpty_renamed]
    have linear := LinearForm.extended_renamed ρ f q.linear
    split <;>
      simp only [FlatConstraint.renamed, LinearRow.renamed, Polynomial.renamed, linear] <;> rfl

theorem classifyRange_renamed (source : Constraint α) (s : Split α) (l u : α) :
    classifyRange (source.renamed ρ) (s.renamed ρ) l u =
      (classifyRange source s l u).renamed ρ := by
  rw [classifyRange, classifyRange, Split.isLinear_renamed, functionOfRange?_renamed]
  split
  · rfl
  · cases functionOfRange? s l u with
    | some c => rfl
    | none => exact quadraticOrGeneral_renamed ρ source s.form s.residual l u

theorem classifyDefinition_renamed (source : Constraint α) (r : Var) (s : Split α) :
    classifyDefinition (source.renamed ρ) (ρ r) (s.renamed ρ) =
      (classifyDefinition source r s).renamed ρ := by
  rw [classifyDefinition, classifyDefinition, Split.isLinear_renamed,
    functionOfDefinition?_renamed]
  split
  · rfl
  · cases functionOfDefinition? r s with
    | some c => rfl
    | none =>
      have moved := LinearForm.extended_renamed ρ s.form [(-1, r)]
      rw [Option.map_none]
      dsimp only
      rw [← quadraticOrGeneral_renamed, ← moved]
      rfl

/-- A constraint under other names is classified as before, under these names. -/
theorem classifyConstraint_renamed (c : Constraint α) :
    classifyConstraint (c.renamed ρ) = (classifyConstraint c).renamed ρ := by
  cases c with
  | range b l u =>
    simp only [classifyConstraint, Constraint.renamed, Split.ofBody_renamed]
    exact classifyRange_renamed ρ (.range b l u) (Split.ofBody b) _ _
  | defining r b =>
    simp only [classifyConstraint, Constraint.renamed, Split.ofBody_renamed]
    exact classifyDefinition_renamed ρ (.defining r b) r (Split.ofBody b)
  | logical e =>
    simp only [classifyConstraint, Constraint.renamed, Indicator.ofExpr?_renamed]
    cases Indicator.ofExpr? e <;> rfl

end SolverBridge
