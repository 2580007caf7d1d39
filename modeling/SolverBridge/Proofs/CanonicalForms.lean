import SolverBridge.Proofs.Columns
import SolverBridge.Proofs.TableResolution

/-! Canonical forms all along the way. Splitting, classification, reformulation and resolution never
edit a form: each linear form that they hand on was collected from terms, and each quadratic form
from products, in columns that stay in step. So the columns of a form are of one length, no
variable or pair of variables comes twice, pairs are in order, and no coefficient is zero. Only
an element that is kept as it was given is not looked at. -/

namespace SolverBridge

variable {α : Type} [Scalar α]

/-! ### Forms in their columns -/

/-- Two columns of one length hold the form: no variable comes twice, and no coefficient is zero. -/
structure LinearForm.HeldBy (f : LinearForm α) (columns : List α × List Var) : Prop where
  terms_eq : f.terms = columns.1.zip columns.2
  length_eq : columns.1.length = columns.2.length
  nodup : columns.2.Nodup
  ne_zero : ∀ c ∈ columns.1, (c != 0) = true

/-- The form is held by the columns in which some terms were collected. -/
def LinearForm.IsCollected (f : LinearForm α) : Prop := ∃ ts, f.HeldBy (Columns.collect ts)

theorem LinearForm.heldBy_collect (ts : List (α × Var)) :
    (ofTerms ts).HeldBy (Columns.collect ts) := by
  obtain ⟨nodup, ne_zero⟩ := canonical_ofTerms ts
  rw [Columns.collect_eq]
  refine ⟨(List.zip_unzip _).symm, ?_, ?_, ?_⟩
  · rw [List.unzip_eq_map, List.length_map, List.length_map]
  · rwa [List.unzip_eq_map]
  · rw [List.unzip_eq_map]
    exact List.forall_mem_map.2 ne_zero

theorem LinearForm.isCollected_ofTerms (ts : List (α × Var)) : (ofTerms ts).IsCollected :=
  ⟨ts, heldBy_collect ts⟩

/-- Three columns of one length hold the form: pairs are in order, no pair comes twice, and no
coefficient is zero. -/
structure QuadForm.HeldBy (q : QuadForm α) (columns : QuadColumns α) : Prop where
  terms_eq : q.terms = columns.terms
  firsts_length : columns.firsts.length = columns.coefficients.length
  seconds_length : columns.seconds.length = columns.coefficients.length
  ordered : ∀ pair ∈ columns.pairs, pair.1.index ≤ pair.2.index
  nodup : columns.pairs.Nodup
  ne_zero : ∀ c ∈ columns.coefficients, (c != 0) = true

/-- The form is held by the columns in which some products were collected. -/
def QuadForm.IsCollected (q : QuadForm α) : Prop := ∃ ts, q.HeldBy (QuadColumns.collect ts)

theorem QuadForm.isCollected_ofTerms (ts : List (α × Var × Var)) : (ofTerms ts).IsCollected := by
  obtain ⟨step, terms⟩ := QuadColumns.terms_collect ts
  obtain ⟨⟨ordered, nodup⟩, ne_zero⟩ := canonical_ofTerms ts
  rw [← terms] at ordered nodup ne_zero
  refine ⟨ts, terms.symm, step.firsts, step.seconds, ?_, step.map_terms ▸ nodup, ?_⟩
  · rw [← step.map_terms]
    exact List.forall_mem_map.2 ordered
  · rw [← step.map_coefficients]
    exact List.forall_mem_map.2 ne_zero

/-! ### Elements -/

namespace FlatObjective

/-- The linear forms of an objective that is not kept as it was given. -/
def forms : FlatObjective α → List (LinearForm α)
  | .linear o | .quadratic o _ => [o.form]
  | .general _ => []

def quads : FlatObjective α → List (QuadForm α)
  | .quadratic _ q => [q]
  | .linear _ | .general _ => []

end FlatObjective

namespace FlatConstraint

/-- The linear forms of a constraint that is not kept as it was given. -/
def forms : FlatConstraint α → List (LinearForm α)
  | .linear r | .quadratic r _ => [r.form]
  | .linearDefining _ f _ => [f]
  | .indicator i => [i.form]
  | .function _ _ | .general _ => []

def quads : FlatConstraint α → List (QuadForm α)
  | .quadratic _ q => [q]
  | _ => []

end FlatConstraint

/-- The forms of an element of a kind were all collected, and a quadratic one has products. -/
structure CanonicalElement (k : Kind) (fs : List (LinearForm α)) (qs : List (QuadForm α)) :
    Prop where
  forms : ∀ f ∈ fs, f.IsCollected
  quads : ∀ q ∈ qs, q.IsCollected
  quadratic : k = .quadratic → ∃ q ∈ qs, q.terms ≠ []

def FlatObjective.IsCanonical (o : FlatObjective α) : Prop :=
  CanonicalElement o.kind o.forms o.quads

def FlatConstraint.IsCanonical (c : FlatConstraint α) : Prop :=
  CanonicalElement c.kind c.forms c.quads

namespace CanonicalElement

/-- A kind without forms. -/
theorem of_nil (k : Kind) (hk : k ≠ .quadratic) : CanonicalElement (α := α) k [] [] :=
  ⟨List.forall_mem_nil _, List.forall_mem_nil _, fun quadratic => absurd quadratic hk⟩

/-- Where nothing is quadratic, one collected form is enough. -/
theorem of_form (k : Kind) {f : LinearForm α} (hk : k ≠ .quadratic) (h : f.IsCollected) :
    CanonicalElement k [f] [] :=
  ⟨List.forall_mem_singleton.2 h, List.forall_mem_nil _, fun quadratic => absurd quadratic hk⟩

/-- Products that do not cancel make a quadratic element. -/
theorem of_polynomial (f : LinearForm α) (p : Polynomial α) (h : ¬ p.quadForm.isEmpty = true) :
    CanonicalElement .quadratic [f.extended p.linear] [p.quadForm] := by
  refine ⟨List.forall_mem_singleton.2 (LinearForm.isCollected_ofTerms _),
    List.forall_mem_singleton.2 (QuadForm.isCollected_ofTerms _), fun _ => ?_⟩
  exact ⟨p.quadForm, List.mem_singleton_self _, fun nothing => h (List.isEmpty_iff.2 nothing)⟩

end CanonicalElement

theorem Split.isCollected_form (b : Body α) : (ofBody b).form.IsCollected :=
  LinearForm.isCollected_ofTerms _

/-! ### Classification -/

theorem isCanonical_classifyObjective (o : Objective α) : (classifyObjective o).IsCanonical := by
  rw [classifyObjective]
  dsimp only
  split
  · exact CanonicalElement.of_form .linear (by decide) (Split.isCollected_form _)
  · split
    · exact CanonicalElement.of_nil .general (by decide)
    · split
      · exact CanonicalElement.of_form .linear (by decide) (LinearForm.isCollected_ofTerms _)
      · rename_i products
        exact CanonicalElement.of_polynomial _ _ products

namespace FlatConstraint

theorem isCanonical_general (c : Constraint α) : (general c).IsCanonical :=
  CanonicalElement.of_nil .general (by decide)

theorem isCanonical_quadraticOrGeneral (source : Constraint α) (f : LinearForm α)
    (residual : List (α × Expr α)) (l u : α) :
    (quadraticOrGeneral source f residual l u).IsCanonical := by
  rw [quadraticOrGeneral]
  split
  · exact isCanonical_general source
  · dsimp only
    split
    · exact CanonicalElement.of_form .linear (by decide) (LinearForm.isCollected_ofTerms _)
    · rename_i products
      exact CanonicalElement.of_polynomial _ _ products

/-- A functional constraint has no forms. -/
theorem isCanonical_of_functionOf? {r : Var} {e : Expr α} {c : FlatConstraint α}
    (h : functionOf? r e = some c) : c.IsCanonical := by
  obtain ⟨⟨f, args, params⟩, -, rfl⟩ := Option.map_eq_some_iff.1 h
  exact CanonicalElement.of_nil (.function f) nofun

theorem isCanonical_of_functionOfRange? {s : Split α} {l u : α} {c : FlatConstraint α}
    (h : functionOfRange? s l u = some c) : c.IsCanonical := by
  rw [functionOfRange?] at h
  split at h
  · rw [Option.ite_none_right_eq_some] at h
    exact isCanonical_of_functionOf? h.2
  · cases h

theorem isCanonical_of_functionOfDefinition? {r : Var} {s : Split α} {c : FlatConstraint α}
    (h : functionOfDefinition? r s = some c) : c.IsCanonical := by
  rw [functionOfDefinition?] at h
  split at h
  · rw [Option.ite_none_right_eq_some] at h
    exact isCanonical_of_functionOf? h.2
  · cases h

theorem isCollected_of_inequality? {r : Relation} {a b : Split α} {f : LinearForm α} {bound : α}
    (h : inequality? r a b = some (f, bound)) : f.IsCollected := by
  cases r with
  | le | ge =>
    cases h
    exact LinearForm.isCollected_ofTerms _
  | eq => cases h

theorem isCanonical_of_indicator {e : Expr α} {i : Indicator α}
    (h : Indicator.ofExpr? e = some i) : (indicator i).IsCanonical := by
  unfold Indicator.ofExpr? at h
  split at h
  · split at h
    · cases h
    · dsimp only at h
      rw [Option.ite_none_right_eq_some] at h
      obtain ⟨⟨f, bound⟩, inequality, rfl⟩ := Option.map_eq_some_iff.1 h.2
      exact CanonicalElement.of_form .indicator (by decide) (isCollected_of_inequality? inequality)
  · cases h

theorem isCanonical_classifyRange (source : Constraint α) (b : Body α) (l u : α) :
    (classifyRange source (Split.ofBody b) l u).IsCanonical := by
  rw [classifyRange]
  split
  · exact CanonicalElement.of_form .linear (by decide) (Split.isCollected_form b)
  · split
    · rename_i known
      exact isCanonical_of_functionOfRange? known
    · exact isCanonical_quadraticOrGeneral _ _ _ _ _

theorem isCanonical_classifyDefinition (source : Constraint α) (r : Var) (b : Body α) :
    (classifyDefinition source r (Split.ofBody b)).IsCanonical := by
  rw [classifyDefinition]
  split
  · exact CanonicalElement.of_form .linearDefining (by decide) (Split.isCollected_form b)
  · split
    · rename_i known
      exact isCanonical_of_functionOfDefinition? known
    · exact isCanonical_quadraticOrGeneral _ _ _ _ _

end FlatConstraint

theorem isCanonical_classifyConstraint (c : Constraint α) : (classifyConstraint c).IsCanonical := by
  cases c with
  | range b l u => exact FlatConstraint.isCanonical_classifyRange _ b _ _
  | defining r b => exact FlatConstraint.isCanonical_classifyDefinition _ r b
  | logical e =>
    rw [classifyConstraint]
    split
    · rename_i found
      exact FlatConstraint.isCanonical_of_indicator found
    · exact FlatConstraint.isCanonical_general _

/-! ### Reformulation and resolution -/

section Pieces

variable {domains : List (Domain α)}

theorem Indicator.isCollected_of_mem_rows? {i : Indicator α} {rows : List (LinearRow α)}
    (h : i.rows? domains = some rows) : ∀ row ∈ rows, row.form.IsCollected := by
  rw [rows?] at h
  split at h
  · split at h
    · split at h
      · split at h
        · cases h
          exact List.forall_mem_nil _
        · cases h
          refine List.forall_mem_singleton.2 ?_
          rw [relaxedRow]
          split <;> exact LinearForm.isCollected_ofTerms _
      · cases h
    · cases h
  · cases h

theorem FuncGraph.isCollected_conjunctionRows (g : FuncGraph α) :
    ∀ row ∈ g.conjunctionRows, row.form.IsCollected := by
  refine List.forall_mem_append.2 ⟨List.forall_mem_map.2 fun x _ => ?_,
    List.forall_mem_singleton.2 ?_⟩ <;> exact LinearForm.isCollected_ofTerms _

theorem FuncGraph.isCollected_disjunctionRows (g : FuncGraph α) :
    ∀ row ∈ g.disjunctionRows, row.form.IsCollected := by
  refine List.forall_mem_append.2 ⟨List.forall_mem_map.2 fun x _ => ?_,
    List.forall_mem_singleton.2 ?_⟩ <;> exact LinearForm.isCollected_ofTerms _

theorem FlatConstraint.isCollected_of_mem_rows? {c : FlatConstraint α} {rows : List (LinearRow α)}
    (h : c.rows? domains = some rows) : ∀ row ∈ rows, row.form.IsCollected := by
  unfold rows? at h
  split at h
  · cases h
    exact List.forall_mem_singleton.2 (LinearForm.isCollected_ofTerms _)
  · exact Indicator.isCollected_of_mem_rows? h
  · rw [Option.ite_none_right_eq_some] at h
    cases h.2
    exact FuncGraph.isCollected_conjunctionRows _
  · rw [Option.ite_none_right_eq_some] at h
    cases h.2
    exact FuncGraph.isCollected_disjunctionRows _
  · cases h

/-- Every piece of a reformulation is canonical, whatever it was made from. -/
theorem FlatConstraint.isCanonical_of_mem_reformulate? {c : FlatConstraint α}
    {pieces : List (FlatConstraint α)} (h : c.reformulate? domains = some pieces) :
    ∀ d ∈ pieces, d.IsCanonical := by
  obtain ⟨rows, hrows, rfl⟩ := Option.map_eq_some_iff.1 h
  exact List.forall_mem_map.2 fun row hrow =>
    CanonicalElement.of_form .linear (by decide) (isCollected_of_mem_rows? hrows row hrow)

theorem FlatConstraint.IsCanonical.resolveConstraint {c : FlatConstraint α} (hc : c.IsCanonical)
    {table : AcceptanceTable} {pieces : List (FlatConstraint α)}
    (h : resolveConstraint table domains c = .ok pieces) : ∀ d ∈ pieces, d.IsCanonical := by
  rcases (h ▸ resolved_resolveConstraint table domains c).origin with rfl | reformulated
  · exact List.forall_mem_singleton.2 hc
  · exact isCanonical_of_mem_reformulate? reformulated

end Pieces

/-- Whatever is split, classified, reformulated or resolved, each linear form in the outcome is held
by two columns of one length, without a repeated variable or a zero coefficient, and each quadratic
form by three, with ordered pairs, none of them repeated, and without a zero coefficient. A
quadratic element has a product. -/
theorem outcomes_canonical (b : Body α) (o : Objective α) (c : Constraint α)
    (table : AcceptanceTable) (domains : List (Domain α)) :
    (Split.ofBody b).form.IsCollected ∧
    (classifyObjective o).IsCanonical ∧
    (classifyConstraint c).IsCanonical ∧
    (∀ pieces, (classifyConstraint c).reformulate? domains = some pieces →
      ∀ d ∈ pieces, d.IsCanonical) ∧
    ∀ pieces, resolveConstraint table domains (classifyConstraint c) = .ok pieces →
      ∀ d ∈ pieces, d.IsCanonical :=
  ⟨Split.isCollected_form b, isCanonical_classifyObjective o, isCanonical_classifyConstraint c,
    fun _ => FlatConstraint.isCanonical_of_mem_reformulate?,
    fun _ => (isCanonical_classifyConstraint c).resolveConstraint⟩

open Exact.SquareOnly in
/-- A conjunction that is one of its own arguments: the first of its three rows is left without
terms. -/
theorem outcomes_canonical_aliased :
    let b : Body Exact := .ofExpr (.and [.var ⟨0⟩, .var ⟨1⟩])
    let c : Constraint Exact := .defining ⟨0⟩ b
    let domains : List (Domain Exact) := [.binary, .binary]
    ∃ pieces resolved, (classifyConstraint c).reformulate? domains = some pieces ∧
      resolveConstraint .linearOnly domains (classifyConstraint c) = .ok resolved ∧
      (pieces.map fun d => d.forms.map LinearForm.size) = [[0], [2], [1]] ∧
      (∀ d ∈ pieces, d.IsCanonical) ∧ ∀ d ∈ resolved, d.IsCanonical := by
  intro b c domains
  obtain ⟨-, -, -, canonical, canonical'⟩ :=
    outcomes_canonical b ⟨.minimize, b⟩ c .linearOnly domains
  have sizes : ((classifyConstraint c).reformulate? domains).map
      (fun pieces => pieces.map fun d => d.forms.map LinearForm.size) = some [[0], [2], [1]] := by
    decide +kernel
  obtain ⟨pieces, hpieces, sizes⟩ := Option.map_eq_some_iff.1 sizes
  have ok : (resolveConstraint .linearOnly domains (classifyConstraint c)).isOk = true := by
    decide +kernel
  cases hresolved : resolveConstraint .linearOnly domains (classifyConstraint c) with
  | error u =>
    rw [hresolved] at ok
    cases ok
  | ok resolved =>
    exact ⟨pieces, resolved, hpieces, rfl, sizes, canonical pieces hpieces,
      canonical' resolved hresolved⟩

end SolverBridge
