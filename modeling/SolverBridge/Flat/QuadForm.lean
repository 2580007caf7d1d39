import SolverBridge.Model.Basic

/-! Quadratic forms. A term is a coefficient and a pair of variables, the smaller
first. Adding a term merges it with the term of the same pair and may leave a zero
coefficient behind, so that later terms can still meet it; canonical form drops the
zeros and keeps the order of the rest. -/

namespace SolverBridge

/-- The product `coefficient * first * second`. -/
structure QuadTerm (α : Type) where
  coefficient : α
  first : Var
  second : Var
  deriving BEq, DecidableEq

/-- A sum of products of two variables. -/
structure QuadForm (α : Type) where
  terms : List (QuadTerm α)
  deriving BEq, DecidableEq

namespace QuadForm

variable {α : Type}

def empty : QuadForm α := ⟨[]⟩

def isEmpty (q : QuadForm α) : Bool := q.terms.isEmpty

/-- Adds to the term of the same pair, or appends. -/
def mergeTerm [Add α] (terms : List (QuadTerm α)) (t : QuadTerm α) : List (QuadTerm α) :=
  match terms with
  | [] => [t]
  | s :: rest =>
    if s.first = t.first ∧ s.second = t.second then
      { s with coefficient := s.coefficient + t.coefficient } :: rest
    else s :: mergeTerm rest t

/-- The term with the smaller variable first. -/
def orderedTerm (c : α) (v w : Var) : QuadTerm α := if v.le w then ⟨c, v, w⟩ else ⟨c, w, v⟩

section Scalars

variable [Scalar α]

def addTerm (q : QuadForm α) (c : α) (v w : Var) : QuadForm α :=
  ⟨mergeTerm q.terms (orderedTerm c v w)⟩

/-- The terms whose coefficient is not zero. -/
def canonicalize (q : QuadForm α) : QuadForm α := ⟨q.terms.filter (·.coefficient != 0)⟩

/-- Adds the terms in order. -/
def addTerms (q : QuadForm α) (terms : List (α × Var × Var)) : QuadForm α :=
  terms.foldl (fun q t => q.addTerm t.1 t.2.1 t.2.2) q

def ofTerms (terms : List (α × Var × Var)) : QuadForm α := (empty.addTerms terms).canonicalize

def evaluate (q : QuadForm α) (p : Point α) : α :=
  Scalar.sum (q.terms.map fun t => t.coefficient * t.first.value p * t.second.value p)

/-- Each pair ordered, no pair twice. -/
def Merged (q : QuadForm α) : Prop :=
  (∀ t ∈ q.terms, t.first.index ≤ t.second.index) ∧
    (q.terms.map fun t => (t.first, t.second)).Nodup

/-- Merged and without zero coefficients. -/
def Canonical (q : QuadForm α) : Prop :=
  q.Merged ∧ ∀ t ∈ q.terms, (t.coefficient != 0) = true

end Scalars

theorem orderedTerm_le (c : α) (v w : Var) :
    (orderedTerm c v w).first.index ≤ (orderedTerm c v w).second.index := by
  unfold orderedTerm Var.le
  split
  · rename_i h
    exact of_decide_eq_true h
  · rename_i h
    simp only [decide_eq_true_eq] at h
    exact Nat.le_of_lt (Nat.lt_of_not_le h)

end QuadForm

end SolverBridge
