import SolverBridge.Model.Expr

/-! Linear forms. A list of terms is merged into canonical form: each variable once,
in the order of first occurrence, with its coefficients added up, and then without
the variables whose total is zero. A term of coefficient zero still fixes the place
of its variable, because totals are tested only at the end. -/

namespace SolverBridge

variable {α : Type}

/-- Adds a coefficient to the variable's term, or appends a new term. -/
def mergeTerm [Add α] (terms : List (α × Var)) (c : α) (v : Var) : List (α × Var) :=
  match terms with
  | [] => [(c, v)]
  | t :: rest => if t.2 = v then (t.1 + c, v) :: rest else t :: mergeTerm rest c v

theorem mem_vars_mergeTerm [Add α] {terms : List (α × Var)} {c : α} {v w : Var} :
    w ∈ (mergeTerm terms c v).map (·.2) ↔ w ∈ terms.map (·.2) ∨ w = v := by
  induction terms with
  | nil => simp [mergeTerm]
  | cons t rest ih =>
    rw [mergeTerm]
    split <;> grind

theorem nodup_mergeTerm [Add α] {terms : List (α × Var)} {c : α} {v : Var}
    (h : (terms.map (·.2)).Nodup) : ((mergeTerm terms c v).map (·.2)).Nodup := by
  induction terms with
  | nil => simp [mergeTerm]
  | cons t rest ih =>
    rw [List.map_cons, List.nodup_cons] at h
    by_cases ht : t.2 = v
    · subst ht
      simpa [mergeTerm] using h
    · rw [mergeTerm, if_neg ht, List.map_cons, List.nodup_cons]
      refine ⟨fun hm => ?_, ih h.2⟩
      rcases mem_vars_mergeTerm.1 hm with hr | hv
      · exact h.1 hr
      · exact ht hv

/-- A weighted sum of variables. -/
structure LinearForm (α : Type) where
  terms : List (α × Var)
  deriving BEq, DecidableEq

namespace LinearForm

def empty : LinearForm α := ⟨[]⟩

def size (f : LinearForm α) : Nat := f.terms.length

def isEmpty (f : LinearForm α) : Bool := f.terms.isEmpty

def vars (f : LinearForm α) : List Var := f.terms.map (·.2)

section Canonical

variable [Scalar α]

/-- No variable twice, no coefficient zero. -/
def Canonical (f : LinearForm α) : Prop :=
  (f.terms.map (·.2)).Nodup ∧ ∀ t ∈ f.terms, (t.1 != 0) = true

/-- The canonical form of a list of terms. -/
def ofTerms (terms : List (α × Var)) : LinearForm α :=
  ⟨(terms.foldl (fun acc t => mergeTerm acc t.1 t.2) []).filter (·.1 != 0)⟩

theorem canonical_ofTerms (terms : List (α × Var)) : (ofTerms terms).Canonical := by
  have nodup : ∀ acc : List (α × Var), (acc.map (·.2)).Nodup →
      ((terms.foldl (fun acc t => mergeTerm acc t.1 t.2) acc).map (·.2)).Nodup := by
    induction terms with
    | nil => exact fun acc h => h
    | cons t rest ih => exact fun acc h => ih _ (nodup_mergeTerm h)
  constructor
  · exact ((List.filter_sublist).map _).nodup (nodup [] List.nodup_nil)
  · intro t ht
    exact (List.mem_filter.1 ht).2

theorem canonical_empty : (empty : LinearForm α).Canonical :=
  ⟨List.nodup_nil, fun _ h => absurd h List.not_mem_nil⟩

/-- The coefficient of a variable, zero when it does not occur. -/
def coefficient (f : LinearForm α) (v : Var) : α :=
  ((f.terms.find? (·.2 = v)).map (·.1)).getD 0

def evaluate (f : LinearForm α) (p : Point α) : α := linearValue p f.terms

def scaled (f : LinearForm α) (factor : α) : LinearForm α :=
  ofTerms (f.terms.map fun t => (t.1 * factor, t.2))

/-- The form with more terms behind its own, merged again. -/
def extended (f : LinearForm α) (more : List (α × Var)) : LinearForm α := ofTerms (f.terms ++ more)

/-- The terms with their signs turned. -/
def negatedTerms (f : LinearForm α) : List (α × Var) := f.terms.map fun t => (-t.1, t.2)

/-- The same coefficient for each variable, in any order. -/
def sameTerms (f g : LinearForm α) : Bool :=
  f.size == g.size && f.terms.all fun t => g.coefficient t.2 == t.1

/-- A term as an expression; a coefficient of one is left out. -/
def termExpr (t : α × Var) : Expr α := if t.1 == 1 then .var t.2 else .mul (.const t.1) (.var t.2)

/-- The form plus a constant as an expression: a sum of terms, with the constant last unless
it is zero and not needed. A single item stands without a sum. -/
def toExpr (f : LinearForm α) (constant : α) : Expr α :=
  let terms := f.terms.map termExpr
  let items := if constant != 0 || terms.isEmpty then terms ++ [.const constant] else terms
  match items with
  | [e] => e
  | es => .sum es

end Canonical

end LinearForm

end SolverBridge
