import SolverBridge.Flat.Constraint

/-! Reformulations into linear rows.

A definition by a linear form is the equation `result - form = constant`.

An indicator needs a binary trigger `b` and a finite `M`, the largest value that
`form - rhs` reaches within the bounds of the variables. If `M` is not positive the
implication always holds and nothing is posted. Otherwise, for the trigger value one
`form + M b <= rhs + M`, and for zero `form - M b <= rhs`.

A conjunction `r` of binary `x₁ … xₙ` is `r <= xᵢ` for each `i` and
`r >= x₁ + … + xₙ - (n - 1)`; a disjunction is `r >= xᵢ` for each `i` and
`r <= x₁ + … + xₙ`. In each case the result and all arguments must be binary, and
there must be an argument.

No other kind is reformulated, and every piece is linear. -/

namespace SolverBridge

/-! ### The relation between kinds -/

namespace Kind

/-- The kind into which elements of a kind may be reformulated. -/
def reformulationTarget : Kind → Option Kind
  | .linearDefining => some .linear
  | .indicator => some .linear
  | .function .conjunction => some .linear
  | .function .disjunction => some .linear
  | _ => none

/-- The number of reformulations that follow one another from a kind, counted up to `n`. -/
def reformulationDepthWithin : Nat → Kind → Nat
  | 0, _ => 0
  | n + 1, k =>
    match k.reformulationTarget with
    | some t => reformulationDepthWithin n t + 1
    | none => 0

/-- A path without a repeated kind is no longer than the number of kinds. -/
def reformulationDepth (k : Kind) : Nat := reformulationDepthWithin all.length k

theorem reformulationDepth_target {k t : Kind} (h : k.reformulationTarget = some t) :
    t.reformulationDepth < k.reformulationDepth := by
  have below : ∀ k ∈ all, ∀ t ∈ k.reformulationTarget,
      t.reformulationDepth < k.reformulationDepth := by decide
  exact below k (mem_all k) t h

/-- The edges of the relation, in the order of the kinds. -/
def reformulationEdges : List (Kind × Kind) :=
  all.filterMap fun k => k.reformulationTarget.map fun t => (k, t)

/-- All kinds, each before its target. -/
def reformulationOrder : List Kind :=
  all.mergeSort fun k l => l.reformulationDepth ≤ k.reformulationDepth

end Kind

/-! ### The reformulations -/

variable {α : Type} [Scalar α]

section Binary

variable (domains : List (Domain α))

/-- The variable is known and binary. -/
def isBinaryVar (v : Var) : Bool := (domains[v.index]?.map Domain.isBinary).getD false

/-- The result and all arguments are binary, and there is an argument. -/
def FuncGraph.isBinary (g : FuncGraph α) : Bool :=
  !g.args.isEmpty && isBinaryVar domains g.result && g.args.all (isBinaryVar domains)

end Binary

/-- The row `result - form = constant`. -/
def definitionRow (result : Var) (form : LinearForm α) (constant : α) : LinearRow α :=
  .equal (.ofTerms ((1, result) :: form.negatedTerms)) constant

namespace Indicator

/-- The largest value of `form - rhs` within the bounds, if all variables are known. -/
def largestViolation? (domains : List (Domain α)) (i : Indicator α) : Option α :=
  i.form.terms.foldlM (fun m t => domains[t.2.index]?.map fun d =>
    m + Scalar.max (t.1 * d.lower) (t.1 * d.upper)) (-i.rhs)

/-- The row that relaxes `form <= rhs` by `m` while the trigger is off. -/
def relaxedRow (i : Indicator α) (m : α) : LinearRow α :=
  if i.value = 0 then .atMost (i.form.extended [(-m, i.trigger)]) i.rhs
  else .atMost (i.form.extended [(m, i.trigger)]) (i.rhs + m)

def rows? (domains : List (Domain α)) (i : Indicator α) : Option (List (LinearRow α)) :=
  if isBinaryVar domains i.trigger then
    match i.largestViolation? domains with
    | some m =>
      if Scalar.isFinite m then
        if Scalar.le m 0 then some [] else some [i.relaxedRow m]
      else none
    | none => none
  else none

end Indicator

namespace FuncGraph

/-- The form `result - x` for an argument `x`. -/
def differenceForm (g : FuncGraph α) (x : Var) : LinearForm α := .ofTerms [(1, g.result), (-1, x)]

/-- The result minus all arguments. -/
def excessForm (g : FuncGraph α) : LinearForm α :=
  .ofTerms ((1, g.result) :: g.args.map fun x => (-1, x))

def conjunctionRows (g : FuncGraph α) : List (LinearRow α) :=
  (g.args.map fun x => .atMost (g.differenceForm x) 0) ++
    [.atLeast g.excessForm (1 - Scalar.ofInt g.args.length)]

def disjunctionRows (g : FuncGraph α) : List (LinearRow α) :=
  (g.args.map fun x => .atLeast (g.differenceForm x) 0) ++ [.atMost g.excessForm 0]

end FuncGraph

/-- The rows that replace a constraint, when its kind is reformulated and this one can be. -/
def FlatConstraint.rows? (domains : List (Domain α)) :
    FlatConstraint α → Option (List (LinearRow α))
  | .linearDefining r f c => some [definitionRow r f c]
  | .indicator i => i.rows? domains
  | .function .conjunction g => if g.isBinary domains then some g.conjunctionRows else none
  | .function .disjunction g => if g.isBinary domains then some g.disjunctionRows else none
  | _ => none

/-- The pieces that replace a constraint. -/
def FlatConstraint.reformulate? (domains : List (Domain α)) (c : FlatConstraint α) :
    Option (List (FlatConstraint α)) :=
  (c.rows? domains).map fun rows => rows.map .linear

theorem FlatConstraint.reformulationTarget_of_reformulate? {domains : List (Domain α)}
    {c : FlatConstraint α} {pieces : List (FlatConstraint α)}
    (h : c.reformulate? domains = some pieces) : c.kind.reformulationTarget = some .linear := by
  cases c with
  | function f g => cases f <;> first | rfl | simp [reformulate?, rows?] at h
  | linear | quadratic | general => simp [reformulate?, rows?] at h
  | linearDefining | indicator => rfl

theorem FlatConstraint.kind_of_mem_reformulate? {domains : List (Domain α)}
    {c d : FlatConstraint α} {pieces : List (FlatConstraint α)}
    (h : c.reformulate? domains = some pieces) (hd : d ∈ pieces) : d.kind = .linear := by
  obtain ⟨rows, _, rfl⟩ := Option.map_eq_some_iff.1 h
  obtain ⟨row, _, rfl⟩ := List.mem_map.1 hd
  rfl

end SolverBridge
