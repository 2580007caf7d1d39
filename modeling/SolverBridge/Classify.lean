import SolverBridge.Flat.Constraint
import SolverBridge.Flat.Objective
import SolverBridge.Split

/-! Classification. A body without residual terms is linear. A constraint that says
`result = f args` for one of the known functions takes the function's kind, a logical
constraint that is an implication from a test of one variable to a linear inequality
becomes an indicator, and a body whose residual terms are products of two linear
factors becomes quadratic, or linear when the products cancel. Anything else stays as
it was given. An objective is never functional. -/

namespace SolverBridge

variable {α : Type} [Scalar α]

/-! ### Products of linear factors -/

/-- Products expanded into quadratic, linear and constant terms, in reading order. -/
structure Polynomial (α : Type) where
  quad : List (α × Var × Var)
  linear : List (α × Var)
  constant : List α

namespace Polynomial

def empty : Polynomial α := ⟨[], [], []⟩

def append (a b : Polynomial α) : Polynomial α :=
  ⟨a.quad ++ b.quad, a.linear ++ b.linear, a.constant ++ b.constant⟩

instance : Append (Polynomial α) := ⟨append⟩

/-- The scaled product of two linear forms with constants. -/
def product (scale : α) (a b : Split α) : Polynomial α where
  quad := a.form.terms.flatMap fun s => b.form.terms.map fun t => (scale * s.1 * t.1, s.2, t.2)
  linear :=
    a.form.terms.map (fun s => (scale * s.1 * b.constant, s.2)) ++
      b.form.terms.map (fun t => (scale * t.1 * a.constant, t.2))
  constant := [scale * a.constant * b.constant]

/-- A linear form with a constant, if the expression is one. -/
def linearFactor? (e : Expr α) : Option (Split α) :=
  let s := Split.ofExpr e
  if s.isLinear then some s else none

mutual

/-- The expansion of a residual term, if it is made of products of two linear factors
and squares of one. -/
def ofTerm? (scale : α) (e : Expr α) : Option (Polynomial α) :=
  match e with
  | .neg a => ofTerm? (-scale) a
  | .sum items => ofTerms? scale items
  | .mul a b =>
    match linearFactor? a, linearFactor? b with
    | some s, some t => some (product scale s t)
    | _, _ => none
  | .pow a b =>
    if (b.asConstant?.map (· == Scalar.ofInt 2)).getD false then
      (linearFactor? a).map fun s => product scale s s
    else none
  | _ => none
termination_by structural e

def ofTerms? (scale : α) (es : List (Expr α)) : Option (Polynomial α) :=
  match es with
  | [] => some empty
  | e :: rest =>
    match ofTerm? scale e, ofTerms? scale rest with
    | some p, some q => some (p ++ q)
    | _, _ => none
termination_by structural es

end

/-- The expansion of all residual terms, each under its scale. -/
def ofResidual? : List (α × Expr α) → Option (Polynomial α)
  | [] => some empty
  | t :: rest =>
    match ofTerm? t.1 t.2, ofResidual? rest with
    | some p, some q => some (p ++ q)
    | _, _ => none

def quadForm (p : Polynomial α) : QuadForm α := .ofTerms p.quad

/-- The sum of the constant terms. -/
def offset (p : Polynomial α) : α := p.constant.foldl (· + ·) 0

end Polynomial

/-! ### Named patterns -/

def Unary.func : Unary → Func
  | .abs => .abs
  | .exp => .exp
  | .log => .log
  | .sin => .sin
  | .cos => .cos
  | .tan => .tan

/-- The variables of a list that holds nothing else and is not empty. -/
def variables? (items : List (Expr α)) : Option (List Var) :=
  if items.isEmpty then none else items.mapM Expr.asVar?

/-- A known function of variables, with its arguments and its constant. A power of a
variable is tried before a power with a constant base. -/
def Func.ofExpr? : Expr α → Option (Func × List Var × List α)
  | .max items => (variables? items).map fun vs => (.max, vs, [])
  | .min items => (variables? items).map fun vs => (.min, vs, [])
  | .and items => (variables? items).map fun vs => (.conjunction, vs, [])
  | .or items => (variables? items).map fun vs => (.disjunction, vs, [])
  | .unary f e => e.asVar?.map fun v => (f.func, [v], [])
  | .logBase base e => e.asVar?.map fun v => (.logBase, [v], [base])
  | .pow a b =>
    match a.asVar?, b.asConstant? with
    | some v, some k => some (.pow, [v], [k])
    | _, _ =>
      match a.asConstant?, b.asVar? with
      | some k, some v => some (.expBase, [v], [k])
      | _, _ => none
  | _ => none

/-- The constraint `result = e` for a known function of variables. -/
def functionOf? (result : Var) (e : Expr α) : Option (FlatConstraint α) :=
  (Func.ofExpr? e).map fun (f, args, params) => .function f ⟨result, args, params⟩

/-- How far the ratio of a pattern's scale to its result's coefficient may be from one:
one part in a million million. -/
def unitRatioTolerance : α := 1 / Scalar.ofInt 1000000000000

/-- The row `c * r + s * f(args) = 0` says `r = f(args)` when `-s / c` is one. -/
def functionOfRange? (s : Split α) (lower upper : α) : Option (FlatConstraint α) :=
  match s.form.terms, s.residual with
  | [(c, result)], [(scale, e)] =>
    if lower == 0 && upper == 0 &&
        !Scalar.lt unitRatioTolerance (Scalar.abs (-scale / c - 1)) then
      functionOf? result e
    else none
  | _, _ => none

/-- The graph `r = f(args)` with nothing added and a scale of one. -/
def functionOfDefinition? (result : Var) (s : Split α) : Option (FlatConstraint α) :=
  match s.form.terms, s.residual with
  | [], [(scale, e)] => if s.constant == 0 && scale == 1 then functionOf? result e else none
  | _, _ => none

/-! ### Indicators -/

/-- The variable that a condition tests and the value it asks for: the variable itself, its
negation, or its comparison with zero or one. -/
def trigger? : Expr α → Option (Var × Int)
  | .var v => some (v, 1)
  | .not e => e.asVar?.map fun v => (v, 0)
  | .compare .eq a b =>
    let tested := match a.asVar?, b.asVar? with
      | some v, _ => b.asConstant?.map fun k => (v, k)
      | none, some v => a.asConstant?.map fun k => (v, k)
      | none, none => none
    tested.bind fun (v, k) => if k == 0 then some (v, 0) else if k == 1 then some (v, 1) else none
  | _ => none

/-- The difference of two linear sides of an inequality as a form and its upper bound. -/
def inequality? (r : Relation) (a b : Split α) : Option (LinearForm α × α) :=
  let form := a.form.extended b.form.negatedTerms
  let constant := a.constant - b.constant
  match r with
  | .le => some (form, -constant)
  | .ge => some (form.scaled (-1), constant)
  | .eq => none

/-- The indicator that an implication states, if it states one. -/
def Indicator.ofExpr? : Expr α → Option (Indicator α)
  | .implies condition (.compare r a b) =>
    match trigger? condition with
    | none => none
    | some (v, value) =>
      let lhs := Split.ofExpr a
      let rhs := Split.ofExpr b
      if lhs.isLinear && rhs.isLinear then
        (inequality? r lhs rhs).map fun (form, bound) => ⟨v, value, form, bound⟩
      else none
  | _ => none

/-! ### Elements -/

def classifyObjective (o : Objective α) : FlatObjective α :=
  let s := Split.ofBody o.body
  if s.isLinear then .linear ⟨o.sense, s.form, s.constant⟩
  else
    match Polynomial.ofResidual? s.residual with
    | none => .general o
    | some p =>
      let linear := ⟨o.sense, s.form.extended p.linear, s.constant + p.offset⟩
      if p.quadForm.isEmpty then .linear linear else .quadratic linear p.quadForm

/-- A row with residual terms: quadratic, linear when the products cancel, or the source. -/
def quadraticOrGeneral (source : Constraint α) (form : LinearForm α) (residual : List (α × Expr α))
    (lower upper : α) : FlatConstraint α :=
  match Polynomial.ofResidual? residual with
  | none => .general source
  | some p =>
    let row := ⟨form.extended p.linear, lower - p.offset, upper - p.offset⟩
    if p.quadForm.isEmpty then .linear row else .quadratic row p.quadForm

/-- The body's constant moves into the bounds. -/
def classifyRange (source : Constraint α) (s : Split α) (lower upper : α) : FlatConstraint α :=
  if s.isLinear then .linear ⟨s.form, lower, upper⟩
  else
    match functionOfRange? s lower upper with
    | some c => c
    | none => quadraticOrGeneral source s.form s.residual lower upper

/-- A definition that is neither linear nor functional becomes an equation in which the
result has the coefficient minus one. -/
def classifyDefinition (source : Constraint α) (result : Var) (s : Split α) : FlatConstraint α :=
  if s.isLinear then .linearDefining result s.form s.constant
  else
    match functionOfDefinition? result s with
    | some c => c
    | none =>
      quadraticOrGeneral source (s.form.extended [(-1, result)]) s.residual
        (-s.constant) (-s.constant)

def classifyConstraint (c : Constraint α) : FlatConstraint α :=
  match c with
  | .range b lower upper =>
    let s := Split.ofBody b
    classifyRange c s (lower - s.constant) (upper - s.constant)
  | .defining result b => classifyDefinition c result (Split.ofBody b)
  | .logical e =>
    match Indicator.ofExpr? e with
    | some i => .indicator i
    | none => .general c

end SolverBridge
