import SolverBridge.Decimal.Text
import SolverBridge.Flat.Constraint
import SolverBridge.Flat.Objective

/-! Linear problems in the LP file format. The objective keeps its constant. An equation is
one row; a row with two finite bounds is written twice, as `_lo` and as `_hi`; a row
without a finite bound is left out but keeps its number. Every variable has a line among
the bounds, and the integral ones are listed before the end. -/

namespace SolverBridge.LpText

variable {α : Type} [Scalar α] [Numeral α]

/-- The signs before the terms: a first term shows a minus only. -/
def signed (first : Bool) (c : α) (rest : String) : String :=
  let sign := if Scalar.lt c 0 then "- " else if first then "" else "+ "
  sign ++ Numeral.text (Scalar.abs c) ++ rest

/-- Terms after the first are separated by blanks. -/
def termTexts (first : Bool) : List (α × Var) → List String
  | [] => []
  | t :: rest => signed first t.1 (" " ++ t.2.name) :: termTexts false rest

/-- A form plus a constant; a zero constant is left out, and a bare zero stands for nothing. -/
def expressionText (f : LinearForm α) (constant : α) : String :=
  let terms := termTexts true f.terms
  let items := if constant != 0 then terms ++ [signed terms.isEmpty constant ""] else terms
  if items.isEmpty then "0" else " ".intercalate items

def formText (f : LinearForm α) : String := expressionText f 0

def boundText (x : α) : String :=
  if x == Scalar.posInf then "+inf"
  else if x == Scalar.negInf then "-inf"
  else Numeral.text x

def senseText : Sense → String
  | .minimize => "Minimize"
  | .maximize => "Maximize"

/-- The section of the objective; a missing one is to minimize zero. -/
def objectiveLines : Option (LinearObjective α) → List String
  | some o => [senseText o.sense, " obj: " ++ expressionText o.form o.constant]
  | none => ["Minimize", " obj: 0"]

/-- The lines of row number `i`. -/
def rowLines (i : Nat) (r : LinearRow α) : List String :=
  let body := formText r.form
  let line (suffix relation : String) (rhs : α) : String :=
    " c" ++ toString i ++ suffix ++ ": " ++ body ++ relation ++ Numeral.text rhs
  if r.isEquality then [line "" " = " r.lower]
  else
    match Scalar.isFinite r.lower, Scalar.isFinite r.upper with
    | true, true => [line "_lo" " >= " r.lower, line "_hi" " <= " r.upper]
    | true, false => [line "" " >= " r.lower]
    | false, true => [line "" " <= " r.upper]
    | false, false => []

/-- The line of a variable's bounds. -/
def boundLine (v : Var) (d : Domain α) : String :=
  if d.lower == Scalar.negInf && d.upper == Scalar.posInf then " " ++ v.name ++ " free"
  else " " ++ boundText d.lower ++ " <= " ++ v.name ++ " <= " ++ boundText d.upper

/-- The section of the integral variables, if there are any. -/
def integerLines (domains : List (Domain α)) : List String :=
  let names := (domains.mapIdx fun i d => (i, d)).filterMap fun (i, d) =>
    if d.integral then some (Var.mk i).name else none
  if names.isEmpty then [] else ["General", " " ++ " ".intercalate names]

def lines (domains : List (Domain α)) (objective : Option (LinearObjective α))
    (rows : List (LinearRow α)) : List String :=
  ["\\ Problem written by mpconv"] ++ objectiveLines objective ++
    ["Subject To"] ++ (rows.mapIdx rowLines).flatten ++
    ["Bounds"] ++ domains.mapIdx (fun i d => boundLine ⟨i⟩ d) ++
    integerLines domains ++ ["End"]

/-- The file, in which every line is ended. -/
def write (domains : List (Domain α)) (objective : Option (LinearObjective α))
    (rows : List (LinearRow α)) : String :=
  String.join ((lines domains objective rows).map (· ++ "\n"))

end SolverBridge.LpText
