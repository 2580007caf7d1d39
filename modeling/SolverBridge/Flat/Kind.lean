/-! The kinds of classified elements. A functional kind equates a variable with a
function of other variables; the remaining kinds are the linear and quadratic rows,
the definition by a linear form, the indicator and what fits none of them. -/

namespace SolverBridge

/-- The functions that have a kind of their own. -/
inductive Func
  | max
  | min
  | abs
  | conjunction
  | disjunction
  | exp
  | expBase
  | log
  | logBase
  | pow
  | sin
  | cos
  | tan
  deriving DecidableEq, Repr

inductive Kind
  | linear
  | quadratic
  | linearDefining
  | function (f : Func)
  | indicator
  | general
  deriving DecidableEq, Repr

def Func.name : Func → String
  | .max => "Max"
  | .min => "Min"
  | .abs => "Abs"
  | .conjunction => "Conjunction"
  | .disjunction => "Disjunction"
  | .exp => "Exp"
  | .expBase => "ExpA"
  | .log => "Log"
  | .logBase => "LogA"
  | .pow => "Pow"
  | .sin => "Sin"
  | .cos => "Cos"
  | .tan => "Tan"

namespace Kind

def name : Kind → String
  | .linear => "Linear"
  | .quadratic => "Quadratic"
  | .linearDefining => "LinearDefining"
  | .function f => f.name
  | .indicator => "IndicatorLinLE"
  | .general => "General"

def isFunctional : Kind → Bool
  | .function _ => true
  | _ => false

/-- Every kind, in the order of display. -/
def all : List Kind :=
  [.linear, .quadratic, .linearDefining,
    .function .max, .function .min, .function .abs, .function .conjunction,
    .function .disjunction,
    .indicator,
    .function .exp, .function .expBase, .function .log, .function .logBase, .function .pow,
    .function .sin, .function .cos, .function .tan,
    .general]

theorem mem_all (k : Kind) : k ∈ all := by
  cases k with
  | function f => cases f <;> decide
  | _ => decide

theorem name_injective {k l : Kind} (h : k.name = l.name) : k = l := by
  have distinct : ∀ k ∈ all, ∀ l ∈ all, k.name = l.name → k = l := by decide
  exact distinct k (mem_all k) l (mem_all l) h

/-- The kind of a given name. -/
def ofName? (s : String) : Option Kind := all.find? (·.name = s)

end Kind

end SolverBridge
