import SolverBridge.Scalar

/-! Where the outcome of a solve goes. A sink is given the solution, suffixes and text to
print, in this order of events; what it makes of them is a fold over the deliveries. One
sink collects everything, another only prints. -/

namespace SolverBridge

/-- What a suffix is attached to. -/
inductive SuffixTarget
  | variables
  | constraints
  | objectives
  | problem
  deriving DecidableEq, Repr

namespace SuffixTarget

def name : SuffixTarget → String
  | .variables => "var"
  | .constraints => "con"
  | .objectives => "obj"
  | .problem => "problem"

def ofName? (s : String) : Option SuffixTarget :=
  [.variables, .constraints, .objectives, .problem].find? (·.name = s)

end SuffixTarget

/-- A named value for each element of its target. -/
structure Suffix where
  name : String
  target : SuffixTarget
  deriving DecidableEq, Repr

namespace Suffix

def iisVariables : Suffix := ⟨"iis", .variables⟩

def iisConstraints : Suffix := ⟨"iis", .constraints⟩

def gapOfObjectives : Suffix := ⟨"relmipgap", .objectives⟩

def gapOfProblem : Suffix := ⟨"relmipgap", .problem⟩

end Suffix

/-- The outcome of a solve as a sink receives it. -/
structure Outcome (α : Type) where
  solveCode : Int
  message : String
  primal : Option (List α)
  dual : Option (List α)
  objective : Option α

/-- One event at a sink. -/
inductive Delivery (α : Type)
  | outcome (o : Outcome α)
  | intSuffix (s : Suffix) (values : List Int)
  | numSuffix (s : Suffix) (values : List α)
  | print (text : String)

/-- Everything a sink was given; of several outcomes the last counts. -/
structure Collected (α : Type) where
  solveCode : Option Int := none
  message : String := ""
  primal : Option (List α) := none
  dual : Option (List α) := none
  objective : Option α := none
  intSuffixes : List (Suffix × List Int) := []
  numSuffixes : List (Suffix × List α) := []
  output : String := ""

namespace Collected

variable {α : Type}

def receive (c : Collected α) : Delivery α → Collected α
  | .outcome o =>
    { c with
      solveCode := some o.solveCode
      message := o.message
      primal := o.primal
      dual := o.dual
      objective := o.objective }
  | .intSuffix s values => { c with intSuffixes := c.intSuffixes ++ [(s, values)] }
  | .numSuffix s values => { c with numSuffixes := c.numSuffixes ++ [(s, values)] }
  | .print text => { c with output := c.output ++ text }

def ofDeliveries (ds : List (Delivery α)) : Collected α := ds.foldl receive {}

/-- The first values under a suffix. -/
def intSuffix? (c : Collected α) (s : Suffix) : Option (List Int) := c.intSuffixes.lookup s

def numSuffix? (c : Collected α) (s : Suffix) : Option (List α) := c.numSuffixes.lookup s

end Collected

/-- What a sink that only prints has printed. -/
def printedText {α : Type} (ds : List (Delivery α)) : String :=
  String.join (ds.map fun
    | .print text => text
    | _ => "")

theorem printedText_eq_output {α : Type} (ds : List (Delivery α)) :
    (Collected.ofDeliveries ds).output = printedText ds := by
  have gathered : ∀ (ds : List (Delivery α)) (c : Collected α),
      (ds.foldl Collected.receive c).output = c.output ++ printedText ds := by
    intro ds
    induction ds with
    | nil => intro c; simp [printedText]
    | cons d rest ih =>
      intro c
      rw [List.foldl_cons, ih]
      cases d <;> simp [printedText, Collected.receive, String.append_assoc]
  rw [Collected.ofDeliveries, gathered ds {}]
  exact String.empty_append

end SolverBridge
