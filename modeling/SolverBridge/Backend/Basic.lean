import SolverBridge.Acceptance
import SolverBridge.Flat.Constraint
import SolverBridge.Flat.Objective
import SolverBridge.Options.Registry
import SolverBridge.RowMap
import SolverBridge.Status
import SolverBridge.StopFlag

/-! Solver backends. A backend is a state machine: it is sent requests one at a time and
gives to each an answer of the request's own type. It acts on its own state and on the
stop flags that it shares with others. Beside that it declares which kinds it accepts,
what its result codes mean, its name and its options. Nothing else is known about a
backend, so what holds of all of them holds for every solver behaviour. -/

namespace SolverBridge

/-- Options that every backend has. -/
structure BaseOptions where
  /-- Print durations after the report unless zero. -/
  timing : Int64 := 0
  /-- The file to which the problem is exported, unless empty. -/
  exportFile : String := ""
  /-- Ask for an irreducible infeasible subsystem unless zero. -/
  iisFind : Int64 := 0
  /-- The first bit reports the gap on the objectives, the second on the problem. -/
  returnMipGap : Int64 := 0

/-- Membership of each variable and each constraint in an infeasible subsystem. -/
structure IisReport where
  ofVariables : List IisStatus
  ofConstraints : List IisStatus
  deriving DecidableEq, Repr

inductive Request (α : Type)
  | acquire
  | release
  | beginModification
  | endModification
  | exportModel (path : String)
  | addVariable (d : Domain α)
  | postObjective (o : FlatObjective α)
  /-- The pieces of this constraint follow. -/
  | startConstraint (i : Nat)
  | postConstraint (c : FlatConstraint α)
  | takeStopFlag (h : StopHandle)
  | solve
  | nativeStatus
  | hasFeasible
  | primal
  | dual
  | objectiveValue
  | iterations
  | nodes
  | isMixedInteger
  | objectiveCount
  | findIis
  | mipGap

/-- What a request is answered with. -/
abbrev Request.Answer {α : Type} : Request α → Type
  | .release | .startConstraint _ => Unit
  | .nativeStatus => Except Failure Int
  | .hasFeasible | .isMixedInteger => Bool
  | .primal | .dual => Except Failure (List α)
  | .objectiveValue => Except Failure α
  | .iterations | .nodes | .objectiveCount => Nat
  | .findIis => Except Failure IisReport
  | .mipGap => Option α
  | _ => Except Failure Unit

/-- A solver with state `σ` over the numbers `α`. -/
structure Backend (σ α : Type) where
  acceptance : AcceptanceTable
  statuses : StatusTable
  solverName : σ → String
  solverVersion : σ → String := fun _ => ""
  baseOptions : σ → BaseOptions
  setBaseOptions : σ → BaseOptions → σ
  ownOptions : List (SolverOption σ) := []
  perform : (r : Request α) → σ × StopFlags → r.Answer × (σ × StopFlags)

namespace Backend

variable {σ α : Type}

/-- The name in messages: with the version, if there is one. -/
def longName (b : Backend σ α) (s : σ) : String :=
  let version := b.solverVersion s
  if version.isEmpty then b.solverName s else b.solverName s ++ " " ++ version

/-- The options that every backend has, as options of its state. -/
def sharedOptions (b : Backend σ α) : List (SolverOption σ) :=
  [.stored "timing" "Print setup, solution and output times (0 or 1)" .int
      (fun s => (b.baseOptions s).timing)
      (fun s x => b.setBaseOptions s { b.baseOptions s with timing := x }),
    .stored "writeprob" "Export the model to this file before solving" .string
      (fun s => (b.baseOptions s).exportFile)
      (fun s x => b.setBaseOptions s { b.baseOptions s with exportFile := x }),
    .stored "iisfind"
      "Report an irreducible infeasible subsystem for infeasible problems (0 or 1)" .int
      (fun s => (b.baseOptions s).iisFind)
      (fun s x => b.setBaseOptions s { b.baseOptions s with iisFind := x }),
    .stored "return_mipgap"
      "Report the relative MIP gap: 1 on objectives, 2 on the problem, 3 both" .int
      (fun s => (b.baseOptions s).returnMipGap)
      (fun s x => b.setBaseOptions s { b.baseOptions s with returnMipGap := x })]

/-- The registry of all options; the shared ones come first. -/
def registry (b : Backend σ α) : Except OptionError (OptionRegistry σ) :=
  match OptionRegistry.empty.registerAll (b.sharedOptions ++ b.ownOptions) with
  | (.ok (), r) => .ok r
  | (.error e, _) => .error e

/-- The backend that also keeps the requests it was sent, in order. -/
def recorded (b : Backend σ α) : Backend (σ × List (Request α)) α where
  acceptance := b.acceptance
  statuses := b.statuses
  solverName s := b.solverName s.1
  solverVersion s := b.solverVersion s.1
  baseOptions s := b.baseOptions s.1
  setBaseOptions s o := (b.setBaseOptions s.1 o, s.2)
  ownOptions := b.ownOptions.map fun o =>
    { name := o.name
      description := o.description
      type := o.type
      get := fun s => o.get s.1
      set := fun s v => (o.set s.1 v).map fun x => (x, s.2) }
  perform r w :=
    let (a, (s, flags)) := b.perform r (w.1.1, w.2)
    (a, ((s, w.1.2 ++ [r]), flags))

end Backend

/-- What a solver that does not take a quadratic or general objective calls it. -/
def FlatObjective.feature {α : Type} : FlatObjective α → String
  | .linear _ => "linear objectives"
  | .quadratic _ _ => "quadratic objectives"
  | .general _ => "general nonlinear objectives"

def Func.feature : Func → String
  | .max => "max constraints"
  | .min => "min constraints"
  | .abs => "abs constraints"
  | .conjunction => "and constraints"
  | .disjunction => "or constraints"
  | .exp => "exp constraints"
  | .expBase => "exponential constraints with a constant base"
  | .log => "log constraints"
  | .logBase => "logarithm constraints with a constant base"
  | .pow => "power constraints"
  | .sin => "sin constraints"
  | .cos => "cos constraints"
  | .tan => "tan constraints"

/-- What a solver that does not take a constraint calls it. -/
def FlatConstraint.feature {α : Type} : FlatConstraint α → String
  | .linear _ => "linear constraints"
  | .quadratic _ _ => "quadratic constraints"
  | .linearDefining _ _ _ => "linear defining constraints"
  | .function f _ => f.feature
  | .indicator _ => "indicator constraints"
  | .general _ => "general nonlinear constraints"

end SolverBridge
