import SolverBridge.Backend.Basic
import SolverBridge.Reformulation

/-! Backends that only take linear elements. Such a backend says how it keeps a variable, a
linear objective and a linear row, how it solves, and what it found. A definition by a
linear form is kept as a row. Everything else is answered with a failure that names the
solver. -/

namespace SolverBridge

/-- What a linear solver does with its own state. -/
structure LinearSolver (σ α : Type) where
  acquire : σ → Except Failure Unit × σ
  release : σ → σ
  beginModification : σ → Except Failure Unit × σ := fun s => (.ok (), s)
  endModification : σ → Except Failure Unit × σ := fun s => (.ok (), s)
  exportModel : Option (σ → String → Except Failure Unit × σ) := none
  addVariable : σ → Domain α → Except Failure Unit × σ
  addObjective : σ → LinearObjective α → Except Failure Unit × σ
  addRow : σ → LinearRow α → Except Failure Unit × σ
  takeStopFlag : σ → StopHandle → Except Failure Unit × σ := fun s _ => (.ok (), s)
  solve : σ × StopFlags → Except Failure Unit × (σ × StopFlags)
  nativeStatus : σ → Except Failure Int
  hasFeasible : σ → Bool
  primal : σ → Except Failure (List α)
  objectiveValue : σ → Except Failure α
  isMixedInteger : σ → Bool
  objectiveCount : σ → Nat

namespace LinearSolver

variable {σ α : Type} [Scalar α]

/-- Answers each request; `name` is the solver's name in failures. -/
def perform (l : LinearSolver σ α) (name : σ → String) :
    (r : Request α) → σ × StopFlags → r.Answer × (σ × StopFlags)
  | r, (s, flags) =>
    let keep {β : Type} (x : β × σ) : β × (σ × StopFlags) := (x.1, (x.2, flags))
    let refuse {β : Type} (feature : String) : Except Failure β × (σ × StopFlags) :=
      (.error (.unsupported (name s) feature), (s, flags))
    match r with
    | .acquire => keep (l.acquire s)
    | .release => ((), (l.release s, flags))
    | .beginModification => keep (l.beginModification s)
    | .endModification => keep (l.endModification s)
    | .exportModel path =>
      match l.exportModel with
      | some write => keep (write s path)
      | none => refuse "model export"
    | .addVariable d => keep (l.addVariable s d)
    | .postObjective (.linear o) => keep (l.addObjective s o)
    | .postObjective o => refuse o.feature
    | .startConstraint _ => ((), (s, flags))
    | .postConstraint (.linear row) => keep (l.addRow s row)
    | .postConstraint (.linearDefining r f c) => keep (l.addRow s (definitionRow r f c))
    | .postConstraint c => refuse c.feature
    | .takeStopFlag h => keep (l.takeStopFlag s h)
    | .solve => l.solve (s, flags)
    | .nativeStatus => (l.nativeStatus s, (s, flags))
    | .hasFeasible => (l.hasFeasible s, (s, flags))
    | .primal => (l.primal s, (s, flags))
    | .dual => (.ok [], (s, flags))
    | .objectiveValue => (l.objectiveValue s, (s, flags))
    | .iterations => (0, (s, flags))
    | .nodes => (0, (s, flags))
    | .isMixedInteger => (l.isMixedInteger s, (s, flags))
    | .objectiveCount => (l.objectiveCount s, (s, flags))
    | .findIis => refuse "IIS computation"
    | .mipGap => (none, (s, flags))

end LinearSolver

end SolverBridge
