/-! Failures of a solver. A failure is a chain of messages, from the outermost context to
the root cause. -/

namespace SolverBridge

/-- The outermost message and the causes behind it, in order. -/
structure Failure where
  outermost : String
  causes : List String := []
  deriving DecidableEq, Repr

namespace Failure

/-- The whole chain. -/
def chain (f : Failure) : String := ": ".intercalate (f.outermost :: f.causes)

/-- A failure under one more context. -/
def within (f : Failure) (context : String) : Failure := ⟨context, f.outermost :: f.causes⟩

/-- What a solver answers to a command it does not take. -/
def unsupported (solver feature : String) : Failure := ⟨s!"{solver} does not support {feature}", []⟩

end Failure

end SolverBridge
