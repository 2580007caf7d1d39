import SolverBridge.Model.Expr

/-! Arithmetic that builds expressions. A sum stays flat on its left: adding to a
sum appends to its items, so that `a + b + c` is one sum of three items. A
difference adds the negation. -/

namespace SolverBridge

namespace Expr

variable {α : Type}

def add : Expr α → Expr α → Expr α
  | .sum items, e => .sum (items ++ [e])
  | a, e => .sum [a, e]

instance : Neg (Expr α) := ⟨.neg⟩

instance : Add (Expr α) := ⟨add⟩

instance : Sub (Expr α) := ⟨fun a b => add a (.neg b)⟩

instance : Mul (Expr α) := ⟨.mul⟩

instance : Div (Expr α) := ⟨.div⟩

/-- Both shapes of a sum have the value of the two operands added in order. -/
theorem evaluate_add_sum [Scalar α] (p : Point α) (items : List (Expr α)) (e : Expr α) :
    ((Expr.sum items) + e).evaluate p = (Expr.sum items).evaluate p + e.evaluate p := by
  show (Expr.sum (items ++ [e])).evaluate p = _
  simp [evaluate, evaluateEach_eq_map, Scalar.sum_concat]

end Expr

end SolverBridge
