import SolverBridge.Options.Value

/-! What can go wrong with solver options. -/

namespace SolverBridge

inductive OptionError
  | unknown (name : String)
  | duplicate (name : String)
  /-- The option is declared with one type and used with another. -/
  | typeMismatch (name : String) (declared used : OptionType)
  | invalidValue (name value : String)
  /-- The solver cannot tell the option's value. -/
  | access (name message : String)
  deriving DecidableEq, Repr

namespace OptionError

def message : OptionError → String
  | .unknown n => s!"Unknown solver option \"{n}\""
  | .duplicate n => s!"Option \"{n}\" is already registered"
  | .typeMismatch n d u => s!"Option \"{n}\" is not of type \"{u.name}\" (declared as \"{d.name}\")"
  | .invalidValue n v => s!"Invalid value \"{v}\" for option \"{n}\""
  | .access n m => s!"Cannot access option \"{n}\": {m}"

/-- A stable name for the cause. -/
def code : OptionError → String
  | .unknown _ => "OPTION_UNKNOWN"
  | .duplicate _ => "OPTION_DUPLICATE"
  | .typeMismatch _ _ _ => "OPTION_TYPE_MISMATCH"
  | .invalidValue _ _ => "OPTION_INVALID_VALUE"
  | .access _ _ => "OPTION_ACCESS"

end OptionError

end SolverBridge
