/-! The log of a session. An event has a level, named fields and usually a message. A
duration is logged without its value, because two runs never agree on it. -/

namespace SolverBridge

inductive EventLevel
  | trace
  | debug
  | warn
  | error
  deriving DecidableEq, Repr

def EventLevel.name : EventLevel → String
  | .trace => "TRACE"
  | .debug => "DEBUG"
  | .warn => "WARN"
  | .error => "ERROR"

inductive EventField
  | int (i : Int)
  | bool (b : Bool)
  | text (s : String)
  | duration
  deriving DecidableEq, Repr

structure Event where
  level : EventLevel
  operation : String
  fields : List (String × EventField)
  message : Option String
  deriving DecidableEq, Repr

/-- All fields of an event of a session, with the component and the operation. -/
def Event.allFields (e : Event) : List (String × EventField) :=
  ("component", .text "session") :: ("operation", .text e.operation) :: e.fields

end SolverBridge
