import SolverBridge.Options.Registry

/-! Settings in memory, to which options can be bound in each of the three ways: to a slot
that takes every value, to a checked value, and to a named parameter that may be unset
or of another type. A checked integer is not negative, a checked number is a number and
a checked text is not empty. A parameter whose name starts with `ro` is read only. -/

namespace SolverBridge

structure Settings where
  ints : List Int64 := [0, 0]
  doubles : List Float := [0, 0]
  strings : List String := ["", ""]
  checkedInt : Int64 := 0
  checkedDouble : Float := 0
  checkedString : String := ""
  parameters : List (String × OptionValue) := []

namespace Settings

def slot (s : Settings) (i : Nat) : (t : OptionType) → t.Carrier
  | .int => s.ints[i]?.getD 0
  | .double => s.doubles[i]?.getD 0
  | .string => s.strings[i]?.getD ""

def setSlot (s : Settings) (i : Nat) : (t : OptionType) → t.Carrier → Settings
  | .int, x => { s with ints := s.ints.set i x }
  | .double, x => { s with doubles := s.doubles.set i x }
  | .string, x => { s with strings := s.strings.set i x }

def checked (s : Settings) : (t : OptionType) → t.Carrier
  | .int => s.checkedInt
  | .double => s.checkedDouble
  | .string => s.checkedString

def setChecked (s : Settings) : (t : OptionType) → t.Carrier → Except Failure Settings
  | .int, x => if x < 0 then .error ⟨"a negative number", []⟩ else .ok { s with checkedInt := x }
  | .double, x =>
    if x.isNaN then .error ⟨"not a number", []⟩ else .ok { s with checkedDouble := x }
  | .string, x =>
    if x.isEmpty then .error ⟨"an empty text", []⟩ else .ok { s with checkedString := x }

def parameter (s : Settings) (key : String) (t : OptionType) : Except Failure t.Carrier :=
  match s.parameters.lookup key with
  | none => .error ⟨s!"parameter {key} is not set", []⟩
  | some v =>
    match v.toCarrier? t with
    | some x => .ok x
    | none => .error ⟨s!"parameter {key} has another type", []⟩

def setParameter (s : Settings) (key : String) (t : OptionType) (x : t.Carrier) :
    Except Failure Settings :=
  if key.startsWith "ro" then .error ⟨s!"parameter {key} is read only", []⟩
  else
    let others := s.parameters.filter (·.1 ≠ key)
    .ok { s with parameters := others ++ [(key, .ofCarrier t x)] }

/-- An option bound to a slot of its type. -/
def slotOption (name description : String) (t : OptionType) (i : Nat) : SolverOption Settings :=
  .stored name description t (·.slot i t) (·.setSlot i t)

/-- An option bound to the checked value of its type. -/
def checkedOption (name description : String) (t : OptionType) : SolverOption Settings :=
  .checked name description t (·.checked t) (·.setChecked t)

def access : ParameterAccess Settings := ⟨parameter, setParameter⟩

/-- An option bound to a named parameter. -/
def parameterOption (name description : String) (t : OptionType) (key : String) :
    SolverOption Settings :=
  .ofParameter access name description t key

end Settings

end SolverBridge
