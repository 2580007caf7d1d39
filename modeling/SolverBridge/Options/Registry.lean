import SolverBridge.Failure
import SolverBridge.Options.Error
import SolverBridge.Text.Lowercase
import SolverBridge.Text.Quoted
import SolverBridge.Text.Table

/-! The registry of the options of a solver with state `σ`. An option is bound to a part
of the state, to a pair of functions that read and check it, or to a parameter that the
solver itself keeps. Names are compared in lower case, and the options are listed in the
order of their names in lower case. A setter either gives the new state or an error, so
a failing one changes nothing. -/

namespace SolverBridge

/-- How parameters that a solver keeps itself are read and written, by their own names. -/
structure ParameterAccess (σ : Type) where
  read : σ → String → (t : OptionType) → Except Failure t.Carrier
  write : σ → String → (t : OptionType) → t.Carrier → Except Failure σ

/-- An option with its access to the solver's state. -/
structure SolverOption (σ : Type) where
  name : String
  description : String
  type : OptionType
  get : σ → Except OptionError OptionValue
  set : σ → OptionValue → Except OptionError σ

namespace SolverOption

variable {σ : Type}

/-- Runs a typed setter on a value, which must be of the declared type. -/
def setTyped (name : String) (t : OptionType) (v : OptionValue)
    (write : t.Carrier → Except OptionError σ) : Except OptionError σ :=
  match v.toCarrier? t with
  | some x => write x
  | none => .error (.typeMismatch name t v.type)

/-- An option kept in the state; every value of its type is taken. -/
def stored (name description : String) (t : OptionType) (read : σ → t.Carrier)
    (write : σ → t.Carrier → σ) : SolverOption σ where
  name := name
  description := description
  type := t
  get s := .ok (.ofCarrier t (read s))
  set s v := setTyped name t v fun x => .ok (write s x)

/-- An option that is read and checked by functions of the solver. -/
def checked (name description : String) (t : OptionType) (read : σ → t.Carrier)
    (write : σ → t.Carrier → Except Failure σ) : SolverOption σ where
  name := name
  description := description
  type := t
  get s := .ok (.ofCarrier t (read s))
  set s v := setTyped name t v fun x =>
    (write s x).mapError fun _ => .invalidValue name v.text

/-- A parameter that the solver keeps and may be unable to tell. -/
def parameter (name description : String) (t : OptionType) (read : σ → Except Failure t.Carrier)
    (write : σ → t.Carrier → Except Failure σ) : SolverOption σ where
  name := name
  description := description
  type := t
  get s :=
    match read s with
    | .ok x => .ok (.ofCarrier t x)
    | .error f => .error (.access name f.outermost)
  set s v := setTyped name t v fun x =>
    (write s x).mapError fun _ => .invalidValue name v.text

/-- The option that a parameter of the solver is offered as. -/
def ofParameter (a : ParameterAccess σ) (name description : String) (t : OptionType)
    (key : String) : SolverOption σ :=
  .parameter name description t (a.read · key t) (a.write · key t)

/-- The option in a listing of the registry. -/
def listing (o : SolverOption σ) : String :=
  "SolverOption \x7b name: " ++ Text.quoted o.name ++ ", option_type: " ++ o.type.listedName ++
    " \x7d"

end SolverOption

/-- Options with their names in lower case, in the order of those. -/
structure OptionRegistry (σ : Type) where
  entries : List (String × SolverOption σ)

namespace OptionRegistry

variable {σ : Type}

def empty : OptionRegistry σ := ⟨[]⟩

/-- Two names are the same option. -/
def key (name : String) : String := Text.lowercase name

def find? (r : OptionRegistry σ) (name : String) : Option (SolverOption σ) :=
  r.entries.lookup (key name)

def contains (r : OptionRegistry σ) (name : String) : Bool := (r.find? name).isSome

def find (r : OptionRegistry σ) (name : String) : Except OptionError (SolverOption σ) :=
  match r.find? name with
  | some o => .ok o
  | none => .error (.unknown name)

def options (r : OptionRegistry σ) : List (SolverOption σ) := r.entries.map (·.2)

def size (r : OptionRegistry σ) : Nat := r.entries.length

def isEmpty (r : OptionRegistry σ) : Bool := r.entries.isEmpty

/-- Inserts before the first entry with a greater key. -/
def insertEntry (e : String × SolverOption σ) :
    List (String × SolverOption σ) → List (String × SolverOption σ)
  | [] => [e]
  | f :: rest => if e.1 < f.1 then e :: f :: rest else f :: insertEntry e rest

/-- Adds an option unless its name is taken. -/
def register (r : OptionRegistry σ) (o : SolverOption σ) : Except OptionError (OptionRegistry σ) :=
  if r.contains o.name then .error (.duplicate o.name)
  else .ok ⟨insertEntry (key o.name, o) r.entries⟩

/-- Adds options up to the first whose name is taken. What was added before stays. -/
def registerAll (r : OptionRegistry σ) :
    List (SolverOption σ) → Except OptionError Unit × OptionRegistry σ
  | [] => (.ok (), r)
  | o :: rest =>
    match r.register o with
    | .ok r' => registerAll r' rest
    | .error e => (.error e, r)

/-- The value of an option of any type. -/
def getValue (r : OptionRegistry σ) (s : σ) (name : String) : Except OptionError OptionValue :=
  (r.find name).bind fun o => o.get s

/-- The value of an option that must be declared with the type. -/
def get (r : OptionRegistry σ) (s : σ) (t : OptionType) (name : String) :
    Except OptionError OptionValue :=
  (r.find name).bind fun o =>
    if o.type ≠ t then .error (.typeMismatch o.name o.type t)
    else (o.get s).bind fun v =>
      if v.type = t then .ok v else .error (.typeMismatch o.name t v.type)

/-- The state with an option set to a value of its declared type. -/
def set (r : OptionRegistry σ) (s : σ) (name : String) (v : OptionValue) : Except OptionError σ :=
  (r.find name).bind fun o =>
    if v.type ≠ o.type then .error (.typeMismatch o.name o.type v.type) else o.set s v

/-- The state with an option set to the value that a text spells in its type. -/
def setText (r : OptionRegistry σ) (s : σ) (name text : String) : Except OptionError σ :=
  (r.find name).bind fun o =>
    match OptionValue.parse? o.type text with
    | some v => o.set s v
    | none => .error (.invalidValue o.name text)

/-- A table of the options for the user. -/
def help (r : OptionRegistry σ) : String :=
  Text.tableText ["Option", "Type", "Description"]
    (r.options.map fun o => [o.name, o.type.name, o.description])

/-- All entries on one line. -/
def listing (r : OptionRegistry σ) : String :=
  "OptionRegistry \x7b options: \x7b" ++
    ", ".intercalate (r.entries.map fun e => Text.quoted e.1 ++ ": " ++ e.2.listing) ++ "\x7d \x7d"

end OptionRegistry

end SolverBridge
