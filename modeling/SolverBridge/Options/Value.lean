import SolverBridge.Decimal.Reader
import SolverBridge.Decimal.Text
import SolverBridge.Text.Blank

/-! Values of solver options. An option holds an integer of 64 bits, a number or a text,
and is never converted from one of these to another. A value is read from a text after
white space at both ends is taken off; a text value also loses one pair of equal quotes
around it. -/

namespace SolverBridge

inductive OptionType
  | int
  | double
  | string
  deriving DecidableEq, Repr

namespace OptionType

def name : OptionType → String
  | .int => "int"
  | .double => "double"
  | .string => "string"

/-- The name used in a listing of the whole registry. -/
def listedName : OptionType → String
  | .int => "Int"
  | .double => "Float"
  | .string => "Str"

/-- The values of a type. -/
abbrev Carrier : OptionType → Type
  | .int => Int64
  | .double => Float
  | .string => String

end OptionType

inductive OptionValue
  | int (i : Int64)
  | double (x : Float)
  | string (s : String)

namespace OptionValue

def type : OptionValue → OptionType
  | .int _ => .int
  | .double _ => .double
  | .string _ => .string

def ofCarrier : (t : OptionType) → t.Carrier → OptionValue
  | .int, i => .int i
  | .double, x => .double x
  | .string, s => .string s

/-- The value as one of a type; a value of another type is not converted. -/
def toCarrier? : (t : OptionType) → OptionValue → Option t.Carrier
  | .int, .int i => some i
  | .double, .double x => some x
  | .string, .string s => some s
  | _, _ => none

theorem type_ofCarrier (t : OptionType) (x : t.Carrier) : (ofCarrier t x).type = t := by
  cases t <;> rfl

theorem toCarrier?_ofCarrier (t : OptionType) (x : t.Carrier) :
    toCarrier? t (ofCarrier t x) = some x := by
  cases t <;> rfl

theorem toCarrier?_isSome (t : OptionType) (v : OptionValue) :
    (toCarrier? t v).isSome = decide (v.type = t) := by
  cases t <;> cases v <;> rfl

theorem eq_ofCarrier {t : OptionType} {v : OptionValue} {x : t.Carrier}
    (h : toCarrier? t v = some x) : v = ofCarrier t x := by
  cases t <;> cases v <;> simp_all [toCarrier?, ofCarrier]

theorem exists_eq_ofCarrier {t : OptionType} {v : OptionValue} (h : v.type = t) :
    ∃ x, v = ofCarrier t x := by
  subst h
  cases v <;> exact ⟨_, rfl⟩

def text : OptionValue → String
  | .int i => toString i.toInt
  | .double x => Decimal.text x
  | .string s => s

/-- The value that was written as a text. -/
def ofText? : (t : OptionType) → String → Option t.Carrier
  | .int, s => Decimal.int64? s
  | .double, s => Decimal.float? s
  | .string, s => some s

/-- The characters between two quotes, if the text starts and ends with one. -/
def between? (quote : Char) : List Char → Option (List Char)
  | c :: cs => if c = quote ∧ cs.getLast? = some quote then some cs.dropLast else none
  | [] => none

/-- Without one pair of double quotes, or else of single quotes. -/
def unquote (cs : List Char) : List Char :=
  ((between? '"' cs).orElse fun _ => between? '\'' cs).getD cs

/-- The value that a text spells in a type. -/
def parse? (t : OptionType) (s : String) : Option OptionValue :=
  let trimmed := Text.trim s.toList
  match t with
  | .int => (Decimal.int64? (String.ofList trimmed)).map .int
  | .double => (Decimal.float? (String.ofList trimmed)).map .double
  | .string => some (.string (String.ofList (unquote trimmed)))

theorem type_of_parse? {t : OptionType} {s : String} {v : OptionValue}
    (h : parse? t s = some v) : v.type = t := by
  cases t <;> simp only [parse?, Option.map_eq_some_iff, Option.some.injEq] at h
  · obtain ⟨_, _, rfl⟩ := h; rfl
  · obtain ⟨_, _, rfl⟩ := h; rfl
  · subst h; rfl

end OptionValue

end SolverBridge
