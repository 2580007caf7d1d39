/-! Numbers read from text. An integer is an optional sign and decimal digits and
must fit 64 bits. A decimal is an optional sign followed by `inf`, `infinity` or
`nan` in any letter case, or by digits with at most one point and an optional
exponent; at least one digit stands before the exponent. Blanks are not skipped
here, and only the ten ASCII digits count. -/

namespace SolverBridge.Decimal

/-- The value of a run of decimal digits. -/
def digitsValue (ds : List Char) : Nat :=
  ds.foldl (fun n d => 10 * n + (d.toNat - '0'.toNat)) 0

/-- Takes off one sign; true for a minus. -/
def takeSign : List Char → Bool × List Char
  | '-' :: cs => (true, cs)
  | '+' :: cs => (false, cs)
  | cs => (false, cs)

/-- All characters are digits, and there is one. -/
def natural? (cs : List Char) : Option Nat :=
  if cs ≠ [] ∧ cs.all Char.isDigit then some (digitsValue cs) else none

def signed (negative : Bool) (n : Nat) : Int := if negative then -n else n

/-- A signed integer without a bound. -/
def integer? (cs : List Char) : Option Int :=
  let (negative, rest) := takeSign cs
  (natural? rest).map (signed negative)

/-- A signed integer of 64 bits. -/
def int64? (s : String) : Option Int64 :=
  (integer? s.toList).bind fun i =>
    if Int64.minValue.toInt ≤ i ∧ i ≤ Int64.maxValue.toInt then some (Int64.ofInt i) else none

/-- Reads `digits` and a point `fraction` places from the right: the value of
`digits * 10 ^ (exponent - fraction)`, where far exponents need no arithmetic. -/
def assemble (whole fraction : List Char) (exponent : Int) : Float :=
  let n := digitsValue (whole ++ fraction)
  let e := exponent - fraction.length
  if n = 0 then 0
  else if (whole.length + fraction.length : Int) + e < -400 then 0
  else if 400 < e then 1 / 0
  else if e < 0 then Float.ofScientific n true e.natAbs
  else Float.ofScientific n false e.natAbs

/-- The exponent, from the mark `e` on. -/
def exponent? : List Char → Option Int
  | [] => some 0
  | c :: cs => if c = 'e' ∨ c = 'E' then integer? cs else none

/-- An unsigned decimal in digits. -/
def decimal? (cs : List Char) : Option Float :=
  let whole := cs.takeWhile Char.isDigit
  let rest := cs.dropWhile Char.isDigit
  let (fraction, tail) := match rest with
    | '.' :: r => (r.takeWhile Char.isDigit, r.dropWhile Char.isDigit)
    | r => ([], r)
  if whole = [] ∧ fraction = [] then none
  else (exponent? tail).map (assemble whole fraction)

/-- The named values, in lower case. -/
def named? (word : String) : Option Float :=
  if word = "inf" ∨ word = "infinity" then some (1 / 0)
  else if word = "nan" then some (0 / 0)
  else none

/-- A signed decimal. -/
def float? (s : String) : Option Float :=
  let (negative, cs) := takeSign s.toList
  let magnitude := match named? (String.ofList (cs.map Char.toLower)) with
    | some x => some x
    | none => decimal? cs
  magnitude.map fun x => if negative then -x else x

end SolverBridge.Decimal
