import SolverBridge.Decimal.Shortest

/-! Numbers as text. A finite number is written with the fewest digits that read
back, positionally and never with an exponent: zeros fill the places up to the
point, and a fraction is written only when there is one. The sign of zero is kept;
the infinities are `inf` and `-inf`, the undefined value is `NaN`. -/

namespace SolverBridge.Decimal

/-- Positional notation of `digits * 10 ^ exponent`. -/
def Scientific.positional (x : Scientific) : String :=
  let ds := Nat.toDigits 10 x.digits
  let places := (-x.exponent).toNat
  if places = 0 then String.ofList (ds ++ List.replicate x.exponent.toNat '0')
  else
    let whole := ds.length - places
    if whole = 0 then
      "0." ++ String.ofList (List.replicate (places - ds.length) '0' ++ ds)
    else String.ofList (ds.take whole ++ '.' :: ds.drop whole)

/-- The magnitude in a word of sign, eleven exponent bits and 52 fraction bits:
`none` when it is not a positive finite number. -/
def Binary.ofBits? (word : UInt64) : Option Binary :=
  let exponent := ((word >>> 52) &&& 0x7ff).toNat
  let fraction := (word &&& 0xfffffffffffff).toNat
  if exponent = 0x7ff then none
  else if exponent = 0 then
    if fraction = 0 then none else some ⟨fraction, -1074, false⟩
  else some ⟨0x10000000000000 + fraction, (exponent : Int) - 1075, fraction == 0 && 1 < exponent⟩

end SolverBridge.Decimal

namespace SolverBridge

/-- The text of a number. -/
def Decimal.text (x : Float) : String :=
  if x.isNaN then "NaN"
  else
    let magnitude :=
      if x.isInf then "inf"
      else ((Decimal.Binary.ofBits? x.toBits).map fun b => b.shortest.positional).getD "0"
    if x.toBits >>> 63 == 1 then "-" ++ magnitude else magnitude

/-- Numbers that have a written form. -/
class Numeral (α : Type) where
  text : α → String

instance : Numeral Float where
  text := Decimal.text

end SolverBridge
