/-! The fewest decimal digits that read back to a binary number. A positive finite
number is `m * 2 ^ q`. The reals that round to it form an interval reaching half a
unit up and half a unit down (a quarter down at a power of two, where the next
smaller number is closer), with its ends included when `m` is even. On a decimal
grid of step `10 ^ s` the only useful candidates are the two neighbours of the
value, so the grids are tried from coarse to fine and the first one with a
neighbour inside the interval decides. Of two such neighbours the nearer is
taken, and an exact tie goes up. All comparisons are between natural numbers. -/

namespace SolverBridge.Decimal

/-- The positive number `significand * 2 ^ exponent`; `narrowBelow` says that its
lower neighbour lies at half the usual distance. -/
structure Binary where
  significand : Nat
  exponent : Int
  narrowBelow : Bool
  deriving DecidableEq, Repr

/-- The number `digits * 10 ^ exponent`. -/
structure Scientific where
  digits : Nat
  exponent : Int
  deriving DecidableEq, Repr

namespace Binary

/-- The factors `(a, b)` for which a quarter unit of `2 ^ q` is `a / b` steps of `10 ^ s`. -/
def quarterSteps (q s : Int) : Nat × Nat :=
  (Nat.pow 2 (q - 2).toNat * Nat.pow 10 (-s).toNat,
    Nat.pow 2 (2 - q).toNat * Nat.pow 10 s.toNat)

/-- In the interval from `lower` to `upper`, ends included when `closed`. -/
def inside (closed : Bool) (lower x upper : Nat) : Bool :=
  if closed then lower ≤ x && x ≤ upper else lower < x && x < upper

/-- The decimal `g * 10 ^ s` lies in the interval that rounds to the number. -/
def readsBack (b : Binary) (s : Int) (g : Nat) : Bool :=
  let (a, d) := quarterSteps b.exponent s
  inside (b.significand % 2 == 0) ((4 * b.significand - if b.narrowBelow then 1 else 2) * a)
    (g * d) ((4 * b.significand + 2) * a)

/-- The number in whole steps of `10 ^ s`, rounded down. -/
def gridFloor (b : Binary) (s : Int) : Nat :=
  let (a, d) := quarterSteps b.exponent s
  4 * b.significand * a / d

/-- The number lies closer to `g` steps of `10 ^ s` than to the next one. -/
def belowMiddle (b : Binary) (s : Int) (g : Nat) : Bool :=
  let (a, d) := quarterSteps b.exponent s
  2 * (4 * b.significand * a) < (2 * g + 1) * d

/-- The neighbour on the grid of step `10 ^ s` that reads back, if any. -/
def gridPoint? (b : Binary) (s : Int) : Option Nat :=
  let g := b.gridFloor s
  if g ≠ 0 ∧ b.readsBack s g ∧ (b.readsBack s (g + 1) → b.belowMiddle s g) then some g
  else if b.readsBack s (g + 1) then some (g + 1)
  else none

/-- Tries `n` grids, the coarsest of step `10 ^ s`; past them the value is cut off. -/
def searchFrom (b : Binary) : Nat → Int → Scientific
  | 0, s => ⟨b.gridFloor s, s⟩
  | n + 1, s =>
    match b.gridPoint? s with
    | some g => ⟨g, s⟩
    | none => searchFrom b n (s - 1)

/-- A power of ten that is no smaller than the number, or at most one step below it:
`30103 / 100000` exceeds the decimal logarithm of two by less than `5e-9`. -/
def topExponent (b : Binary) : Int :=
  (b.significand.log2 + 1 + b.exponent) * 30103 / 100000 + 1

/-- Seventeen digits always read back, and the search starts up to two grids early. -/
def shortest (b : Binary) : Scientific := b.searchFrom 20 b.topExponent

/-- What a grid offers reads back. -/
theorem readsBack_of_gridPoint? {b : Binary} {s : Int} {g : Nat} (h : b.gridPoint? s = some g) :
    b.readsBack s g = true := by
  simp only [gridPoint?] at h
  split at h
  · rename_i hd
    cases h
    exact hd.2.1
  · split at h
    · rename_i hu
      cases h
      exact hu
    · cases h

end Binary

end SolverBridge.Decimal
