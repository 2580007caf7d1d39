import SolverBridge.Text.Blank
import SolverBridge.Text.WidthTable

/-! The number of columns that a text takes on display. A colour sequence, from an
escape character and an opening bracket to the letter `m`, takes none. -/

namespace SolverBridge.Text

def charWidth (c : Char) : Nat :=
  if inRanges zeroWidthRanges c then 0 else if inRanges wideRanges c then 2 else 1

/-- Where a reader stands with respect to colour sequences. -/
inductive ColourState
  | outside
  | escaped
  | inside
  deriving DecidableEq

def ColourState.next : ColourState → Char → ColourState
  | .outside, '\x1b' => .escaped
  | .escaped, '[' => .inside
  | .escaped, _ => .outside
  | .inside, 'm' => .outside
  | state, _ => state

/-- Whether a character counts, read in a state. -/
def ColourState.shows : ColourState → Char → Bool
  | .outside, _ => true
  | .escaped, c => c ≠ '['
  | .inside, _ => false

def displayWidthFrom : ColourState → List Char → Nat
  | _, [] => 0
  | state, c :: cs =>
    (if state.shows c then charWidth c else 0) + displayWidthFrom (state.next c) cs

def displayWidth (s : String) : Nat := displayWidthFrom .outside s.toList

end SolverBridge.Text
