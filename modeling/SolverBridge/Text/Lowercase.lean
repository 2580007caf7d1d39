import SolverBridge.Text.Blank
import SolverBridge.Text.CaseTable

/-! Lower case for all scripts. Every character has one lower case partner, with two
exceptions: the dotted capital i becomes two characters, and a capital sigma at the
end of a word becomes the final form of the letter. A word ends where no cased letter
follows, once characters that do not separate letters are skipped. -/

namespace SolverBridge.Text

def inRun (run : Nat × Nat × Nat × Int) (c : Char) : Bool :=
  let (first, last, step, _) := run
  first ≤ c.toNat && c.toNat ≤ last && (c.toNat - first) % step == 0

/-- The lower case partner of a character, or the character itself. -/
def lowerChar (c : Char) : Char :=
  match lowerRuns.find? (inRun · c) with
  | some (_, _, _, offset) => Char.ofNat ((c.toNat : Int) + offset).toNat
  | none => c

def isCased (c : Char) : Bool := inRanges casedRanges c

def isCaseIgnorable (c : Char) : Bool := inRanges caseIgnorableRanges c

/-- The nearest character that is not ignorable is a cased letter. -/
def meetsCased (cs : List Char) : Bool :=
  ((cs.dropWhile isCaseIgnorable).head?.map isCased).getD false

/-- Lower case of the second list, given the characters before it in reverse. -/
def lowerAfter : List Char → List Char → List Char
  | _, [] => []
  | before, 'Σ' :: rest =>
    (if meetsCased before && !meetsCased rest then 'ς' else 'σ') :: lowerAfter ('Σ' :: before) rest
  | before, 'İ' :: rest => 'i' :: '\u0307' :: lowerAfter ('İ' :: before) rest
  | before, c :: rest => lowerChar c :: lowerAfter (c :: before) rest

def lowercase (s : String) : String := String.ofList (lowerAfter [] s.toList)

end SolverBridge.Text
