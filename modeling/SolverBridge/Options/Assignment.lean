import SolverBridge.Options.Registry

/-! Option strings. An assignment is a name, a separator and a value. A name starts with a
letter or an underscore and goes on with letters, digits, underscores and points; the
separator is an equals sign with any white space around it, or white space; a value is a
quoted run or a run without white space, quotes and equals signs. Assignments are looked
for from left to right, and each takes as much as it can. What lies between them must be
white space, and none may be followed by an equals sign, because its value would then be
the name of the next one. The options are set in order up to the first fault. -/

namespace SolverBridge

namespace Assignment

def isNameStart (c : Char) : Bool := c.isAlpha || c == '_'

def isNameRest (c : Char) : Bool := c.isAlphanum || c == '_' || c == '.'

def isBareValue (c : Char) : Bool := !Text.isBlank c && c != '"' && c != '\'' && c != '='

/-- A name at the start of a text, and what follows it. -/
def name? : List Char → Option (List Char × List Char)
  | [] => none
  | c :: cs =>
    if isNameStart c then some (c :: cs.takeWhile isNameRest, cs.dropWhile isNameRest) else none

/-- What follows a separator at the start of a text. -/
def afterSeparator? (cs : List Char) : Option (List Char) :=
  match Text.trimStart cs with
  | '=' :: rest => some (Text.trimStart rest)
  | rest => if rest.length < cs.length then some rest else none

/-- A run up to the closing quote, quotes included, and what follows it. -/
def quotedRun? (quote : Char) (cs : List Char) : Option (List Char × List Char) :=
  match cs.dropWhile (· != quote) with
  | _ :: rest => some (quote :: cs.takeWhile (· != quote) ++ [quote], rest)
  | [] => none

/-- A value at the start of a text, and what follows it. -/
def value? : List Char → Option (List Char × List Char)
  | '"' :: cs => quotedRun? '"' cs
  | '\'' :: cs => quotedRun? '\'' cs
  | cs =>
    match cs.takeWhile isBareValue with
    | [] => none
    | v => some (v, cs.dropWhile isBareValue)

theorem length_dropWhile_le (p : Char → Bool) (cs : List Char) :
    (cs.dropWhile p).length ≤ cs.length := (List.dropWhile_suffix p).length_le

theorem length_name? {cs n rest : List Char} (h : name? cs = some (n, rest)) :
    rest.length < cs.length := by
  cases cs with
  | nil => cases h
  | cons c cs =>
    simp only [name?] at h
    split at h
    · cases h
      exact Nat.lt_succ_of_le (length_dropWhile_le isNameRest cs)
    · cases h

theorem length_afterSeparator? {cs rest : List Char} (h : afterSeparator? cs = some rest) :
    rest.length ≤ cs.length := by
  have trimmed := length_dropWhile_le Text.isBlank cs
  unfold afterSeparator? at h
  split at h
  · rename_i r hr
    cases h
    have inner := length_dropWhile_le Text.isBlank r
    have outer : (Text.trimStart cs).length = r.length + 1 := by rw [hr]; rfl
    simp only [Text.trimStart] at outer ⊢
    omega
  · split at h
    · cases h
      exact trimmed
    · cases h

theorem length_value? {cs v rest : List Char} (h : value? cs = some (v, rest)) :
    rest.length ≤ cs.length := by
  have quotes : ∀ (q : Char) (cs v rest : List Char), quotedRun? q cs = some (v, rest) →
      rest.length ≤ cs.length := by
    intro q cs v rest h
    have whole := length_dropWhile_le (· != q) cs
    simp only [quotedRun?] at h
    split at h
    · rename_i c r hr
      cases h
      rw [hr, List.length_cons] at whole
      omega
    · cases h
  unfold value? at h
  split at h
  · exact Nat.le_succ_of_le (quotes _ _ _ _ h)
  · exact Nat.le_succ_of_le (quotes _ _ _ _ h)
  · split at h
    · cases h
    · cases h
      exact length_dropWhile_le _ _

/-- An assignment at the start of a text: its name, its value and what follows. -/
def at? (cs : List Char) : Option (List Char × List Char × List Char) :=
  (name? cs).bind fun (n, r) =>
    (afterSeparator? r).bind fun r => (value? r).map fun (v, r) => (n, v, r)

theorem length_at? {cs n v rest : List Char} (h : at? cs = some (n, v, rest)) :
    rest.length < cs.length := by
  simp only [at?, Option.bind_eq_some_iff, Option.map_eq_some_iff, Prod.exists,
    Prod.mk.injEq] at h
  obtain ⟨_, _, hn, _, hs, _, _, hv, rfl, rfl, rfl⟩ := h
  have := length_name? hn
  have := length_afterSeparator? hs
  have := length_value? hv
  omega

end Assignment

/-- A part of an option string: the text before an assignment, its name and value as
written, and whether an equals sign follows. -/
structure Assignment where
  gap : List Char
  name : List Char
  value : List Char
  dangling : Bool
  deriving DecidableEq, Repr

namespace Assignment

/-- An equals sign follows, after any white space. -/
def followedByEquals (cs : List Char) : Bool := (Text.trimStart cs).head? == some '='

/-- The assignments of a text, given the text read since the last one in reverse, and the
text after the last assignment. -/
def scanFrom (gap cs : List Char) : List Assignment × List Char :=
  match _h : at? cs with
  | some (n, v, rest) =>
    let (found, last) := scanFrom [] rest
    (⟨gap.reverse, n, v, followedByEquals rest⟩ :: found, last)
  | none =>
    match cs with
    | [] => ([], gap.reverse)
    | c :: cs => scanFrom (c :: gap) cs
termination_by cs.length
decreasing_by
  · exact length_at? _h
  · simp

def scan (text : String) : List Assignment × List Char := scanFrom [] text.toList

/-- Text outside the assignments must be white space; the fault names its first word. -/
def checkGap (gap : List Char) : Except OptionError Unit :=
  match Text.trim gap with
  | [] => .ok ()
  | stray =>
    .error (.invalidValue (String.ofList (Text.firstWord stray)) (String.ofList stray))

/-- Nothing stands before the assignment, and its value is not the next name. -/
def check (a : Assignment) : Except OptionError Unit :=
  (checkGap a.gap).bind fun _ =>
    if a.dangling then .error (.invalidValue (String.ofList a.name) "") else .ok ()

end Assignment

namespace OptionRegistry

variable {σ : Type}

/-- Carries out one assignment. -/
def assign (r : OptionRegistry σ) (s : σ) (a : Assignment) : Except OptionError σ :=
  a.check.bind fun _ => r.setText s (String.ofList a.name) (String.ofList a.value)

/-- Carries out assignments up to the first fault: the outcome and the state reached. -/
def assignAll (r : OptionRegistry σ) : σ → List Assignment → Except OptionError Unit × σ
  | s, [] => (.ok (), s)
  | s, a :: rest =>
    match r.assign s a with
    | .ok s' => assignAll r s' rest
    | .error e => (.error e, s)

/-- Applies an option string: the number of options set or the first fault, and the state
reached. -/
def applyText (r : OptionRegistry σ) (s : σ) (text : String) : Except OptionError Nat × σ :=
  let (found, last) := Assignment.scan text
  match r.assignAll s found with
  | (.ok (), s') => ((Assignment.checkGap last).map fun _ => found.length, s')
  | (.error e, s') => (.error e, s')

end OptionRegistry

end SolverBridge
