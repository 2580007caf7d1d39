import SolverBridge.Proofs.AssignmentGrammar

/-! What an option string does. A text is read as assignments, each behind white space and none
followed by an equals sign, up to a rest that either is white space or starts with a fault: text
that belongs to no assignment, an assignment whose value is the next name, or one that the
registry refuses. Main statement: the assignments before the rest, and only they, have been
carried out in order, so no part of a text is passed over in silence. -/

namespace SolverBridge

open Text Assignment

namespace Assignment

/-! ### Scanning -/

/-- No assignment starts in the first part of a text, up to the second. -/
def NoneStartsIn (stray rest : List Char) : Prop :=
  ∀ a b, stray = a ++ b → b ≠ [] → ¬StartsAssignment (b ++ rest)

theorem noneStartsIn_nil (rest : List Char) : NoneStartsIn [] rest := by
  intro a b whole ne
  exact absurd (List.append_eq_nil_iff.1 whole.symm).2 ne

theorem noneStartsIn_cons {c : Char} {stray rest : List Char} :
    NoneStartsIn (c :: stray) rest ↔
      ¬StartsAssignment (c :: (stray ++ rest)) ∧ NoneStartsIn stray rest := by
  constructor
  · intro h
    refine ⟨h [] (c :: stray) rfl (List.cons_ne_nil _ _), fun a b whole ne => ?_⟩
    exact h (c :: a) b (by rw [whole, List.cons_append]) ne
  · rintro ⟨first, behind⟩ a b whole ne
    cases a with
    | nil =>
      obtain rfl : c :: stray = b := whole
      exact first
    | cons d a =>
      rw [List.cons_append, List.cons.injEq] at whole
      exact behind a b whole.2 ne

theorem noneStartsIn_of_allBlank {gap : List Char} (h : AllBlank gap) (rest : List Char) :
    NoneStartsIn gap rest := by
  induction gap with
  | nil => exact noneStartsIn_nil rest
  | cons c gap ih =>
    refine noneStartsIn_cons.2 ⟨fun starts => ?_, ih fun d hd => h d (List.mem_cons_of_mem _ hd)⟩
    have := stops_cons.1 starts.stops
    rw [h c List.mem_cons_self] at this
    cases this

/-- A text up to the first assignment in it. -/
theorem exists_noneStartsIn (cs : List Char) :
    ∃ stray rest, cs = stray ++ rest ∧ NoneStartsIn stray rest ∧
      (rest = [] ∨ StartsAssignment rest) := by
  induction cs with
  | nil => exact ⟨[], [], rfl, noneStartsIn_nil _, .inl rfl⟩
  | cons c cs ih =>
    by_cases starts : StartsAssignment (c :: cs)
    · exact ⟨[], c :: cs, rfl, noneStartsIn_nil _, .inr starts⟩
    · obtain ⟨stray, rest, rfl, none, next⟩ := ih
      exact ⟨c :: stray, rest, rfl, noneStartsIn_cons.2 ⟨starts, none⟩, next⟩

theorem scanFrom_nil (gap : List Char) : scanFrom gap [] = ([], gap.reverse) := by
  rw [scanFrom]
  split
  next h => simp [at?, name?] at h
  next => rfl

theorem scanFrom_found {gap cs n v rest : List Char} (h : at? cs = some (n, v, rest)) :
    scanFrom gap cs =
      (⟨gap.reverse, n, v, followedByEquals rest⟩ :: (scanFrom [] rest).1,
        (scanFrom [] rest).2) := by
  rw [scanFrom]
  split
  next h' =>
    rw [h] at h'
    cases h'
    rfl
  next h' =>
    rw [h] at h'
    cases h'

/-- Text without an assignment is passed over, and kept for the check. -/
theorem scanFrom_append {gap stray rest : List Char} (h : NoneStartsIn stray rest) :
    scanFrom gap (stray ++ rest) = scanFrom (stray.reverse ++ gap) rest := by
  induction stray generalizing gap with
  | nil => rfl
  | cons c stray ih =>
    rw [noneStartsIn_cons, startsAssignment_iff, not_not] at h
    rw [List.cons_append, scanFrom, List.reverse_cons, List.append_assoc]
    split
    next h' =>
      rw [h.1] at h'
      cases h'
    next => exact ih h.2

/-! ### The text between assignments -/

theorem checkGap_of_allBlank {gap : List Char} (h : AllBlank gap) : checkGap gap = .ok () := by
  rw [checkGap, trim_eq_nil_iff.2 h]

/-- The fault that stray text is reported as. -/
def strayFault (stray : List Char) : OptionError :=
  .invalidValue (String.ofList (firstWord (trim stray))) (String.ofList (trim stray))

theorem checkGap_of_not_allBlank {stray : List Char} (h : ¬AllBlank stray) :
    checkGap stray = .error (strayFault stray) := by
  rw [checkGap]
  split
  next none => exact absurd (trim_eq_nil_iff.1 none) h
  next => rfl

/-! ### Assignments in their places -/

/-- An assignment and the white space before it. -/
structure Placed where
  gap : List Char
  spelling : Spelling
  blank : AllBlank gap

namespace Placed

def chars (p : Placed) : List Char := p.gap ++ p.spelling.chars

def name (p : Placed) : String := String.ofList p.spelling.name

def value (p : Placed) : String := String.ofList p.spelling.value

/-- The value ends before the rest of the text, and no equals sign follows it. -/
def StandsBefore (p : Placed) (rest : List Char) : Prop :=
  p.spelling.EndsBefore rest ∧ followedByEquals rest = false

end Placed

/-- Each of the assignments stands before those behind it and the rest of the text. -/
def Sequenced : List Placed → List Char → Prop
  | [], _ => True
  | p :: parts, rest => p.StandsBefore (parts.flatMap Placed.chars ++ rest) ∧ Sequenced parts rest

end Assignment

namespace OptionRegistry

variable {σ : Type}

/-- Assignments are carried out from left to right, as far as each succeeds. -/
def setTexts (r : OptionRegistry σ) (s : σ) (parts : List Placed) : Except OptionError σ :=
  parts.foldlM (fun s p => r.setText s p.name p.value) s

/-- The text starts with a fault in the given state. -/
inductive FailsAt (r : OptionRegistry σ) (s : σ) : List Char → OptionError → Prop
  /-- Text outside the assignments, up to the next of them or to the end. -/
  | stray {stray rest : List Char} (h : ¬AllBlank stray) (none : NoneStartsIn stray rest)
      (next : rest = [] ∨ StartsAssignment rest) : FailsAt r s (stray ++ rest) (strayFault stray)
  /-- The value is the name of the next option. -/
  | swallowed (p : Placed) {rest : List Char} (ends : p.spelling.EndsBefore rest)
      (equals : followedByEquals rest = true) :
      FailsAt r s (p.chars ++ rest) (.invalidValue p.name "")
  | refused (p : Placed) {rest : List Char} (stands : p.StandsBefore rest) {e : OptionError}
      (h : r.setText s p.name p.value = .error e) : FailsAt r s (p.chars ++ rest) e

variable {r : OptionRegistry σ} {s s' : σ}

theorem applyText_of_none {cs : List Char} (h : NoneStartsIn cs []) :
    r.applyText s (String.ofList cs) = ((checkGap cs).map fun _ => 0, s) := by
  have scanned : scanFrom [] cs = ([], cs) := by
    have passed : scanFrom [] (cs ++ []) = scanFrom (cs.reverse ++ []) [] := scanFrom_append h
    rwa [List.append_nil, List.append_nil, scanFrom_nil, List.reverse_reverse] at passed
  rw [applyText, scan, String.toList_ofList, scanned]
  rfl

/-- The first assignment is carried out, and then the text behind it. -/
theorem applyText_found {stray rest : List Char} {a : Spelling}
    (none : NoneStartsIn stray (a.chars ++ rest)) (ends : a.EndsBefore rest) :
    r.applyText s (String.ofList (stray ++ (a.chars ++ rest))) =
      match r.assign s ⟨stray, a.name, a.value, followedByEquals rest⟩ with
      | .ok s' =>
        ((r.applyText s' (String.ofList rest)).1.map (· + 1),
          (r.applyText s' (String.ofList rest)).2)
      | .error e => (.error e, s) := by
  have found := at?_eq_some_iff.2 ⟨a, rfl, rfl, rfl, ends⟩
  simp only [applyText, scan, String.toList_ofList, scanFrom_append none, scanFrom_found found,
    List.append_nil, List.reverse_reverse, assignAll]
  cases r.assign s ⟨stray, a.name, a.value, followedByEquals rest⟩ with
  | error e => rfl
  | ok s' =>
    dsimp only
    rcases r.assignAll s' (scanFrom [] rest).1 with ⟨_ | _, _⟩
    · rfl
    · dsimp only
      cases checkGap (scanFrom [] rest).2 <;> rfl

theorem assign_of_not_allBlank {stray n v : List Char} {dangling : Bool} (h : ¬AllBlank stray) :
    r.assign s ⟨stray, n, v, dangling⟩ = .error (strayFault stray) := by
  rw [assign, check, checkGap_of_not_allBlank h]
  rfl

theorem assign_of_dangling {gap n v : List Char} (h : AllBlank gap) :
    r.assign s ⟨gap, n, v, true⟩ = .error (.invalidValue (String.ofList n) "") := by
  rw [assign, check, checkGap_of_allBlank h]
  rfl

theorem assign_of_allBlank {gap n v : List Char} (h : AllBlank gap) :
    r.assign s ⟨gap, n, v, false⟩ = r.setText s (String.ofList n) (String.ofList v) := by
  rw [assign, check, checkGap_of_allBlank h]
  rfl

theorem applyText_of_allBlank {cs : List Char} (h : AllBlank cs) :
    r.applyText s (String.ofList cs) = (.ok 0, s) := by
  rw [applyText_of_none (noneStartsIn_of_allBlank h _), checkGap_of_allBlank h]
  rfl

theorem applyText_placed {p : Placed} {rest : List Char} (h : p.StandsBefore rest) :
    r.applyText s (String.ofList (p.chars ++ rest)) =
      match r.setText s p.name p.value with
      | .ok s' =>
        ((r.applyText s' (String.ofList rest)).1.map (· + 1),
          (r.applyText s' (String.ofList rest)).2)
      | .error e => (.error e, s) := by
  rw [Placed.chars, List.append_assoc,
    applyText_found (noneStartsIn_of_allBlank p.blank _) h.1, h.2, assign_of_allBlank p.blank]
  rfl

theorem applyText_failsAt {cs : List Char} {e : OptionError} (h : r.FailsAt s cs e) :
    r.applyText s (String.ofList cs) = (.error e, s) := by
  cases h with
  | stray h none next =>
    rcases next with rfl | starts
    · rw [List.append_nil, applyText_of_none none, checkGap_of_not_allBlank h]
      rfl
    · obtain ⟨a, rest, rfl⟩ := starts
      obtain ⟨b, rest', whole, ends⟩ := a.exists_endsBefore rest
      rw [whole] at none ⊢
      rw [applyText_found none ends, assign_of_not_allBlank h]
  | swallowed p ends equals =>
    rw [Placed.chars, List.append_assoc, applyText_found (noneStartsIn_of_allBlank p.blank _) ends,
      equals, assign_of_dangling p.blank]
    rfl
  | refused p stands h => rw [applyText_placed stands, h]

/-! ### Reading a whole text -/

/-- A text was carried out up to its rest: the parts before the rest succeeded one after the
other and led to the state, and the rest is white space or starts with the fault. -/
structure CarriedOut (r : OptionRegistry σ) (s : σ) (cs : List Char)
    (outcome : Except OptionError Nat) (s' : σ) (parts : List Placed) (rest : List Char) :
    Prop where
  whole : cs = parts.flatMap Placed.chars ++ rest
  sequenced : Sequenced parts rest
  reached : r.setTexts s parts = .ok s'
  ended : (outcome = .ok parts.length ∧ AllBlank rest) ∨
    ∃ e, outcome = .error e ∧ r.FailsAt s' rest e

namespace CarriedOut

variable {cs rest : List Char} {outcome : Except OptionError Nat} {parts : List Placed} {s₁ : σ}

theorem cons {p : Placed} (stands : p.StandsBefore cs) (first : r.setText s p.name p.value = .ok s₁)
    (h : r.CarriedOut s₁ cs outcome s' parts rest) :
    r.CarriedOut s (p.chars ++ cs) (outcome.map (· + 1)) s' (p :: parts) rest where
  whole := by rw [h.whole, List.flatMap_cons, List.append_assoc]
  sequenced := ⟨h.whole ▸ stands, h.sequenced⟩
  reached := by
    rw [setTexts, List.foldlM_cons, first]
    exact h.reached
  ended := by
    rcases h.ended with ⟨rfl, blank⟩ | ⟨e, rfl, fails⟩
    · exact .inl ⟨rfl, blank⟩
    · exact .inr ⟨e, rfl, fails⟩

/-- The parts and the rest of a text determine what it does. -/
theorem applyText_eq (h : r.CarriedOut s cs outcome s' parts rest) :
    r.applyText s (String.ofList cs) = (outcome, s') := by
  induction parts generalizing s cs outcome with
  | nil =>
    obtain ⟨rfl, -, reached, ended⟩ := h
    obtain rfl : s = s' := Except.ok.inj reached
    rcases ended with ⟨rfl, blank⟩ | ⟨e, rfl, fails⟩
    · exact applyText_of_allBlank blank
    · exact applyText_failsAt fails
  | cons p parts ih =>
    obtain ⟨rfl, ⟨stands, sequenced⟩, reached, ended⟩ := h
    rw [setTexts, List.foldlM_cons] at reached
    rw [List.flatMap_cons, List.append_assoc, applyText_placed stands]
    cases first : r.setText s p.name p.value with
    | error e =>
      rw [first] at reached
      cases reached
    | ok s₁ =>
      rw [first] at reached
      dsimp only
      rcases ended with ⟨rfl, blank⟩ | ⟨e, rfl, fails⟩
      · rw [ih ⟨rfl, sequenced, reached, .inl ⟨rfl, blank⟩⟩]
        rfl
      · rw [ih ⟨rfl, sequenced, reached, .inr ⟨e, rfl, fails⟩⟩]
        rfl

end CarriedOut

/-- By recursion on the text behind the first assignment, which is shorter. -/
theorem exists_carriedOut (r : OptionRegistry σ) (s : σ) (cs : List Char) :
    ∃ outcome s' parts rest, r.CarriedOut s cs outcome s' parts rest := by
  obtain ⟨stray, behind, rfl, none, next⟩ := exists_noneStartsIn cs
  by_cases blank : AllBlank stray
  · rcases next with rfl | starts
    · exact ⟨.ok 0, s, [], stray ++ [], rfl, trivial, rfl, .inl ⟨rfl, by rwa [List.append_nil]⟩⟩
    · obtain ⟨a, more, rfl⟩ := starts
      obtain ⟨b, more', whole, ends⟩ := a.exists_endsBefore more
      let p : Placed := ⟨stray, b, blank⟩
      have placed : stray ++ (a.chars ++ more) = p.chars ++ more' := by
        rw [whole, Placed.chars, List.append_assoc]
      have shorter : more'.length < (stray ++ (a.chars ++ more)).length := by
        obtain ⟨c, name, hn, -⟩ := b.isName
        rw [placed, Placed.chars, Spelling.chars, hn]
        simp only [List.length_append, List.length_cons]
        omega
      rw [placed]
      cases equals : followedByEquals more' with
      | true => exact ⟨_, s, [], _, rfl, trivial, rfl, .inr ⟨_, rfl, .swallowed p ends equals⟩⟩
      | false =>
        cases first : r.setText s p.name p.value with
        | error e =>
          exact ⟨_, s, [], _, rfl, trivial, rfl, .inr ⟨e, rfl, .refused p ⟨ends, equals⟩ first⟩⟩
        | ok s₁ =>
          obtain ⟨outcome, s', parts, rest, h⟩ := exists_carriedOut r s₁ more'
          exact ⟨_, s', _, rest, h.cons ⟨ends, equals⟩ first⟩
  · exact ⟨_, s, [], _, rfl, trivial, rfl, .inr ⟨_, rfl, .stray blank none next⟩⟩
termination_by cs.length

/-- An option string gives an outcome and a state exactly when it is laid out as assignments that
succeed one after the other and lead to the state, with a rest of white space after all of
them, or with a rest that starts with the fault. -/
theorem applyText_eq_iff (r : OptionRegistry σ) (s : σ) (text : String)
    (outcome : Except OptionError Nat) (s' : σ) :
    r.applyText s text = (outcome, s') ↔
      ∃ parts rest, r.CarriedOut s text.toList outcome s' parts rest := by
  constructor
  · intro h
    obtain ⟨outcome', s'', parts, rest, carried⟩ := exists_carriedOut r s text.toList
    have := carried.applyText_eq
    rw [String.ofList_toList, h] at this
    cases this
    exact ⟨parts, rest, carried⟩
  · rintro ⟨parts, rest, carried⟩
    have := carried.applyText_eq
    rwa [String.ofList_toList] at this

end OptionRegistry

end SolverBridge
