import SolverBridge.Options.Assignment
import Mathlib.Data.List.TakeWhile

/-! The grammar of assignments, stated apart from the scanner that finds them. An assignment is
a name, a separator and a value, each from its own class of texts. A text can be cut into
these in several ways, since a bare value may be cut short; the scanner takes the one whose
value goes on as far as it can. Main statements: the scanner finds an assignment at the start of a
text exactly when the grammar has one there, and then it finds the longest. -/

namespace SolverBridge

namespace Text

/-- Nothing but white space. -/
def AllBlank (cs : List Char) : Prop := ∀ c ∈ cs, isBlank c = true

instance (cs : List Char) : Decidable (AllBlank cs) := List.decidableBAll _ cs

/-- No run of characters of the class goes on at the start of the text. -/
def Stops (p : Char → Bool) (cs : List Char) : Prop := ∀ c ∈ cs.head?, p c = false

theorem stops_nil (p : Char → Bool) : Stops p [] := nofun

theorem stops_cons {p : Char → Bool} {c : Char} {cs : List Char} :
    Stops p (c :: cs) ↔ p c = false := by simp [Stops]

theorem takeWhile_of_stops {p : Char → Bool} {cs : List Char} (h : Stops p cs) :
    cs.takeWhile p = [] := by
  cases cs with
  | nil => rfl
  | cons c cs => simp [stops_cons.1 h]

theorem dropWhile_of_stops {p : Char → Bool} {cs : List Char} (h : Stops p cs) :
    cs.dropWhile p = cs := by
  cases cs with
  | nil => rfl
  | cons c cs => simp [stops_cons.1 h]

theorem takeWhile_append_of_stops {p : Char → Bool} {cs rest : List Char}
    (h : ∀ c ∈ cs, p c = true) (hr : Stops p rest) : (cs ++ rest).takeWhile p = cs := by
  rw [List.takeWhile_append_of_pos h, takeWhile_of_stops hr, List.append_nil]

theorem dropWhile_append_of_stops {p : Char → Bool} {cs rest : List Char}
    (h : ∀ c ∈ cs, p c = true) (hr : Stops p rest) : (cs ++ rest).dropWhile p = rest := by
  rw [List.dropWhile_append_of_pos h, dropWhile_of_stops hr]

theorem stops_dropWhile (p : Char → Bool) (cs : List Char) : Stops p (cs.dropWhile p) := by
  intro c hc
  have := List.head?_dropWhile_not p cs
  rw [Option.mem_def.1 hc] at this
  exact this

theorem trimStart_append {gap : List Char} (h : AllBlank gap) (cs : List Char) :
    trimStart (gap ++ cs) = trimStart cs := List.dropWhile_append_of_pos h

theorem trimStart_of_stops {cs : List Char} (h : Stops isBlank cs) : trimStart cs = cs :=
  dropWhile_of_stops h

theorem stops_trimStart (cs : List Char) : Stops isBlank (trimStart cs) := stops_dropWhile _ _

theorem trimStart_eq_nil_iff {cs : List Char} : trimStart cs = [] ↔ AllBlank cs :=
  List.dropWhile_eq_nil_iff

theorem trim_eq_nil_iff {cs : List Char} : trim cs = [] ↔ AllBlank cs := by
  rw [trim, trimEnd, List.reverse_eq_nil_iff, List.dropWhile_eq_nil_iff]
  simp only [List.mem_reverse]
  constructor
  · intro h
    rw [← trimStart_eq_nil_iff]
    -- what is left would start with a character that is not blank
    rcases hs : trimStart cs with _ | ⟨c, rest⟩
    · rfl
    · have first : isBlank c = false := stops_cons.1 (hs ▸ stops_trimStart cs)
      rw [h c (hs ▸ List.mem_cons_self)] at first
      cases first
  · intro h c hc
    rw [trimStart_eq_nil_iff.2 h] at hc
    cases hc

/-- A text is the white space at its start and the rest. -/
theorem exists_trimStart (cs : List Char) : ∃ gap, AllBlank gap ∧ cs = gap ++ trimStart cs :=
  ⟨cs.takeWhile isBlank, fun _ => List.mem_takeWhile_imp, List.takeWhile_append_dropWhile.symm⟩

end Text

namespace Assignment

open Text

/-! ### Classes of characters -/

theorem toNat_of_isNameRest {c : Char} (h : isNameRest c = true) :
    0x21 ≤ c.toNat ∧ c.toNat ≤ 0x7a := by
  have between {low high : UInt32}
      (h : (decide (low ≤ c.val) && decide (c.val ≤ high)) = true) :
      low.toNat ≤ c.toNat ∧ c.toNat ≤ high.toNat := by
    rwa [Bool.and_eq_true, decide_eq_true_iff, decide_eq_true_iff, UInt32.le_iff_toNat_le,
      UInt32.le_iff_toNat_le] at h
  have upper : c.isUpper = (decide ('A'.val ≤ c.val) && decide (c.val ≤ 'Z'.val)) :=
    Bool.decide_and _ _
  have letter : c.isAlpha = (c.isUpper || c.isLower) := rfl
  simp only [isNameRest, Char.isAlphanum, letter, upper, Bool.or_eq_true, beq_iff_eq] at h
  rcases h with (((h | h) | h) | rfl) | rfl
  · exact ⟨Nat.le_trans (by decide) (between h).1, Nat.le_trans (between h).2 (by decide)⟩
  · exact ⟨Nat.le_trans (by decide) (between h).1, Nat.le_trans (between h).2 (by decide)⟩
  · exact ⟨Nat.le_trans (by decide) (between h).1, Nat.le_trans (between h).2 (by decide)⟩
  · decide
  · decide

theorem toNat_of_isBlank {c : Char} (h : isBlank c = true) : c.toNat ≤ 0x20 ∨ 0x85 ≤ c.toNat := by
  simp only [isBlank, inRanges, blankRanges, List.any_cons, List.any_nil, Bool.or_false,
    Bool.or_eq_true, Bool.and_eq_true, decide_eq_true_eq] at h
  omega

theorem isNameRest_of_isBlank {c : Char} (h : isBlank c = true) : isNameRest c = false := by
  rw [← Bool.not_eq_true]
  intro hn
  have := toNat_of_isNameRest hn
  have := toNat_of_isBlank h
  omega

theorem isNameRest_of_isNameStart {c : Char} (h : isNameStart c = true) : isNameRest c = true := by
  simp only [isNameStart, isNameRest, Char.isAlphanum, Bool.or_eq_true] at h ⊢
  rcases h with h | h
  · exact .inl (.inl (.inl h))
  · exact .inl (.inr h)

theorem isBlank_of_isNameStart {c : Char} (h : isNameStart c = true) : isBlank c = false := by
  rw [← Bool.not_eq_true]
  intro blank
  have := isNameRest_of_isBlank blank
  rw [isNameRest_of_isNameStart h] at this
  cases this

theorem isBlank_of_isBareValue {c : Char} (h : isBareValue c = true) : isBlank c = false := by
  simp only [isBareValue, Bool.and_eq_true, Bool.not_eq_true'] at h
  exact h.1.1.1

theorem ne_equals_of_isBareValue {c : Char} (h : isBareValue c = true) : c ≠ '=' := by
  rintro rfl
  exact absurd h (by decide)

/-! ### The grammar -/

/-- A letter or an underscore, then letters, digits, underscores and points. -/
def IsName (cs : List Char) : Prop :=
  ∃ c rest, cs = c :: rest ∧ isNameStart c = true ∧ ∀ d ∈ rest, isNameRest d = true

/-- An equals sign with any white space around it, or white space. -/
inductive IsSeparator : List Char → Prop
  | equals {before after : List Char} (hb : AllBlank before) (ha : AllBlank after) :
      IsSeparator (before ++ '=' :: after)
  | blanks {cs : List Char} (ne : cs ≠ []) (h : AllBlank cs) : IsSeparator cs

def IsQuote (q : Char) : Prop := q = '"' ∨ q = '\''

/-- A run between two equal quotes, or a run without white space, quotes and equals signs. -/
inductive IsValue : List Char → Prop
  | quoted {q : Char} {cs : List Char} (hq : IsQuote q) (h : q ∉ cs) : IsValue (q :: cs ++ [q])
  | bare {cs : List Char} (ne : cs ≠ []) (h : ∀ c ∈ cs, isBareValue c = true) : IsValue cs

/-- The parts of an assignment as they stand in a text. -/
structure Spelling where
  name : List Char
  separator : List Char
  value : List Char
  isName : IsName name
  isSeparator : IsSeparator separator
  isValue : IsValue value

namespace Spelling

def chars (a : Spelling) : List Char := a.name ++ (a.separator ++ a.value)

/-- A bare value does not go on in the text behind the assignment. -/
def EndsBefore (a : Spelling) (rest : List Char) : Prop :=
  (∀ c ∈ a.value, isBareValue c = true) → Stops isBareValue rest

end Spelling

/-! ### Names -/

theorem name?_eq_some_iff {cs n rest : List Char} :
    name? cs = some (n, rest) ↔ cs = n ++ rest ∧ IsName n ∧ Stops isNameRest rest := by
  constructor
  · intro h
    cases cs with
    | nil => cases h
    | cons c cs =>
      rw [name?] at h
      split at h
      next start =>
        cases h
        exact ⟨by rw [List.cons_append, List.takeWhile_append_dropWhile],
          ⟨c, _, rfl, start, fun d => List.mem_takeWhile_imp⟩, stops_dropWhile _ _⟩
      next => cases h
  · rintro ⟨rfl, ⟨c, more, rfl, start, run⟩, stops⟩
    rw [List.cons_append, name?, if_pos start, takeWhile_append_of_stops run stops,
      dropWhile_append_of_stops run stops]

/-! ### Separators -/

theorem IsSeparator.stops {sep : List Char} (h : IsSeparator sep) (rest : List Char) :
    Stops isNameRest (sep ++ rest) := by
  cases h with
  | @equals before after hb _ =>
    cases before with
    | nil => exact stops_cons.2 (by decide)
    | cons c before => exact stops_cons.2 (isNameRest_of_isBlank (hb c List.mem_cons_self))
  | blanks ne h =>
    cases sep with
    | nil => exact absurd rfl ne
    | cons c sep => exact stops_cons.2 (isNameRest_of_isBlank (h c List.mem_cons_self))

theorem exists_separator {cs rest : List Char} (h : afterSeparator? cs = some rest) :
    ∃ sep, IsSeparator sep ∧ cs = sep ++ rest := by
  obtain ⟨before, hb, hcs⟩ := exists_trimStart cs
  rw [afterSeparator?] at h
  split at h
  next r hr =>
    obtain ⟨after, ha, hafter⟩ := exists_trimStart r
    cases h
    refine ⟨before ++ '=' :: after, .equals hb ha, ?_⟩
    rw [List.append_assoc, List.cons_append, ← hafter, ← hr, ← hcs]
  next =>
    split at h
    next shorter =>
      cases h
      refine ⟨before, .blanks ?_ hb, hcs⟩
      rintro rfl
      rw [List.nil_append] at hcs
      rw [← hcs] at shorter
      exact absurd shorter (Nat.lt_irrefl _)
    next => cases h

/-- A separator is read whole before anything that can start a value. -/
theorem afterSeparator?_append {sep rest : List Char} (h : IsSeparator sep)
    (stops : Stops isBlank rest) (noEquals : rest.head? ≠ some '=') :
    afterSeparator? (sep ++ rest) = some rest := by
  cases h with
  | equals hb ha =>
    rw [afterSeparator?, List.append_assoc, trimStart_append hb, List.cons_append,
      trimStart_of_stops (stops_cons.2 (by decide))]
    simp only [trimStart_append ha, trimStart_of_stops stops]
  | blanks ne h =>
    have shorter : rest.length < (sep ++ rest).length := by
      rw [List.length_append]
      have := List.length_pos_iff.2 ne
      omega
    rw [afterSeparator?, trimStart_append h, trimStart_of_stops stops]
    split
    next => exact absurd rfl noEquals
    next => rw [if_pos shorter]

/-! ### Values -/

theorem IsValue.stops {v : List Char} (h : IsValue v) (rest : List Char) :
    Stops isBlank (v ++ rest) ∧ (v ++ rest).head? ≠ some '=' := by
  cases h with
  | quoted hq _ => rcases hq with rfl | rfl <;> exact ⟨stops_cons.2 (by decide), by simp⟩
  | bare ne h =>
    cases v with
    | nil => exact absurd rfl ne
    | cons c v =>
      have hc := h c List.mem_cons_self
      refine ⟨stops_cons.2 (isBlank_of_isBareValue hc), ?_⟩
      simpa using ne_equals_of_isBareValue hc

theorem quotedRun?_eq_some_iff {q : Char} {cs v rest : List Char} :
    quotedRun? q cs = some (v, rest) ↔
      ∃ inner, v = q :: inner ++ [q] ∧ q ∉ inner ∧ cs = inner ++ q :: rest := by
  have run {inner : List Char} (h : q ∉ inner) : ∀ c ∈ inner, (c != q) = true := by
    intro c hc
    rw [bne_iff_ne]
    rintro rfl
    exact h hc
  have stop (rest : List Char) : Stops (· != q) (q :: rest) := stops_cons.2 (by simp)
  constructor
  · intro h
    have split := List.takeWhile_append_dropWhile (p := (· != q)) (l := cs)
    have stops := stops_dropWhile (· != q) cs
    rw [quotedRun?] at h
    split at h
    next c r hr =>
      cases h
      rw [hr] at split stops
      obtain rfl : c = q := by simpa using stops_cons.1 stops
      exact ⟨_, rfl, fun hq => by simpa using List.mem_takeWhile_imp hq, split.symm⟩
    next => cases h
  · rintro ⟨inner, rfl, h, rfl⟩
    rw [quotedRun?, dropWhile_append_of_stops (run h) (stop rest),
      takeWhile_append_of_stops (run h) (stop rest)]

/-- A text that starts with a quote has no bare value at its start. -/
theorem stops_isBareValue_quote {q : Char} (h : IsQuote q) (cs : List Char) :
    Stops isBareValue (q :: cs) := by
  rcases h with rfl | rfl <;> exact stops_cons.2 (by decide)

theorem value?_quote {q : Char} (h : IsQuote q) (cs : List Char) :
    value? (q :: cs) = quotedRun? q cs := by
  rcases h with rfl | rfl <;> rfl

theorem value?_bare {cs : List Char} (h : ∀ q rest, IsQuote q → cs ≠ q :: rest) :
    value? cs = if cs.takeWhile isBareValue = [] then none
      else some (cs.takeWhile isBareValue, cs.dropWhile isBareValue) := by
  unfold value?
  split
  next => exact absurd rfl (h _ _ (.inl rfl))
  next => exact absurd rfl (h _ _ (.inr rfl))
  next =>
    split
    next hv => rw [if_pos hv]
    next hv => rw [if_neg hv]

theorem value?_eq_some_iff {cs v rest : List Char} :
    value? cs = some (v, rest) ↔
      cs = v ++ rest ∧ IsValue v ∧ ((∀ c ∈ v, isBareValue c = true) → Stops isBareValue rest) := by
  by_cases quoted : ∃ q more, IsQuote q ∧ cs = q :: more
  · obtain ⟨q, more, hq, rfl⟩ := quoted
    have notBare : isBareValue q = false := stops_cons.1 (stops_isBareValue_quote hq more)
    rw [value?_quote hq, quotedRun?_eq_some_iff]
    constructor
    · rintro ⟨inner, rfl, h, rfl⟩
      refine ⟨by simp, .quoted hq h, fun bare => ?_⟩
      rw [bare q List.mem_cons_self] at notBare
      cases notBare
    · rintro ⟨whole, isValue, -⟩
      cases isValue with
      | quoted hq' h =>
        simp only [List.cons_append, List.cons.injEq, List.append_assoc, List.nil_append] at whole
        obtain ⟨rfl, rfl⟩ := whole
        exact ⟨_, rfl, h, rfl⟩
      | bare ne h =>
        cases v with
        | nil => exact absurd rfl ne
        | cons c v =>
          simp only [List.cons_append, List.cons.injEq] at whole
          rw [whole.1, h c List.mem_cons_self] at notBare
          cases notBare
  · have bare : ∀ q more, IsQuote q → cs ≠ q :: more := fun q more hq h => quoted ⟨q, more, hq, h⟩
    rw [value?_bare bare]
    constructor
    · intro h
      split at h
      next => cases h
      next ne =>
        cases h
        exact ⟨List.takeWhile_append_dropWhile.symm, .bare ne fun c => List.mem_takeWhile_imp,
          fun _ => stops_dropWhile _ _⟩
    · rintro ⟨rfl, isValue, ends⟩
      cases isValue with
      | quoted hq _ => exact absurd rfl (bare _ _ hq)
      | bare ne h =>
        rw [takeWhile_append_of_stops h (ends h), dropWhile_append_of_stops h (ends h), if_neg ne]

/-! ### Assignments -/

/-- The scanner finds the assignment whose value is as long as it can be. -/
theorem at?_eq_some_iff {cs n v rest : List Char} :
    at? cs = some (n, v, rest) ↔
      ∃ a : Spelling, a.name = n ∧ a.value = v ∧ cs = a.chars ++ rest ∧ a.EndsBefore rest := by
  constructor
  · intro h
    simp only [at?, Option.bind_eq_some_iff, Option.map_eq_some_iff, Prod.exists,
      Prod.mk.injEq] at h
    obtain ⟨_, r, hn, r', hs, _, _, hv, rfl, rfl, rfl⟩ := h
    obtain ⟨rfl, isName, -⟩ := name?_eq_some_iff.1 hn
    obtain ⟨sep, isSeparator, rfl⟩ := exists_separator hs
    obtain ⟨rfl, isValue, ends⟩ := value?_eq_some_iff.1 hv
    exact ⟨⟨_, sep, _, isName, isSeparator, isValue⟩, rfl, rfl, by simp [Spelling.chars], ends⟩
  · rintro ⟨a, rfl, rfl, rfl, ends⟩
    obtain ⟨noBlank, noEquals⟩ := a.isValue.stops rest
    have name : name? (a.chars ++ rest) = some (a.name, a.separator ++ (a.value ++ rest)) :=
      name?_eq_some_iff.2 ⟨by simp [Spelling.chars], a.isName, a.isSeparator.stops _⟩
    have value : value? (a.value ++ rest) = some (a.value, rest) :=
      value?_eq_some_iff.2 ⟨rfl, a.isValue, ends⟩
    simp only [at?, name, Option.bind_some, afterSeparator?_append a.isSeparator noBlank noEquals,
      value, Option.map_some]

/-- Some assignment of the grammar stands at the start of the text. -/
def StartsAssignment (cs : List Char) : Prop :=
  ∃ (a : Spelling) (rest : List Char), cs = a.chars ++ rest

/-- A value that is cut short can be read on to its end. -/
theorem Spelling.exists_endsBefore (a : Spelling) (rest : List Char) :
    ∃ (b : Spelling) (rest' : List Char),
      a.chars ++ rest = b.chars ++ rest' ∧ b.EndsBefore rest' := by
  by_cases bare : ∀ c ∈ a.value, isBareValue c = true
  · have ne : a.value ≠ [] := by
      intro h
      have := a.isValue
      rw [h] at this
      cases this with
      | bare ne _ => exact ne rfl
    have longer : IsValue (a.value ++ rest.takeWhile isBareValue) := by
      refine .bare (by simp [ne]) fun c hc => ?_
      rcases List.mem_append.1 hc with hc | hc
      · exact bare c hc
      · exact List.mem_takeWhile_imp hc
    refine ⟨{ a with value := _, isValue := longer }, rest.dropWhile isBareValue, ?_,
      fun _ => stops_dropWhile _ _⟩
    simp [Spelling.chars, List.takeWhile_append_dropWhile]
  · exact ⟨a, rest, rfl, fun h => absurd h bare⟩

theorem startsAssignment_iff {cs : List Char} : StartsAssignment cs ↔ at? cs ≠ none := by
  constructor
  · rintro ⟨a, rest, rfl⟩ none
    obtain ⟨b, rest', whole, ends⟩ := a.exists_endsBefore rest
    rw [at?_eq_some_iff.2 ⟨b, rfl, rfl, whole, ends⟩] at none
    cases none
  · intro h
    obtain ⟨⟨n, v, rest⟩, found⟩ := Option.ne_none_iff_exists'.1 h
    obtain ⟨a, -, -, whole, -⟩ := at?_eq_some_iff.1 found
    exact ⟨a, rest, whole⟩

theorem StartsAssignment.stops {cs : List Char} (h : StartsAssignment cs) : Stops isBlank cs := by
  obtain ⟨a, rest, rfl⟩ := h
  obtain ⟨c, more, hn, start, -⟩ := a.isName
  rw [Spelling.chars, hn]
  exact stops_cons.2 (isBlank_of_isNameStart start)

end Assignment

end SolverBridge
