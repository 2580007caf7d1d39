import SolverBridge.Proofs.NumberText
import SolverBridge.Proofs.OptionStrings
import SolverBridge.Options.Settings

/-! Settings spelled as an option string. A value is spelled by its text, and a text value stands
between two equal quotes that do not occur in it. The names and values of several settings
are separated by white space or equals signs in any of the ways the grammar has. Main statement: the
string has the effect of setting the options one after the other, so what a string spells
comes back as it was. -/

namespace SolverBridge

open Text Assignment

namespace Text

theorem trimEnd_of_stops {cs : List Char} (h : Stops isBlank cs.reverse) : trimEnd cs = cs := by
  rw [trimEnd, dropWhile_of_stops h, List.reverse_reverse]

theorem trim_of_stops {cs : List Char} (h : Stops isBlank cs) (h' : Stops isBlank cs.reverse) :
    trim cs = cs := by
  rw [trim, trimStart_of_stops h, trimEnd_of_stops h']

theorem stops_of_forall {p : Char → Bool} {cs : List Char} (h : ∀ c ∈ cs, p c = false) :
    Stops p cs := fun c hc => h c (List.mem_of_mem_head? hc)

theorem trim_of_forall {cs : List Char} (h : ∀ c ∈ cs, isBlank c = false) : trim cs = cs :=
  trim_of_stops (stops_of_forall h) (stops_of_forall fun c hc => h c (List.mem_reverse.1 hc))

end Text

/-! ### Values -/

theorem Decimal.isBareValue_of_isDigit {c : Char} (h : c.isDigit = true) :
    isBareValue c = true := by
  simp only [Char.isDigit, Bool.and_eq_true, decide_eq_true_eq, ge_iff_le,
    UInt32.le_iff_toNat_le] at h
  have bounds : 0x30 ≤ c.toNat ∧ c.toNat ≤ 0x39 := h
  have noBlank : isBlank c = false := by
    rw [← Bool.not_eq_true]
    intro blank
    have := toNat_of_isBlank blank
    omega
  have ne {d : Char} (hd : d.toNat < 0x30 ∨ 0x39 < d.toNat) : c ≠ d := by
    rintro rfl
    omega
  simp only [isBareValue, noBlank, Bool.not_false, Bool.true_and, Bool.and_eq_true, bne_iff_ne]
  exact ⟨⟨ne (by decide), ne (by decide)⟩, ne (by decide)⟩

/-- The text of a number can stand as a bare value. -/
theorem Decimal.IsNumberText.isBareValue {cs : List Char} (h : Decimal.IsNumberText cs) :
    ∀ c ∈ cs, isBareValue c = true :=
  h.forall_mem (fun _ => isBareValue_of_isDigit) (List.all_eq_true.1 (by decide))

theorem Decimal.IsNumberText.isValue {cs : List Char} (h : Decimal.IsNumberText cs) : IsValue cs :=
  .bare h.ne_nil h.isBareValue

theorem Decimal.IsNumberText.trim_eq {cs : List Char} (h : Decimal.IsNumberText cs) :
    Text.trim cs = cs := trim_of_forall fun c hc => isBlank_of_isBareValue (h.isBareValue c hc)

namespace OptionValue

/-- How a value is spelled: a number by its text, a text between quotes that it does not contain. -/
inductive SpelledAs : OptionValue → List Char → Prop
  | int (i : Int64) : SpelledAs (.int i) (OptionValue.int i).text.toList
  | double (x : Float) : SpelledAs (.double x) (OptionValue.double x).text.toList
  | string {q : Char} (t : String) (hq : IsQuote q) (h : q ∉ t.toList) :
      SpelledAs (.string t) (q :: t.toList ++ [q])

/-- A number is read back from its text. -/
def ReadsBack : OptionValue → Prop
  | .double x => Decimal.float? (Decimal.text x) = some x
  | _ => True

variable {v : OptionValue} {literal : List Char}

theorem SpelledAs.isValue (h : SpelledAs v literal) : IsValue literal := by
  cases h with
  | int i => exact (Decimal.isNumberText_toString i.toInt).isValue
  | double x => exact (Decimal.isNumberText_text x).isValue
  | string t hq h => exact .quoted hq h

/-- The quotes around a text are taken off again, and nothing else is. -/
theorem unquote_quoted {q : Char} {cs : List Char} (hq : IsQuote q) :
    unquote (Text.trim (q :: cs ++ [q])) = cs := by
  have notBlank : isBlank q = false := by rcases hq with rfl | rfl <;> decide
  have last : Stops isBlank (q :: cs ++ [q]).reverse := by
    rw [List.reverse_append]
    exact stops_cons.2 notBlank
  have kept : Text.trim (q :: cs ++ [q]) = q :: cs ++ [q] :=
    trim_of_stops (stops_cons.2 notBlank) last
  rw [kept]
  have inner : between? q (q :: cs ++ [q]) = some cs := by
    rw [List.cons_append, between?, if_pos ⟨rfl, List.getLast?_concat⟩, List.dropLast_concat]
  rcases hq with rfl | rfl
  · rw [unquote, inner]
    rfl
  · have other : between? '"' ('\'' :: cs ++ ['\'']) = none := by
      rw [List.cons_append, between?, if_neg (by simp)]
    rw [unquote, other, inner]
    rfl

/-- A spelled value is read back. -/
theorem SpelledAs.parse?_eq (h : SpelledAs v literal) (readsBack : v.ReadsBack) :
    parse? v.type (String.ofList literal) = some v := by
  cases h with
  | int i =>
    rw [type, parse?, String.toList_ofList]
    dsimp only [text]
    rw [(Decimal.isNumberText_toString i.toInt).trim_eq, String.ofList_toList,
      Decimal.int64?_toString]
    rfl
  | double x =>
    rw [type, parse?, String.toList_ofList]
    dsimp only [text]
    rw [(Decimal.isNumberText_text x).trim_eq, String.ofList_toList, readsBack]
    rfl
  | string t hq h =>
    rw [type, parse?, String.toList_ofList, unquote_quoted hq, String.ofList_toList]

end OptionValue

/-! ### Settings -/

/-- A setting as it is spelled in an option string, with the white space behind it. -/
structure SpelledSetting where
  name : String
  value : OptionValue
  separator : List Char
  literal : List Char
  gap : List Char
  isName : IsName name.toList
  isSeparator : IsSeparator separator
  spelled : value.SpelledAs literal
  blank : AllBlank gap

namespace SpelledSetting

def chars (x : SpelledSetting) : List Char := x.name.toList ++ (x.separator ++ x.literal) ++ x.gap

/-- What is set. -/
def pair (x : SpelledSetting) : String × OptionValue := (x.name, x.value)

/-- The setting as an assignment of the grammar. -/
def spelling (x : SpelledSetting) : Spelling where
  name := x.name.toList
  separator := x.separator
  value := x.literal
  isName := x.isName
  isSeparator := x.isSeparator
  isValue := x.spelled.isValue

theorem stops_flatMap_chars {p : Char → Bool} (h : ∀ c, isNameStart c = true → p c = false)
    (settings : List SpelledSetting) : Stops p (settings.flatMap chars) := by
  cases settings with
  | nil => exact stops_nil p
  | cons x rest =>
    obtain ⟨c, more, hn, start, -⟩ := x.isName
    rw [List.flatMap_cons, chars, hn]
    exact stops_cons.2 (h c start)

/-- What follows a setting does not belong to it. -/
theorem standsBefore {lead : List Char} (blank : AllBlank lead) (x : SpelledSetting)
    (rest : List SpelledSetting) (apart : rest ≠ [] → x.gap ≠ []) :
    (Placed.mk lead x.spelling blank).StandsBefore (x.gap ++ rest.flatMap chars) := by
  constructor
  · intro _
    rcases hg : x.gap with _ | ⟨c, gap⟩
    · have last : rest = [] := by
        by_contra ne
        exact apart ne hg
      rw [last]
      exact stops_nil _
    · have := x.blank c (hg ▸ List.mem_cons_self)
      exact stops_cons.2 (by simp [isBareValue, this])
  · have noBlank := stops_flatMap_chars (fun c => isBlank_of_isNameStart) rest
    have noEquals : Stops (· == '=') (rest.flatMap chars) := by
      refine stops_flatMap_chars (fun c start => ?_) rest
      rw [beq_eq_false_iff_ne]
      rintro rfl
      exact absurd start (by decide)
    rw [followedByEquals, trimStart_append x.blank, trimStart_of_stops noBlank]
    rcases h : rest.flatMap chars with _ | ⟨c, more⟩
    · rfl
    · rw [h] at noEquals
      have ne : c ≠ '=' := by simpa using stops_cons.1 noEquals
      simpa using ne

end SpelledSetting

namespace OptionRegistry

variable {σ : Type}

/-- Sets options one after the other up to the first fault. -/
def setEach (r : OptionRegistry σ) : σ → List (String × OptionValue) → Except OptionError Unit × σ
  | s, [] => (.ok (), s)
  | s, (name, v) :: rest =>
    match r.set s name v with
    | .ok s' => r.setEach s' rest
    | .error e => (.error e, s)

/-- The option is registered with the type of the value. -/
def Declares (r : OptionRegistry σ) (x : SpelledSetting) : Prop :=
  (r.find? x.name).map (·.type) = some x.value.type

variable {r : OptionRegistry σ}

theorem setText_spelled {x : SpelledSetting} (known : r.Declares x) (readsBack : x.value.ReadsBack)
    (s : σ) : r.setText s x.name (String.ofList x.literal) = r.set s x.name x.value := by
  obtain ⟨o, found, type⟩ := Option.map_eq_some_iff.1 known
  have registered : r.find x.name = .ok o := by rw [find, found]
  have parsed := x.spelled.parse?_eq readsBack
  rw [setText, set, registered]
  simp only [Except.bind, type, parsed, ne_eq, not_true_eq_false, if_false]

/-- An option string that spells settings, with white space at both ends and between them, sets
them one after the other, and tells their number if all are taken. -/
theorem applyText_spelled (r : OptionRegistry σ) (s : σ) (lead : List Char)
    (settings : List SpelledSetting) (blank : AllBlank lead)
    (apart : ∀ x ∈ settings.dropLast, x.gap ≠ []) (known : ∀ x ∈ settings, r.Declares x)
    (readsBack : ∀ x ∈ settings, x.value.ReadsBack) :
    r.applyText s (String.ofList (lead ++ settings.flatMap SpelledSetting.chars)) =
      ((r.setEach s (settings.map SpelledSetting.pair)).1.map fun _ => settings.length,
        (r.setEach s (settings.map SpelledSetting.pair)).2) := by
  induction settings generalizing s lead with
  | nil =>
    rw [List.flatMap_nil, List.append_nil, applyText_of_allBlank blank]
    rfl
  | cons x rest ih =>
    rw [List.forall_mem_cons] at known readsBack
    have apartHere : rest ≠ [] → x.gap ≠ [] := by
      intro ne
      rw [List.dropLast_cons_of_ne_nil ne] at apart
      exact apart x List.mem_cons_self
    have apartBehind : ∀ y ∈ rest.dropLast, y.gap ≠ [] := by
      intro y hy
      have ne : rest ≠ [] := by
        rintro rfl
        cases hy
      rw [List.dropLast_cons_of_ne_nil ne] at apart
      exact apart y (List.mem_cons_of_mem _ hy)
    have placed : lead ++ (x :: rest).flatMap SpelledSetting.chars =
        (Placed.mk lead x.spelling blank).chars ++
          (x.gap ++ rest.flatMap SpelledSetting.chars) := by
      simp [SpelledSetting.chars, Placed.chars, Spelling.chars, SpelledSetting.spelling]
    have text : r.setText s (Placed.mk lead x.spelling blank).name
        (Placed.mk lead x.spelling blank).value = r.set s x.name x.value := by
      rw [← setText_spelled known.1 readsBack.1 s]
      exact congrArg (fun n => r.setText s n _) String.ofList_toList
    rw [placed, applyText_placed (x.standsBefore blank rest apartHere), text, List.map_cons,
      SpelledSetting.pair, setEach]
    cases r.set s x.name x.value with
    | error e => rfl
    | ok s' =>
      dsimp only
      rw [ih s' x.gap x.blank apartBehind known.2 readsBack.2]
      cases (r.setEach s' (rest.map SpelledSetting.pair)).1 <;> rfl

/-- Three settings in the three styles, with an equals sign and the other quote in a text. -/
theorem applyText_spelled_styles :
    ∃ (r : OptionRegistry Settings) (s : Settings),
      r.applyText {} " Lim = -4\tlog 'say \"a = b\"'\n gap=0.1 " = (.ok 3, s) ∧
        s.ints = [-4, 0] ∧ s.strings = ["say \"a = b\"", ""] ∧ s.doubles = [0.1, 0] := by
  let r : OptionRegistry Settings :=
    ⟨[("gap", Settings.slotOption "GAP" "" .double 0),
      ("lim", Settings.slotOption "lim" "" .int 0),
      ("log", Settings.slotOption "log" "" .string 0)]⟩
  let lim : SpelledSetting :=
    ⟨"Lim", .int (-4), [' ', '=', ' '], "-4".toList, ['\t'],
      ⟨_, _, rfl, by decide, List.all_eq_true.1 (by decide)⟩,
      @IsSeparator.equals [' '] [' '] (by decide) (by decide), .int (-4), by decide⟩
  let log : SpelledSetting :=
    ⟨"log", .string "say \"a = b\"", [' '], "'say \"a = b\"'".toList, ['\n', ' '],
      ⟨_, _, rfl, by decide, List.all_eq_true.1 (by decide)⟩, .blanks (by decide) (by decide),
      .string (q := '\'') "say \"a = b\"" (.inr rfl) (by decide), by decide⟩
  let gap : SpelledSetting :=
    ⟨"gap", .double 0.1, ['='], (OptionValue.double 0.1).text.toList, [' '],
      ⟨_, _, rfl, by decide, List.all_eq_true.1 (by decide)⟩,
      @IsSeparator.equals [] [] (by decide) (by decide), .double 0.1, by decide⟩
  have text : " Lim = -4\tlog 'say \"a = b\"'\n gap=0.1 " =
      String.ofList ([' '] ++ [lim, log, gap].flatMap SpelledSetting.chars) := by
    decide +kernel
  have apart : ∀ x ∈ [lim, log, gap].dropLast, x.gap ≠ [] := by
    simp only [List.dropLast, List.forall_mem_cons]
    exact ⟨by decide, by decide, nofun⟩
  have known : ∀ x ∈ [lim, log, gap], r.Declares x := by
    simp only [List.forall_mem_cons, Declares]
    exact ⟨by decide +kernel, by decide +kernel, by decide +kernel, nofun⟩
  have readsBack : ∀ x ∈ [lim, log, gap], x.value.ReadsBack := by
    simp only [List.forall_mem_cons]
    exact ⟨trivial, trivial, by unfold OptionValue.ReadsBack; decide +kernel, nofun⟩
  have applied := applyText_spelled r {} [' '] [lim, log, gap] (by decide) apart known readsBack
  rw [← text] at applied
  have taken : (r.setEach {} ([lim, log, gap].map SpelledSetting.pair)).1.isOk = true ∧
      (r.setEach {} ([lim, log, gap].map SpelledSetting.pair)).2.ints = [-4, 0] ∧
      (r.setEach {} ([lim, log, gap].map SpelledSetting.pair)).2.strings =
        ["say \"a = b\"", ""] ∧
      (r.setEach {} ([lim, log, gap].map SpelledSetting.pair)).2.doubles = [0.1, 0] := by
    decide +kernel
  generalize r.setEach {} ([lim, log, gap].map SpelledSetting.pair) = set at applied taken
  obtain ⟨_ | _, s⟩ := set
  · cases taken.1
  · exact ⟨r, s, applied, taken.2⟩

end OptionRegistry

end SolverBridge
