import Mathlib.Data.List.Basic
import SolverBridge.LpText

/-! The words of an LP file. A line of the file is words with single blanks between them, and a
line that is set in starts with the empty word. So a file is a list of lines, each a list of
words, and files with the same text have the same words as long as no word contains a blank or a
line end. -/

namespace SolverBridge.LpText

/-! ### Words and lines -/

/-- Words with blanks between them. -/
def joined (ws : List String) : String := " ".intercalate ws

theorem joined_cons (w : String) {ws : List String} (h : ws ≠ []) :
    joined (w :: ws) = w ++ " " ++ joined ws := String.intercalate_cons_of_ne_nil h

theorem joined_append {ws ws' : List String} (h : ws ≠ []) (h' : ws' ≠ []) :
    joined (ws ++ ws') = joined ws ++ " " ++ joined ws' := String.intercalate_append_of_ne_nil h h'

/-- Blanks between texts of words stand between their words. -/
theorem joined_map_joined {wss : List (List String)} (h : ∀ ws ∈ wss, ws ≠ []) :
    joined (wss.map joined) = joined wss.flatten := by
  induction wss with
  | nil => rfl
  | cons ws wss ih =>
    rw [List.forall_mem_cons] at h
    cases wss with
    | nil => simp [joined]
    | cons ws' wss' =>
      have rest : (ws' :: wss').flatten ≠ [] := by
        simp [h.2 ws' List.mem_cons_self]
      have whole : (ws :: ws' :: wss').flatten = ws ++ (ws' :: wss').flatten := List.flatten_cons
      rw [List.map_cons, joined_cons _ (by simp), ih h.2, whole, joined_append h.1 rest]

theorem toList_joined {ws : List String} (h : ws ≠ []) :
    (joined ws).toList ++ [' '] = ws.flatMap (fun w => w.toList ++ [' ']) := by
  induction ws with
  | nil => exact absurd rfl h
  | cons w ws ih =>
    cases ws with
    | nil => simp [joined]
    | cons w' ws' =>
      rw [joined_cons w (List.cons_ne_nil w' ws'), String.toList_append, String.toList_append,
        List.append_assoc, ih (List.cons_ne_nil w' ws'), List.flatMap_cons]
      rfl

/-- The first entry without a property marks where two lists are split. -/
theorem append_cons_inj {ι : Type} {p : ι → Prop} {a a' t t' : List ι} {b b' : ι}
    (h : ∀ x ∈ a, p x) (h' : ∀ x ∈ a', p x) (hb : ¬p b) (hb' : ¬p b')
    (same : a ++ b :: t = a' ++ b' :: t') : a = a' ∧ b = b' ∧ t = t' := by
  induction a generalizing a' with
  | nil =>
    cases a' with
    | nil => exact ⟨rfl, List.cons.inj same⟩
    | cons x a' =>
      rw [(List.cons.inj same).1] at hb
      exact absurd (h' x List.mem_cons_self) hb
  | cons x a ih =>
    rw [List.forall_mem_cons] at h
    cases a' with
    | nil =>
      rw [← (List.cons.inj same).1] at hb'
      exact absurd h.1 hb'
    | cons y a' =>
      obtain ⟨rfl, rest⟩ := List.cons.inj same
      obtain ⟨rfl, tails⟩ := ih h.2 (List.forall_mem_cons.1 h').2 rest
      exact ⟨rfl, tails⟩

/-- Texts that a character ends are told apart when it does not occur in them. -/
theorem flatMap_ended_inj {c : Char} {ts ts' : List String} (h : ∀ t ∈ ts, c ∉ t.toList)
    (h' : ∀ t ∈ ts', c ∉ t.toList)
    (same : ts.flatMap (fun t => t.toList ++ [c]) = ts'.flatMap (fun t => t.toList ++ [c])) :
    ts = ts' := by
  induction ts generalizing ts' with
  | nil =>
    cases ts' with
    | nil => rfl
    | cons t' ts' => simp at same
  | cons t ts ih =>
    cases ts' with
    | nil => simp at same
    | cons t' ts' =>
      rw [List.forall_mem_cons] at h h'
      simp only [List.flatMap_cons, List.append_assoc, List.singleton_append] at same
      have notMem {t : String} (ht : c ∉ t.toList) : ∀ d ∈ t.toList, d ≠ c :=
        fun d hd => ne_of_mem_of_not_mem hd ht
      obtain ⟨first, -, rest⟩ := append_cons_inj (notMem h.1) (notMem h'.1) (not_not.2 rfl)
        (not_not.2 rfl) same
      rw [String.toList_inj.1 first, ih h.2 h'.2 rest]

/-- The word can be told from its neighbours. -/
def IsWord (w : String) : Prop := ∀ c ∈ w.toList, c ≠ ' ' ∧ c ≠ '\n'

instance (w : String) : Decidable (IsWord w) := List.decidableBAll _ w.toList

theorem IsWord.append {w w' : String} (h : IsWord w) (h' : IsWord w') : IsWord (w ++ w') := by
  rw [IsWord, String.toList_append, List.forall_mem_append]
  exact ⟨h, h'⟩

theorem joined_inj {ws ws' : List String} (ne : ws ≠ []) (ne' : ws' ≠ [])
    (h : ∀ w ∈ ws, IsWord w) (h' : ∀ w ∈ ws', IsWord w) (same : joined ws = joined ws') :
    ws = ws' :=
  flatMap_ended_inj (fun w hw mem => (h w hw _ mem).1 rfl) (fun w hw mem => (h' w hw _ mem).1 rfl)
    (by rw [← toList_joined ne, ← toList_joined ne', same])

theorem newline_notMem_joined {ws : List String} (h : ∀ w ∈ ws, IsWord w) :
    '\n' ∉ (joined ws).toList := by
  cases ws with
  | nil => simp [joined]
  | cons w ws =>
    intro mem
    have mem := toList_joined (List.cons_ne_nil w ws) ▸ List.mem_append_left [' '] mem
    obtain ⟨v, hv, mem⟩ := List.mem_flatMap.1 mem
    rcases List.mem_append.1 mem with mem | mem
    · exact (h v hv _ mem).2 rfl
    · simp at mem

/-! ### The words of a file -/

variable {α : Type} [Scalar α] [Numeral α]

def signWords (first : Bool) (c : α) : List String :=
  if Scalar.lt c 0 then ["-"] else if first then [] else ["+"]

/-- The words of each term and of a constant that is not zero. -/
def itemWords (constant : α) : Bool → List (α × Var) → List (List String)
  | first, [] =>
    if constant != 0 then [signWords first constant ++ [Numeral.text (Scalar.abs constant)]]
    else []
  | first, t :: rest =>
    (signWords first t.1 ++ [Numeral.text (Scalar.abs t.1), t.2.name]) ::
      itemWords constant false rest

/-- The words of a form plus a constant. -/
def bodyWords (f : LinearForm α) (constant : α) : List String :=
  if (itemWords constant true f.terms).isEmpty then ["0"]
  else (itemWords constant true f.terms).flatten

def objectiveWords : Option (LinearObjective α) → List (List String)
  | some o => [[senseText o.sense], "" :: "obj:" :: bodyWords o.form o.constant]
  | none => [["Minimize"], ["", "obj:", "0"]]

/-- The name of a row, as it stands before its form. -/
def rowLabel (i : ℕ) (suffix : String) : String := "c" ++ toString i ++ suffix ++ ":"

/-- What a row is written with: the suffix of its name, a relation and a bound, each time. -/
def relations (r : LinearRow α) : List (String × String × α) :=
  if r.isEquality then [("", "=", r.lower)]
  else
    match Scalar.isFinite r.lower, Scalar.isFinite r.upper with
    | true, true => [("_lo", ">=", r.lower), ("_hi", "<=", r.upper)]
    | true, false => [("", ">=", r.lower)]
    | false, true => [("", "<=", r.upper)]
    | false, false => []

def rowWords (i : ℕ) (r : LinearRow α) : List (List String) :=
  (relations r).map fun (suffix, relation, bound) =>
    "" :: rowLabel i suffix :: (bodyWords r.form 0 ++ [relation, Numeral.text bound])

def boundWords (v : Var) (d : Domain α) : List String :=
  if d.lower == Scalar.negInf && d.upper == Scalar.posInf then ["", v.name, "free"]
  else ["", boundText d.lower, "<=", v.name, "<=", boundText d.upper]

/-- The names of the integral variables. -/
def integralNames (domains : List (Domain α)) : List String :=
  (domains.mapIdx fun i d => (i, d)).filterMap fun (i, d) =>
    if d.integral then some (Var.mk i).name else none

def integerWords (domains : List (Domain α)) : List (List String) :=
  if (integralNames domains).isEmpty then [] else [["General"], "" :: integralNames domains]

/-- The lines of a file, as words. -/
def document (domains : List (Domain α)) (objective : Option (LinearObjective α))
    (rows : List (LinearRow α)) : List (List String) :=
  [["\\", "Problem", "written", "by", "mpconv"]] ++ objectiveWords objective ++
    [["Subject", "To"]] ++ (rows.mapIdx rowWords).flatten ++
    [["Bounds"]] ++ domains.mapIdx (fun i d => boundWords ⟨i⟩ d) ++
    integerWords domains ++ [["End"]]

/-! ### The file is made of its words -/

omit [Numeral α] in
theorem joined_signWords_append (first : Bool) (c : α) {ws : List String} (h : ws ≠ []) :
    joined (signWords first c ++ ws) =
      (if Scalar.lt c 0 then "- " else if first then "" else "+ ") ++ joined ws := by
  rw [signWords]
  split
  · exact joined_cons "-" h
  · split
    · simp
    · exact joined_cons "+" h

theorem termTexts_append_constant (constant : α) (first : Bool) (terms : List (α × Var)) :
    termTexts first terms ++
        (if constant != 0 then [signed (first && terms.isEmpty) constant ""] else []) =
      (itemWords constant first terms).map joined := by
  induction terms generalizing first with
  | nil =>
    rw [itemWords, List.isEmpty_nil, Bool.and_true]
    split
    · rw [List.map_singleton, joined_signWords_append _ _ (List.cons_ne_nil _ _)]
      simp [termTexts, signed, joined]
    · rfl
  | cons t rest ih =>
    have item : signed first t.1 (" " ++ t.2.name) =
        joined (signWords first t.1 ++ [Numeral.text (Scalar.abs t.1), t.2.name]) := by
      rw [joined_signWords_append _ _ (List.cons_ne_nil _ _)]
      simp [signed, joined, String.append_assoc]
    rw [termTexts, itemWords, List.map_cons, ← ih, ← item, List.cons_append, List.isEmpty_cons,
      Bool.and_false, Bool.false_and]

theorem ne_nil_of_mem_itemWords {constant : α} {first : Bool} {terms : List (α × Var)} :
    ∀ ws ∈ itemWords constant first terms, ws ≠ [] := by
  induction terms generalizing first with
  | nil =>
    rw [itemWords]
    split <;> simp
  | cons t rest ih =>
    rw [itemWords, List.forall_mem_cons]
    exact ⟨by simp, ih⟩

theorem expressionText_eq (f : LinearForm α) (constant : α) :
    expressionText f constant = joined (bodyWords f constant) := by
  have noTerms : (termTexts true f.terms).isEmpty = f.terms.isEmpty := by
    cases f.terms <;> rfl
  have items : (if constant != 0 then termTexts true f.terms ++
        [signed (termTexts true f.terms).isEmpty constant ""] else termTexts true f.terms) =
      (itemWords constant true f.terms).map joined := by
    rw [← termTexts_append_constant, noTerms, Bool.true_and]
    split
    · rfl
    · exact (List.append_nil _).symm
  rw [expressionText, bodyWords, items, List.isEmpty_map]
  split
  · rfl
  · exact joined_map_joined ne_nil_of_mem_itemWords

theorem bodyWords_ne_nil (f : LinearForm α) (constant : α) : bodyWords f constant ≠ [] := by
  rw [bodyWords]
  split
  next => simp
  next some =>
    rw [List.isEmpty_iff] at some
    rw [Ne, List.flatten_eq_nil_iff]
    intro none
    obtain ⟨ws, hws⟩ := List.exists_mem_of_ne_nil _ some
    exact ne_nil_of_mem_itemWords ws hws (none ws hws)

theorem objectiveLines_eq (o : Option (LinearObjective α)) :
    objectiveLines o = (objectiveWords o).map joined := by
  cases o with
  | none => rfl
  | some o =>
    have obj : " obj: " ++ expressionText o.form o.constant =
        joined ("" :: "obj:" :: bodyWords o.form o.constant) := by
      rw [joined_cons _ (by simp), joined_cons _ (bodyWords_ne_nil _ _), expressionText_eq]
      exact String.toList_inj.1 (by simp)
    rw [objectiveLines, objectiveWords, obj]
    rfl

theorem rowLines_eq (i : ℕ) (r : LinearRow α) : rowLines i r = (rowWords i r).map joined := by
  have line (suffix relation : String) (bound : α) :
      " c" ++ toString i ++ suffix ++ ": " ++ formText r.form ++ (" " ++ relation ++ " ") ++
          Numeral.text bound =
        joined ("" :: rowLabel i suffix ::
          (bodyWords r.form 0 ++ [relation, Numeral.text bound])) := by
    rw [joined_cons _ (by simp), joined_cons _ (by simp),
      joined_append (bodyWords_ne_nil _ _) (by simp), joined_cons _ (by simp), formText,
      expressionText_eq, rowLabel]
    exact String.toList_inj.1 (by simp [joined])
  rw [rowLines, rowWords, relations]
  cases r.isEquality with
  | true => exact congrArg (fun l => [l]) (line "" "=" r.lower)
  | false =>
    cases Scalar.isFinite r.lower <;> cases Scalar.isFinite r.upper
    case false.false => rfl
    case false.true => exact congrArg (fun l => [l]) (line "" "<=" r.upper)
    case true.false => exact congrArg (fun l => [l]) (line "" ">=" r.lower)
    case true.true =>
      have lower := line "_lo" ">=" r.lower
      have upper := line "_hi" "<=" r.upper
      exact congrArg₂ (fun l l' => [l, l']) lower upper

theorem boundLine_eq (v : Var) (d : Domain α) : boundLine v d = joined (boundWords v d) := by
  rw [boundLine, boundWords]
  split <;> exact String.toList_inj.1 (by simp [joined])

omit [Scalar α] [Numeral α] in
theorem integerLines_eq (domains : List (Domain α)) :
    integerLines domains = (integerWords domains).map joined := by
  rw [integerLines, integerWords]
  change (if (integralNames domains).isEmpty then [] else
    ["General", " " ++ joined (integralNames domains)]) = _
  split
  next => rfl
  next some =>
    rw [List.isEmpty_iff] at some
    rw [List.map_cons, List.map_singleton, joined_cons _ some]
    simp [joined]

theorem map_mapIdx {ι β γ : Type} (f : ℕ → ι → β) (g : β → γ) (l : List ι) :
    (l.mapIdx f).map g = l.mapIdx fun i a => g (f i a) := by
  rw [List.mapIdx_eq_zipIdx_map, List.mapIdx_eq_zipIdx_map, List.map_map]
  rfl

theorem lines_eq (domains : List (Domain α)) (objective : Option (LinearObjective α))
    (rows : List (LinearRow α)) :
    lines domains objective rows = (document domains objective rows).map joined := by
  have rowLines : (rowLines : ℕ → LinearRow α → List String) =
      fun i r => (rowWords i r).map joined := by
    funext i r
    exact rowLines_eq i r
  simp only [lines, document, List.map_append, List.map_flatten, map_mapIdx, objectiveLines_eq,
    boundLine_eq, integerLines_eq, rowLines]
  rfl

/-- A line has words, and each can be told from its neighbours. -/
def IsLine (ws : List String) : Prop := ws ≠ [] ∧ ∀ w ∈ ws, IsWord w

instance (ws : List String) : Decidable (IsLine ws) :=
  inferInstanceAs (Decidable (ws ≠ [] ∧ ∀ w ∈ ws, IsWord w))

theorem map_joined_inj {d d' : List (List String)} (h : ∀ ws ∈ d, IsLine ws)
    (h' : ∀ ws ∈ d', IsLine ws) (same : d.map joined = d'.map joined) : d = d' := by
  refine List.ext_getElem (by simpa using congrArg List.length same) fun i hi hi' => ?_
  have line := h _ (List.getElem_mem hi)
  have line' := h' _ (List.getElem_mem hi')
  refine joined_inj line.1 line'.1 line.2 line'.2 ?_
  rw [← List.getElem_map joined, ← List.getElem_map joined]
  · simp only [same]
  · simpa using hi'
  · simpa using hi

/-- Files with the same text have the same words. -/
theorem document_inj {domains domains' : List (Domain α)}
    {objective objective' : Option (LinearObjective α)} {rows rows' : List (LinearRow α)}
    (h : ∀ ws ∈ document domains objective rows, IsLine ws)
    (h' : ∀ ws ∈ document domains' objective' rows', IsLine ws)
    (same : write domains objective rows = write domains' objective' rows') :
    document domains objective rows = document domains' objective' rows' := by
  have text (d : List (List String)) :
      (String.join ((d.map joined).map (· ++ "\n"))).toList =
        (d.map joined).flatMap fun t => t.toList ++ ['\n'] := by
    rw [String.toList_join, List.flatMap_map]
    exact List.flatMap_congr fun t _ => String.toList_append
  have ended {d : List (List String)} (h : ∀ ws ∈ d, IsLine ws) :
      ∀ t ∈ d.map joined, '\n' ∉ t.toList := by
    intro t ht
    obtain ⟨ws, hws, rfl⟩ := List.mem_map.1 ht
    exact newline_notMem_joined (h ws hws).2
  have chars := congrArg String.toList same
  rw [write, write, lines_eq, lines_eq, text, text] at chars
  exact map_joined_inj h h' (flatMap_ended_inj (ended h) (ended h') chars)

end SolverBridge.LpText
