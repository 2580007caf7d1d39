import SolverBridge.Proofs.LpExpressions

/-! The problem that an LP file tells. The lines that are set in are the rows and the bounds, so
the heads of the sections split a file into its sections. The line of a row starts with the row's
number, by which the lines of one row are found; rows without a finite side have none. What is not
told is which zero a constant or the upper side of an equation is. -/

namespace SolverBridge.LpText

open Decimal FloatParts

/-! ### Sections -/

/-- The objective that a file is written for. -/
def objectiveOf (o : Option (LinearObjective Float)) : LinearObjective Float :=
  o.getD ⟨.minimize, .empty, 0⟩

theorem objectiveWords_eq (o : Option (LinearObjective Float)) :
    objectiveWords o = [[senseText (objectiveOf o).sense],
      "" :: "obj:" :: bodyWords (objectiveOf o).form (objectiveOf o).constant] := by
  cases o with
  | none => rfl
  | some o => rfl

theorem senseText_inj {s s' : Sense} (same : senseText s = senseText s') : s = s' := by
  cases s <;> cases s' <;> first | rfl | exact absurd same (by decide)

/-- The line starts with a blank. -/
def IsSetIn (ws : List String) : Prop := ws.head? = some ""

theorem isSetIn_of_mem_rows {rows : List (LinearRow Float)} :
    ∀ ws ∈ (rows.mapIdx rowWords).flatten, IsSetIn ws := by
  intro ws hws
  obtain ⟨lines, hl, hws⟩ := List.mem_flatten.1 hws
  obtain ⟨i, hi, rfl⟩ := List.mem_mapIdx.1 hl
  obtain ⟨e, -, rfl⟩ := List.mem_map.1 hws
  rfl

theorem isSetIn_of_mem_bounds {domains : List (Domain Float)} :
    ∀ ws ∈ domains.mapIdx (fun i d => boundWords ⟨i⟩ d), IsSetIn ws := by
  intro ws hws
  obtain ⟨i, hi, rfl⟩ := List.mem_mapIdx.1 hws
  rw [boundWords]
  split <;> rfl

/-- Behind the bounds stands a line that is not set in. -/
theorem integerWords_append_end (domains : List (Domain Float)) :
    ∃ head rest, integerWords domains ++ [["End"]] = head :: rest ∧ ¬IsSetIn head := by
  rw [integerWords]
  split
  · exact ⟨_, _, rfl, by simp [IsSetIn]⟩
  · exact ⟨_, _, rfl, by simp [IsSetIn]⟩

/-- Files with the same words have the same sections. -/
theorem sections_inj {domains domains' : List (Domain Float)}
    {objective objective' : Option (LinearObjective Float)} {rows rows' : List (LinearRow Float)}
    (same : document domains objective rows = document domains' objective' rows') :
    objectiveWords objective = objectiveWords objective' ∧
      (rows.mapIdx rowWords).flatten = (rows'.mapIdx rowWords).flatten ∧
      domains.mapIdx (fun i d => boundWords ⟨i⟩ d) =
        domains'.mapIdx (fun i d => boundWords ⟨i⟩ d) ∧
      integerWords domains = integerWords domains' := by
  obtain ⟨head, rest, tail, out⟩ := integerWords_append_end domains
  obtain ⟨head', rest', tail', out'⟩ := integerWords_append_end domains'
  have bounds : ¬IsSetIn ["Bounds"] := by simp [IsSetIn]
  simp only [document, List.append_assoc, List.singleton_append] at same
  have objectives := List.append_inj (List.cons.inj same).2 (by simp [objectiveWords_eq])
  obtain ⟨rowLines, -, behind⟩ := append_cons_inj isSetIn_of_mem_rows isSetIn_of_mem_rows bounds
    bounds (List.cons.inj objectives.2).2
  rw [tail, tail'] at behind
  obtain ⟨boundLines, first, others⟩ :=
    append_cons_inj isSetIn_of_mem_bounds isSetIn_of_mem_bounds out out' behind
  rw [first, others, ← tail'] at tail
  exact ⟨objectives.1, rowLines, boundLines, List.append_cancel_right tail⟩

/-! ### Variables -/

theorem boundWords_inj {v : Var} {d d' : Domain Float} (same : boundWords v d = boundWords v d') :
    d.lower = d'.lower ∧ d.upper = d'.upper := by
  have free {d : Domain Float}
      (h : (d.lower == Scalar.negInf && d.upper == Scalar.posInf) = true) :
      d.lower = Scalar.negInf ∧ d.upper = Scalar.posInf := by
    rwa [Bool.and_eq_true, beq_infinity_iff parts_negInf, beq_infinity_iff parts_posInf] at h
  rw [boundWords, boundWords] at same
  split at same <;> split at same
  next h h' => exact ⟨(free h).1.trans (free h').1.symm, (free h).2.trans (free h').2.symm⟩
  next => simp at same
  next => simp at same
  next =>
    simp only [List.cons.injEq, true_and, and_true] at same
    exact ⟨boundText_inj same.1, boundText_inj same.2⟩

theorem name_mem_integralNames {domains : List (Domain Float)} {i : ℕ} (hi : i < domains.length) :
    (Var.mk i).name ∈ integralNames domains ↔ domains[i].integral = true := by
  rw [integralNames, List.mem_filterMap]
  constructor
  · rintro ⟨⟨j, d⟩, mem, named⟩
    obtain ⟨k, hk, same⟩ := List.mem_mapIdx.1 mem
    obtain ⟨rfl, rfl⟩ := Prod.mk.inj same
    simp only [Option.ite_none_right_eq_some, Option.some.injEq] at named
    obtain rfl : k = i := congrArg Var.index (name_inj named.2)
    exact named.1
  · intro integral
    exact ⟨(i, domains[i]), List.mem_mapIdx.2 ⟨i, hi, rfl⟩, if_pos integral⟩

theorem integralNames_of_integerWords {domains domains' : List (Domain Float)}
    (same : integerWords domains = integerWords domains') :
    integralNames domains = integralNames domains' := by
  rw [integerWords, integerWords] at same
  split at same <;> split at same
  next none none' => rw [List.isEmpty_iff.1 none, List.isEmpty_iff.1 none']
  next => cases same
  next => cases same
  next => simpa using same

/-- The variables are told from their bounds and the names of the integral ones. -/
theorem domains_inj {domains domains' : List (Domain Float)}
    (bounds : domains.mapIdx (fun i d => boundWords ⟨i⟩ d) =
      domains'.mapIdx (fun i d => boundWords ⟨i⟩ d))
    (integers : integerWords domains = integerWords domains') : domains = domains' := by
  have names := integralNames_of_integerWords integers
  refine List.ext_getElem (by simpa using congrArg List.length bounds) fun i hi hi' => ?_
  have line : boundWords ⟨i⟩ domains[i] = boundWords ⟨i⟩ domains'[i] := by
    have entry := congrArg (·[i]?) bounds
    simpa [hi, hi'] using entry
  have integral : domains[i].integral = domains'[i].integral := by
    rw [Bool.eq_iff_iff, ← name_mem_integralNames hi, ← name_mem_integralNames hi', names]
  obtain ⟨lower, upper⟩ := boundWords_inj line
  generalize domains[i] = d at *
  generalize domains'[i] = d' at *
  cases d
  cases d'
  cases integral
  cases lower
  cases upper
  rfl

/-! ### Rows -/

/-- The number of the row that a line belongs to. -/
def lineRow (ws : List String) : ℕ :=
  digitsValue (((ws[1]?.getD "").toList.drop 1).takeWhile Char.isDigit)

theorem lineRow_of_mem_rowWords {i : ℕ} {r : LinearRow Float} {ws : List String}
    (h : ws ∈ rowWords i r) : lineRow ws = i := by
  obtain ⟨⟨suffix, relation, bound⟩, entry, rfl⟩ := List.mem_map.1 h
  have label : (rowLabel i suffix).toList.drop 1 =
      (toString i).toList ++ (suffix ++ ":").toList := by
    simp [rowLabel]
  have stop : (suffix ++ ":").toList.takeWhile Char.isDigit = [] := by
    have suffixes : ∀ s ∈ ["", "_lo", "_hi"], (s ++ ":").toList.takeWhile Char.isDigit = [] := by
      decide
    exact suffixes _ (mem_relations entry).1
  have digits : ∀ c ∈ (toString i).toList, c.isDigit = true :=
    fun c hc => isDigit_of_mem_toDigits (Nat.toList_repr ▸ hc)
  change digitsValue (((rowLabel i suffix).toList.drop 1).takeWhile Char.isDigit) = i
  rw [label, List.takeWhile_append_of_pos digits, stop, List.append_nil, digitsValue_toString]

/-- Lists that are put one behind the other are found again when each entry tells its list. -/
theorem filter_flatten_mapIdx {ι β : Type} {f : ℕ → ι → List β} {key : β → ℕ}
    (h : ∀ i a, ∀ b ∈ f i a, key b = i) (l : List ι) (i : ℕ) :
    (l.mapIdx f).flatten.filter (key · == i) = (l[i]?.map (f i)).getD [] := by
  induction l using List.reverseRecOn with
  | nil => rfl
  | append_singleton l a ih =>
    rw [List.mapIdx_concat, List.flatten_append, List.filter_append, ih, List.flatten_singleton]
    have last : (f l.length a).filter (key · == i) = if l.length = i then f l.length a else [] := by
      split
      next here =>
        refine List.filter_eq_self.2 fun b hb => ?_
        rw [h _ _ b hb, here, beq_self_eq_true]
      next other =>
        refine List.filter_eq_nil_iff.2 fun b hb => ?_
        rw [h _ _ b hb, beq_iff_eq]
        exact other
    rw [last]
    rcases Nat.lt_trichotomy i l.length with before | rfl | behind
    · rw [if_neg before.ne', List.append_nil, List.getElem?_append_left before]
    · simp
    · rw [if_neg behind.ne, List.append_nil, List.getElem?_eq_none behind.le,
        List.getElem?_eq_none (by simpa using behind)]

/-- The relations of a row with their bounds. -/
def sides (r : LinearRow Float) : List (String × Float) := (relations r).map (·.2)

def lowerOf (sides : List (String × Float)) : Float :=
  ((sides.lookup "=").or (sides.lookup ">=")).getD Scalar.negInf

def upperOf (sides : List (String × Float)) : Float :=
  ((sides.lookup "=").or (sides.lookup "<=")).getD Scalar.posInf

theorem lowerOf_sides {r : LinearRow Float} (h : Scalar.lt r.lower Scalar.posInf = true) :
    lowerOf (sides r) = r.lower := by
  rw [sides, relations]
  split
  · rfl
  · split
    next => rfl
    next => rfl
    next infinite _ => exact (eq_negInf h infinite).symm
    next infinite _ => exact (eq_negInf h infinite).symm

theorem upperOf_sides {r : LinearRow Float} (h : Scalar.lt Scalar.negInf r.upper = true) :
    (upperOf (sides r) == r.upper) = true := by
  have defined := (beq_self_of_lt h).2
  rw [sides, relations]
  split
  next equality => exact equality
  next =>
    split
    next => exact defined
    next infinite =>
      rw [eq_posInf h infinite] at defined ⊢
      exact defined
    next => exact defined
    next infinite =>
      rw [eq_posInf h infinite] at defined ⊢
      exact defined

/-- A row has a side that is written. -/
def HasFiniteSide (r : LinearRow Float) : Prop :=
  Scalar.isFinite r.lower = true ∨ Scalar.isFinite r.upper = true

theorem relations_ne_nil {r : LinearRow Float} (h : HasFiniteSide r) : relations r ≠ [] := by
  rw [relations]
  split
  · simp
  · split
    next => simp
    next => simp
    next => simp
    next lower upper =>
      rcases h with h | h
      · rw [lower] at h
        cases h
      · rw [upper] at h
        cases h

theorem rowLine_inj {f f' : LinearForm Float} (h : f.Canonical) (h' : f'.Canonical)
    {name name' : String} {side side' : String × Float}
    (same : "" :: name :: (bodyWords f 0 ++ [side.1, Numeral.text side.2]) =
      "" :: name' :: (bodyWords f' 0 ++ [side'.1, Numeral.text side'.2])) :
    f = f' ∧ side = side' := by
  obtain ⟨body, behind⟩ := List.append_inj' (List.cons.inj (List.cons.inj same).2).2 rfl
  simp only [List.cons.injEq, and_true] at behind
  exact ⟨(bodyWords_inj h h' body).1, Prod.ext behind.1 (text_inj behind.2)⟩

/-- The form is canonical, and neither side is an infinity that no number satisfies. -/
structure WritableRow (r : LinearRow Float) : Prop where
  canonical : r.form.Canonical
  lower : Scalar.lt r.lower Scalar.posInf = true
  upper : Scalar.lt Scalar.negInf r.upper = true

/-- Two rows agree, but for which zero the upper side is. -/
structure SameRow (r r' : LinearRow Float) : Prop where
  form : r.form = r'.form
  lower : r.lower = r'.lower
  upper : (r.upper == r'.upper) = true

theorem SameRow.symm {r r' : LinearRow Float} (h : SameRow r r') : SameRow r' r :=
  ⟨h.form.symm, h.lower.symm, PartialEquivBEq.symm h.upper⟩

/-- A row with a finite side is told from its lines. -/
theorem rowWords_inj {i : ℕ} {r r' : LinearRow Float} (h : WritableRow r) (h' : WritableRow r')
    (side : HasFiniteSide r) (same : rowWords i r = rowWords i r') : SameRow r r' := by
  have lines : List.Forall₂ (fun e e' => r.form = r'.form ∧ e.2 = e'.2) (relations r)
      (relations r') := by
    rw [rowWords, rowWords, ← List.forall₂_eq_eq_eq, List.forall₂_map_left_iff,
      List.forall₂_map_right_iff] at same
    exact same.imp fun _ _ line => rowLine_inj h.canonical h'.canonical line
  have form : r.form = r'.form := by
    cases entries : relations r with
    | nil => exact absurd entries (relations_ne_nil side)
    | cons e es =>
      rw [entries] at lines
      obtain ⟨_, _, first, -⟩ := List.forall₂_cons_left_iff.1 lines
      exact first.1
  have told : sides r = sides r' := by
    rw [sides, sides, ← List.forall₂_eq_eq_eq, List.forall₂_map_left_iff,
      List.forall₂_map_right_iff]
    exact lines.imp fun _ _ line => line.2
  refine ⟨form, ?_, ?_⟩
  · rw [← lowerOf_sides h.lower, told, lowerOf_sides h'.lower]
  · have upper := upperOf_sides h.upper
    rw [told] at upper
    exact PartialEquivBEq.trans (PartialEquivBEq.symm upper) (upperOf_sides h'.upper)

/-- Every row with a finite side stands at the same place in the second list. -/
theorem exists_sameRow {rows rows' : List (LinearRow Float)} (h : ∀ r ∈ rows, WritableRow r)
    (h' : ∀ r ∈ rows', WritableRow r)
    (same : (rows.mapIdx rowWords).flatten = (rows'.mapIdx rowWords).flatten) {i : ℕ}
    {r : LinearRow Float} (here : rows[i]? = some r) (side : HasFiniteSide r) :
    ∃ r', rows'[i]? = some r' ∧ SameRow r r' := by
  have lines : rowWords i r = (rows'[i]?.map (rowWords i)).getD [] := by
    have filtered := congrArg (List.filter (lineRow · == i)) same
    rw [filter_flatten_mapIdx fun _ _ _ => lineRow_of_mem_rowWords,
      filter_flatten_mapIdx fun _ _ _ => lineRow_of_mem_rowWords, here] at filtered
    exact filtered
  cases there : rows'[i]? with
  | none =>
    rw [there] at lines
    exact absurd (List.map_eq_nil_iff.1 lines) (relations_ne_nil side)
  | some r' =>
    rw [there] at lines
    exact ⟨r', rfl, rowWords_inj (h r (List.mem_of_getElem? here))
      (h' r' (List.mem_of_getElem? there)) side lines⟩

/-! ### The problem -/

/-- A problem that an LP file tells: the forms are canonical, and no row has a side that cannot be
satisfied or is undefined. -/
structure WritableProblem (objective : Option (LinearObjective Float))
    (rows : List (LinearRow Float)) : Prop where
  objective : (objectiveOf objective).form.Canonical
  rows : ∀ r ∈ rows, WritableRow r

/-- Two objectives agree, but for which zero the constant is. -/
structure SameObjective (o o' : LinearObjective Float) : Prop where
  sense : o.sense = o'.sense
  form : o.form = o'.form
  constant : SameConstant o.constant o'.constant

/-- The text of an LP file determines its problem: the variables with their types and bounds, the
objective, where a missing one is to minimize zero, and at each place the row with a finite side,
in whichever of the two problems it stands. -/
theorem write_determines {domains domains' : List (Domain Float)}
    {objective objective' : Option (LinearObjective Float)} {rows rows' : List (LinearRow Float)}
    (h : WritableProblem objective rows) (h' : WritableProblem objective' rows')
    (same : write domains objective rows = write domains' objective' rows') :
    domains = domains' ∧ SameObjective (objectiveOf objective) (objectiveOf objective') ∧
      ∀ (i : ℕ) (r : LinearRow Float), HasFiniteSide r →
        (rows[i]? = some r → ∃ r', rows'[i]? = some r' ∧ SameRow r r') ∧
        (rows'[i]? = some r → ∃ r', rows[i]? = some r' ∧ SameRow r' r) := by
  obtain ⟨objectives, rowLines, bounds, integers⟩ :=
    sections_inj (document_inj (isLine_document _ _ _) (isLine_document _ _ _) same)
  refine ⟨domains_inj bounds integers, ?_, fun i r side => ⟨fun here => ?_, fun here => ?_⟩⟩
  · rw [objectiveWords_eq, objectiveWords_eq] at objectives
    simp only [List.cons.injEq, true_and, and_true] at objectives
    obtain ⟨form, constant⟩ := bodyWords_inj h.objective h'.objective objectives.2
    exact ⟨senseText_inj objectives.1, form, constant⟩
  · exact exists_sameRow h.rows h'.rows rowLines here side
  · obtain ⟨r', there, agree⟩ := exists_sameRow h'.rows h.rows rowLines.symm here side
    exact ⟨r', there, agree.symm⟩

def equation : LinearRow Float := ⟨⟨[(-3, ⟨0⟩), (0.5, ⟨1⟩)]⟩, 0, 0⟩

def equation' : LinearRow Float := { equation with upper := -0 }

def free : LinearRow Float := ⟨⟨[(1, ⟨1⟩)]⟩, Scalar.negInf, Scalar.posInf⟩

def columns : List (Domain Float) := [.integer 0 2, .continuous Scalar.negInf Scalar.posInf]

/-- Two problems with the same file. The second has an objective, another zero in its equation and
one more row without a finite side. -/
theorem write_determines_up_to_zeros :
    write columns none [free, equation] =
      write columns (some ⟨.minimize, .empty, -0⟩) [free, equation', free] ∧
    HasFiniteSide equation ∧ ∃ r, [free, equation', free][1]? = some r ∧ SameRow equation r := by
  have rows : WritableRow free ∧ WritableRow equation ∧ WritableRow equation' := by
    have forms : free.form.Canonical ∧ equation.form.Canonical := by
      constructor <;> constructor <;> decide +kernel
    exact ⟨⟨forms.1, rfl, rfl⟩, ⟨forms.2, rfl, rfl⟩, ⟨forms.2, rfl, rfl⟩⟩
  have first : WritableProblem none [free, equation] :=
    ⟨LinearForm.canonical_empty, by simp [rows]⟩
  have second : WritableProblem (some ⟨.minimize, .empty, -0⟩) [free, equation', free] :=
    ⟨LinearForm.canonical_empty, by simp [rows]⟩
  have same : write columns none [free, equation] =
      write columns (some ⟨.minimize, .empty, -0⟩) [free, equation', free] := by decide +kernel
  have side : HasFiniteSide equation := .inl rfl
  exact ⟨same, side, ((write_determines first second same).2.2 1 equation side).1 rfl⟩

end SolverBridge.LpText
