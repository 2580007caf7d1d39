import SolverBridge.Proofs.FloatText
import SolverBridge.Proofs.LpWords

/-! The expressions of an LP file. No word of a file contains a blank or a line end, so the words
can be told from one another. A name tells its variable and a number its value. An expression is
items one after the other, each a sign, a magnitude and, for a term, a name: a magnitude is neither
sign, so an item is told from the words that start with it, and a bare zero stands for no items
because a coefficient or a constant that is written is not zero. -/

namespace SolverBridge.LpText

open Decimal FloatParts

/-! ### Every word of a file can be told from its neighbours -/

theorem ne_of_isDigit {c : Char} (h : c.isDigit = true) : c ≠ ' ' ∧ c ≠ '\n' := by
  constructor <;> rintro rfl <;> cases h

theorem isWord_text (x : Float) : IsWord (Numeral.text x) :=
  (isNumberText_text x).forall_mem (fun _ => ne_of_isDigit) (by simp)

theorem isWord_toString (i : ℕ) : IsWord (toString i) := fun _ hc =>
  ne_of_isDigit (isDigit_of_mem_toDigits (Nat.toList_repr ▸ hc))

theorem isWord_name (v : Var) : IsWord v.name := IsWord.append (by decide) (isWord_toString _)

theorem isWord_boundText (x : Float) : IsWord (boundText x) := by
  rw [boundText]
  split
  · decide
  · split
    · decide
    · exact isWord_text x

theorem isWord_of_mem_signWords {first : Bool} {c : Float} :
    ∀ w ∈ signWords first c, IsWord w := by
  rw [signWords]
  split
  · decide
  · split <;> decide

theorem isWord_of_mem_itemWords {constant : Float} {first : Bool} {terms : List (Float × Var)} :
    ∀ ws ∈ itemWords constant first terms, ∀ w ∈ ws, IsWord w := by
  induction terms generalizing first with
  | nil =>
    rw [itemWords]
    split
    · rw [List.forall_mem_singleton, List.forall_mem_append, List.forall_mem_singleton]
      exact ⟨isWord_of_mem_signWords, isWord_text _⟩
    · exact List.forall_mem_nil _
  | cons t rest ih =>
    rw [itemWords, List.forall_mem_cons, List.forall_mem_append, List.forall_mem_cons,
      List.forall_mem_singleton]
    exact ⟨⟨isWord_of_mem_signWords, isWord_text _, isWord_name t.2⟩, ih⟩

theorem isWord_of_mem_bodyWords {f : LinearForm Float} {constant : Float} :
    ∀ w ∈ bodyWords f constant, IsWord w := by
  rw [bodyWords]
  split
  · decide
  · intro w hw
    obtain ⟨ws, hws, hw⟩ := List.mem_flatten.1 hw
    exact isWord_of_mem_itemWords ws hws w hw

theorem isLine_of_mem_objectiveWords {o : Option (LinearObjective Float)} :
    ∀ ws ∈ objectiveWords o, IsLine ws := by
  cases o with
  | none => decide
  | some o =>
    have sense : IsWord (senseText o.sense) := by cases o.sense <;> decide
    rw [objectiveWords, List.forall_mem_cons, List.forall_mem_singleton]
    refine ⟨⟨by simp, by simpa using sense⟩, by simp, ?_⟩
    rw [List.forall_mem_cons, List.forall_mem_cons]
    exact ⟨by decide, by decide, isWord_of_mem_bodyWords⟩

theorem mem_relations {r : LinearRow Float} {e : String × String × Float} (h : e ∈ relations r) :
    e.1 ∈ ["", "_lo", "_hi"] ∧ e.2.1 ∈ ["=", ">=", "<="] := by
  rw [relations] at h
  split at h
  · simp [List.mem_singleton.1 h]
  · split at h <;> simp only [List.mem_cons, List.not_mem_nil, or_false] at h
    · rcases h with rfl | rfl <;> simp
    · simp [h]
    · simp [h]

theorem isWord_rowLabel (i : ℕ) {suffix : String} (h : suffix ∈ ["", "_lo", "_hi"]) :
    IsWord (rowLabel i suffix) := by
  have words : ∀ w ∈ ["", "_lo", "_hi"], IsWord w := by decide
  rw [rowLabel]
  exact ((IsWord.append (by decide) (isWord_toString i)).append (words _ h)).append (by decide)

theorem isLine_of_mem_rowWords {i : ℕ} {r : LinearRow Float} : ∀ ws ∈ rowWords i r, IsLine ws := by
  have words : ∀ w ∈ ["=", ">=", "<="], IsWord w := by decide
  intro ws hws
  obtain ⟨e, he, rfl⟩ := List.mem_map.1 hws
  obtain ⟨suffix, relation⟩ := mem_relations he
  refine ⟨by simp, ?_⟩
  rw [List.forall_mem_cons, List.forall_mem_cons, List.forall_mem_append, List.forall_mem_cons,
    List.forall_mem_singleton]
  exact ⟨by decide, isWord_rowLabel i suffix, isWord_of_mem_bodyWords, words _ relation,
    isWord_text _⟩

theorem isLine_boundWords (v : Var) (d : Domain Float) : IsLine (boundWords v d) := by
  rw [boundWords]
  split
  · exact ⟨by simp, by simpa using ⟨by decide, isWord_name v, by decide⟩⟩
  · refine ⟨by simp, ?_⟩
    simp only [List.forall_mem_cons]
    exact ⟨by decide, isWord_boundText _, by decide, isWord_name v, by decide, isWord_boundText _,
      List.forall_mem_nil _⟩

theorem isLine_of_mem_integerWords {domains : List (Domain Float)} :
    ∀ ws ∈ integerWords domains, IsLine ws := by
  rw [integerWords]
  split
  · exact List.forall_mem_nil _
  · rw [List.forall_mem_cons, List.forall_mem_singleton]
    refine ⟨by decide, by simp, List.forall_mem_cons.2 ⟨by decide, fun w hw => ?_⟩⟩
    obtain ⟨⟨i, d⟩, -, name⟩ := List.mem_filterMap.1 hw
    simp only [Option.ite_none_right_eq_some, Option.some.injEq] at name
    rw [← name.2]
    exact isWord_name _

theorem isLine_document (domains : List (Domain Float)) (objective : Option (LinearObjective Float))
    (rows : List (LinearRow Float)) : ∀ ws ∈ document domains objective rows, IsLine ws := by
  simp only [document, List.forall_mem_append, List.forall_mem_singleton, and_assoc]
  refine ⟨by decide, isLine_of_mem_objectiveWords, by decide, ?_, by decide, ?_,
    isLine_of_mem_integerWords, by decide⟩
  · intro ws hws
    obtain ⟨lines, hl, hws⟩ := List.mem_flatten.1 hws
    obtain ⟨i, hi, rfl⟩ := List.mem_mapIdx.1 hl
    exact isLine_of_mem_rowWords ws hws
  · intro ws hws
    obtain ⟨i, hi, rfl⟩ := List.mem_mapIdx.1 hws
    exact isLine_boundWords _ _

/-! ### Names and numbers -/

theorem text_inj {x y : Float} (h : Numeral.text x = Numeral.text y) : x = y := text_injective h

theorem digitsValue_toString (i : ℕ) : digitsValue (toString i).toList = i :=
  (congrArg digitsValue Nat.toList_repr).trans (digitsValue_toDigits i)

theorem name_inj {v w : Var} (h : v.name = w.name) : v = w := by
  have digits : (toString v.index).toList = (toString w.index).toList := by
    have chars := congrArg String.toList h
    simp only [Var.name, String.toList_append] at chars
    exact List.append_cancel_left chars
  have index : v.index = w.index := by
    rw [← digitsValue_toString v.index, digits, digitsValue_toString]
  cases v
  cases w
  exact congrArg Var.mk index

/-- A number is not a single sign, and has no plus sign. -/
theorem text_ne_sign (x : Float) :
    (Numeral.text x).toList ≠ ['-'] ∧ (Numeral.text x).toList.head? ≠ some '+' := by
  have number := isNumberText_text x
  change (text x).toList ≠ ['-'] ∧ (text x).toList.head? ≠ some '+'
  generalize (text x).toList = cs at *
  cases number with
  | named h => rcases h with _ | ⟨_, _ | ⟨_, _ | ⟨_, ⟨⟩⟩⟩⟩ <;> decide
  | unsigned hc _ => constructor <;> rintro ⟨⟩ <;> cases hc
  | negative _ _ => constructor <;> simp

theorem boundText_eq (x : Float) :
    boundText x = if x == Scalar.posInf then "+inf" else Numeral.text x := by
  have negInf : Numeral.text (Scalar.negInf : Float) = "-inf" := by
    change text _ = _
    rw [text_eq, parts_negInf]
    rfl
  rw [boundText]
  split
  · rfl
  · split
    next h => rw [(beq_infinity_iff parts_negInf).1 h, negInf]
    next => rfl

theorem boundText_inj {x y : Float} (h : boundText x = boundText y) : x = y := by
  have plus (z : Float) : Numeral.text z ≠ "+inf" := fun e => (text_ne_sign z).2 (e ▸ rfl)
  rw [boundText_eq, boundText_eq] at h
  split at h <;> split at h
  next hx hy => rw [(beq_infinity_iff parts_posInf).1 hx, (beq_infinity_iff parts_posInf).1 hy]
  next => exact absurd h.symm (plus y)
  next => exact absurd h (plus x)
  next => exact text_inj h

/-! ### Reading an expression -/

/-- A sign and a magnitude are told from the words that start with them. -/
theorem signed_inj {first : Bool} {c c' : Float} {ws ws' : List String}
    (same : signWords first c ++ Numeral.text (Scalar.abs c) :: ws =
      signWords first c' ++ Numeral.text (Scalar.abs c') :: ws') :
    Scalar.lt c 0 = Scalar.lt c' 0 ∧ Scalar.abs c = Scalar.abs c' ∧ ws = ws' := by
  have isSign (x : Float) : ∀ w ∈ signWords first x, w = "-" ∨ w = "+" := by
    rw [signWords]
    split
    · simp
    · split <;> simp
  have notSign (x : Float) : ¬(Numeral.text x = "-" ∨ Numeral.text x = "+") := by
    rintro (e | e)
    · exact (text_ne_sign x).1 (e ▸ rfl)
    · exact (text_ne_sign x).2 (e ▸ rfl)
  obtain ⟨signs, magnitude, rest⟩ :=
    append_cons_inj (isSign c) (isSign c') (notSign _) (notSign _) same
  refine ⟨?_, text_inj magnitude, rest⟩
  rw [signWords, signWords] at signs
  cases negative : Scalar.lt c 0 <;> cases negative' : Scalar.lt c' 0 <;>
    rw [negative, negative'] at signs
  case false.true => cases first <;> simp at signs
  case true.false => cases first <;> simp at signs

theorem flatten_itemWords_nil (k : Float) (first : Bool) :
    (itemWords k first []).flatten =
      if k != 0 then signWords first k ++ [Numeral.text (Scalar.abs k)] else [] := by
  rw [itemWords]
  split
  · exact List.flatten_singleton
  · rfl

theorem flatten_itemWords_cons (k : Float) (first : Bool) (t : Float × Var)
    (rest : List (Float × Var)) :
    (itemWords k first (t :: rest)).flatten = signWords first t.1 ++
      Numeral.text (Scalar.abs t.1) :: t.2.name :: (itemWords k false rest).flatten := by
  simp [itemWords]

/-- A number that starts an expression stands for a term only if a name follows it. -/
theorem signed_ne_flatten_itemWords_cons {first : Bool} {c k : Float} {t : Float × Var}
    {rest : List (Float × Var)} :
    signWords first c ++ [Numeral.text (Scalar.abs c)] ≠
      (itemWords k first (t :: rest)).flatten := by
  intro same
  rw [flatten_itemWords_cons] at same
  exact absurd (signed_inj same).2.2 (List.cons_ne_nil _ _).symm

theorem flatten_itemWords_nil_ne_cons {k k' : Float} {first : Bool} {t : Float × Var}
    {rest : List (Float × Var)} :
    (itemWords k first []).flatten ≠ (itemWords k' first (t :: rest)).flatten := by
  rw [flatten_itemWords_nil]
  split
  · exact signed_ne_flatten_itemWords_cons
  · simp [flatten_itemWords_cons]

/-- Constants that are written the same. -/
def SameConstant (k k' : Float) : Prop := k = k' ∨ (k == 0) = true ∧ (k' == 0) = true

theorem sameConstant_of_itemWords {k k' : Float} {first : Bool}
    (same : (itemWords k first []).flatten = (itemWords k' first []).flatten) :
    SameConstant k k' := by
  rw [flatten_itemWords_nil, flatten_itemWords_nil] at same
  split at same <;> split at same
  next nonzero nonzero' =>
    obtain ⟨sign, magnitude, -⟩ := signed_inj same
    exact .inl (eq_of_abs magnitude sign nonzero nonzero')
  next => simp at same
  next => simp at same
  next zero zero' =>
    rw [bne, Bool.not_eq_true', Bool.not_eq_false] at zero zero'
    exact .inr ⟨zero, zero'⟩

/-- Terms with coefficients other than zero, and a constant up to the sign of zero, are told from
their words. -/
theorem itemWords_inj {k k' : Float} {first : Bool} {terms terms' : List (Float × Var)}
    (h : ∀ t ∈ terms, (t.1 != 0) = true) (h' : ∀ t ∈ terms', (t.1 != 0) = true)
    (same : (itemWords k first terms).flatten = (itemWords k' first terms').flatten) :
    terms = terms' ∧ SameConstant k k' := by
  induction terms generalizing first terms' with
  | nil =>
    cases terms' with
    | nil => exact ⟨rfl, sameConstant_of_itemWords same⟩
    | cons t' rest' => exact absurd same flatten_itemWords_nil_ne_cons
  | cons t rest ih =>
    cases terms' with
    | nil => exact absurd same.symm flatten_itemWords_nil_ne_cons
    | cons t' rest' =>
      rw [List.forall_mem_cons] at h h'
      rw [flatten_itemWords_cons, flatten_itemWords_cons] at same
      obtain ⟨sign, magnitude, behind⟩ := signed_inj same
      obtain ⟨name, behind⟩ := List.cons.inj behind
      obtain ⟨rfl, constant⟩ := ih h.2 h'.2 behind
      have coefficient := eq_of_abs magnitude sign h.1 h'.1
      exact ⟨congrArg (· :: rest) (Prod.ext coefficient (name_inj name)), constant⟩

/-- The bare zero is not the text of an item, since a constant of zero is left out. -/
theorem flatten_itemWords_ne_zero {k : Float} {terms : List (Float × Var)} :
    (itemWords k true terms).flatten ≠ ["0"] := by
  have zero : ["0"] = signWords true (0 : Float) ++ [Numeral.text (Scalar.abs (0 : Float))] := by
    decide +kernel
  cases terms with
  | nil =>
    rw [flatten_itemWords_nil]
    split
    next nonzero =>
      intro same
      obtain ⟨-, magnitude, -⟩ := signed_inj (same.trans zero)
      have isZero : (k == 0) = true :=
        beq_zero_iff.2 (eq_zero_of_abs (by rw [magnitude, parts_abs, parts_zero]; rfl))
      rw [bne, isZero] at nonzero
      cases nonzero
    next => exact (List.cons_ne_nil _ _).symm
  | cons t rest =>
    rw [zero]
    exact signed_ne_flatten_itemWords_cons.symm

/-- A canonical form and a constant are told from their words. -/
theorem bodyWords_inj {f f' : LinearForm Float} {k k' : Float} (h : f.Canonical)
    (h' : f'.Canonical) (same : bodyWords f k = bodyWords f' k') : f = f' ∧ SameConstant k k' := by
  have items : (itemWords k true f.terms).flatten = (itemWords k' true f'.terms).flatten := by
    rw [bodyWords, bodyWords] at same
    split at same <;> split at same
    next none none' => rw [List.isEmpty_iff.1 none, List.isEmpty_iff.1 none']
    next => exact absurd same.symm flatten_itemWords_ne_zero
    next => exact absurd same flatten_itemWords_ne_zero
    next => exact same
  obtain ⟨terms, constant⟩ := itemWords_inj h.2 h'.2 items
  exact ⟨congrArg LinearForm.mk terms, constant⟩

end SolverBridge.LpText
