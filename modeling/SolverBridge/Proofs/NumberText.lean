import SolverBridge.Decimal.Reader
import SolverBridge.Decimal.Text

/-! Texts of numbers. An integer is read back from its digits. A number that is written
positionally has a digit first and only digits and points after it, so the text of a number
never contains white space, quotes or letters that are not part of a named value. -/

namespace SolverBridge.Decimal

/-! ### Digits -/

theorem digitsValue_toDigits (n : Nat) : digitsValue (Nat.toDigits 10 n) = n :=
  Nat.ofDigitChars_ten_toDigits

theorem isDigit_of_mem_toDigits {n : Nat} {c : Char} (h : c ∈ Nat.toDigits 10 n) :
    c.isDigit = true := Nat.isDigit_of_mem_toDigits (by decide) (by decide) h

theorem exists_toDigits_eq_cons (n : Nat) :
    ∃ c ds, Nat.toDigits 10 n = c :: ds ∧ c.isDigit = true := by
  cases h : Nat.toDigits 10 n with
  | nil => exact absurd h Nat.toDigits_ne_nil
  | cons c ds => exact ⟨c, ds, rfl, isDigit_of_mem_toDigits (h ▸ List.mem_cons_self)⟩

theorem natural?_toDigits (n : Nat) : natural? (Nat.toDigits 10 n) = some n := by
  have digits : (Nat.toDigits 10 n).all Char.isDigit = true :=
    List.all_eq_true.2 fun c => isDigit_of_mem_toDigits
  rw [natural?, if_pos ⟨Nat.toDigits_ne_nil, digits⟩, digitsValue_toDigits]

/-! ### Integers -/

theorem takeSign_of_isDigit {c : Char} {cs : List Char} (h : c.isDigit = true) :
    takeSign (c :: cs) = (false, c :: cs) := by
  unfold takeSign
  split
  next heq => cases heq; cases h
  next heq => cases heq; cases h
  next => rfl

theorem toList_toString_int (i : Int) :
    (toString i).toList =
      if i < 0 then '-' :: Nat.toDigits 10 i.natAbs else Nat.toDigits 10 i.natAbs := by
  cases i with
  | ofNat n =>
    rw [if_neg (by simp)]
    exact Nat.toList_repr
  | negSucc n =>
    rw [if_pos (Int.negSucc_lt_zero n)]
    change ("-" ++ (n + 1).repr).toList = _
    rw [String.toList_append, Nat.toList_repr]
    rfl

theorem integer?_toString (i : Int) : integer? (toString i).toList = some i := by
  rw [toList_toString_int]
  split
  next negative =>
    simp only [integer?, takeSign, natural?_toDigits, Option.map_some, signed, if_true]
    rw [show -(i.natAbs : Int) = i by omega]
  next nonneg =>
    obtain ⟨c, ds, hd, isDigit⟩ := exists_toDigits_eq_cons i.natAbs
    have natural := natural?_toDigits i.natAbs
    rw [hd] at natural ⊢
    simp only [integer?, takeSign_of_isDigit isDigit, natural, Option.map_some, signed]
    rw [if_neg (by decide), show (i.natAbs : Int) = i by omega]

theorem int64?_toString (i : Int64) : int64? (toString i.toInt) = some i := by
  have range : Int64.minValue.toInt ≤ i.toInt ∧ i.toInt ≤ Int64.maxValue.toInt :=
    ⟨Int64.minValue_le_toInt i, Int64.toInt_le i⟩
  rw [int64?, integer?_toString, Option.bind_some, if_pos range, Int64.ofInt_toInt]

/-! ### Positional notation -/

/-- A character of a number in positional notation. -/
def IsPositional (c : Char) : Prop := c.isDigit = true ∨ c = '.'

theorem positional_eq_cons (x : Scientific) :
    ∃ c cs, x.positional.toList = c :: cs ∧ c.isDigit = true ∧ ∀ d ∈ cs, IsPositional d := by
  obtain ⟨c, ds, hd, isDigit⟩ := exists_toDigits_eq_cons x.digits
  have digits : ∀ d ∈ c :: ds, IsPositional d := fun d h => .inl (isDigit_of_mem_toDigits (hd ▸ h))
  have zeros (n : Nat) : ∀ d ∈ List.replicate n '0', IsPositional d := by
    intro d h
    rw [List.eq_of_mem_replicate h]
    exact .inl (by decide)
  simp only [Scientific.positional, hd]
  split
  next =>
    refine ⟨c, ds ++ List.replicate x.exponent.toNat '0', by simp, isDigit, fun d h => ?_⟩
    rcases List.mem_append.1 h with h | h
    · exact digits d (List.mem_cons_of_mem _ h)
    · exact zeros _ d h
  next =>
    split
    next =>
      refine ⟨'0', '.' :: (List.replicate ((-x.exponent).toNat - (c :: ds).length) '0' ++ c :: ds),
        by simp, by decide, fun d h => ?_⟩
      rcases List.mem_cons.1 h with rfl | h
      · exact .inr rfl
      · rcases List.mem_append.1 h with h | h
        · exact zeros _ d h
        · exact digits d h
    next whole =>
      obtain ⟨w, hw⟩ := Nat.exists_eq_succ_of_ne_zero whole
      rw [hw]
      refine ⟨c, ds.take w ++ '.' :: ds.drop w, by simp, isDigit, fun d h => ?_⟩
      rcases List.mem_append.1 h with h | h
      · exact digits d (List.mem_cons_of_mem _ (List.mem_of_mem_take h))
      · rcases List.mem_cons.1 h with rfl | h
        · exact .inr rfl
        · exact digits d (List.mem_cons_of_mem _ (List.mem_of_mem_drop h))

/-! ### Texts of numbers -/

/-- The text of a number is a sign or none, and a named value or a positional one. -/
inductive IsNumberText : List Char → Prop
  | named {word : List Char} (h : word ∈ ["NaN".toList, "inf".toList, "-inf".toList]) :
      IsNumberText word
  | unsigned {c : Char} {cs : List Char} (hc : c.isDigit = true) (h : ∀ d ∈ cs, IsPositional d) :
      IsNumberText (c :: cs)
  | negative {c : Char} {cs : List Char} (hc : c.isDigit = true) (h : ∀ d ∈ cs, IsPositional d) :
      IsNumberText ('-' :: c :: cs)

theorem IsNumberText.ne_nil {cs : List Char} (h : IsNumberText cs) : cs ≠ [] := by
  cases h with
  | named h =>
    rintro rfl
    exact absurd h (by decide)
  | unsigned _ _ => exact List.cons_ne_nil _ _
  | negative _ _ => exact List.cons_ne_nil _ _

/-- What holds of the digits, the point, the sign and the letters of the named values holds of
every character. -/
theorem IsNumberText.forall_mem {p : Char → Prop} {cs : List Char} (h : IsNumberText cs)
    (digit : ∀ c, c.isDigit = true → p c) (mark : ∀ c ∈ ['.', '-', 'N', 'a', 'i', 'n', 'f'], p c) :
    ∀ c ∈ cs, p c := by
  have positional : ∀ c, IsPositional c → p c := by
    rintro c (hc | rfl)
    · exact digit c hc
    · exact mark '.' (by decide)
  cases h with
  | named h =>
    have letters : ∀ w ∈ ["NaN".toList, "inf".toList, "-inf".toList],
        w ⊆ ['.', '-', 'N', 'a', 'i', 'n', 'f'] := by simp
    exact fun c hc => mark c (letters _ h hc)
  | unsigned hc h => exact List.forall_mem_cons.2 ⟨digit _ hc, fun d hd => positional d (h d hd)⟩
  | negative hc h =>
    exact List.forall_mem_cons.2 ⟨mark '-' (by decide), List.forall_mem_cons.2
      ⟨digit _ hc, fun d hd => positional d (h d hd)⟩⟩

theorem isNumberText_toString (i : Int) : IsNumberText (toString i).toList := by
  obtain ⟨c, ds, hd, isDigit⟩ := exists_toDigits_eq_cons i.natAbs
  have digits : ∀ d ∈ ds, IsPositional d := fun d h =>
    .inl (isDigit_of_mem_toDigits (hd ▸ List.mem_cons_of_mem _ h))
  rw [toList_toString_int, hd]
  split
  next => exact .negative isDigit digits
  next => exact .unsigned isDigit digits

theorem isNumberText_text (x : Float) : IsNumberText (text x).toList := by
  have finite : ∃ c cs, (((Binary.ofBits? x.toBits).map fun b => b.shortest.positional).getD
      "0").toList = c :: cs ∧ c.isDigit = true ∧ ∀ d ∈ cs, IsPositional d := by
    cases Binary.ofBits? x.toBits with
    | none => exact ⟨'0', [], rfl, by decide, nofun⟩
    | some b => exact positional_eq_cons _
  obtain ⟨c, cs, whole, hc, h⟩ := finite
  rw [text]
  split
  next => exact .named (by decide)
  next =>
    dsimp only
    by_cases inf : x.isInf = true
    · rw [if_pos inf]
      split
      next => exact .named (by decide)
      next => exact .named (by decide)
    · rw [if_neg inf]
      split
      next =>
        rw [String.toList_append, whole]
        exact .negative hc h
      next =>
        rw [whole]
        exact .unsigned hc h

end SolverBridge.Decimal
