/-
  ExprText.Proofs.Derivation
  ──────────────────────────
  **THE GRAMMAR AS A RELATION.**

  `Derives rule u e` says that the whole text `u` is a `rule` and that its tree
  is `e`.  Nothing here reads from the front, tries alternatives in order or
  goes back: the relation only lists what may stand next to what.

      relational      ::=  additive        |  relational (op) additive
      additive        ::=  multiplicative  |  additive (op) multiplicative
      multiplicative  ::=  exponential     |  multiplicative (op) exponential
      exponential     ::=  unary           |  unary (**) exponential
      unary           ::=  "-" primary  |  "+" primary  |  primary
      primary         ::=  name  |  number  |  "(" ws relational ws ")"

  where `(op)` is the symbol of an operator between blanks (`Spaced`).

  Main statements: every derived text opens and closes with a character of an
  operand (`Derives.opens`, `Derives.closes`), so no blank and no symbol of an
  operator ever stands at its edge.
-/
import ExprText.Grammar.Rules

namespace ExprText.Grammar

/-! ## §1. The pieces of a text. -/

/-- A run of blanks, possibly none. -/
def Blanks (w : List Char) : Prop :=
  ∀ c ∈ w, Text.isBlank c = true

/-- A run of digits, possibly none. -/
def Digits (w : List Char) : Prop :=
  ∀ c ∈ w, c.isDigit = true

instance (w : List Char) : Decidable (Blanks w) := List.decidableBAll _ w

instance (w : List Char) : Decidable (Digits w) := List.decidableBAll _ w

/-- The texts of numbers without a sign, and their decimals. -/
inductive Numeral : List Char → Decimal → Prop where
  /-- Digits that make an integer in range. -/
  | integer {digits : List Char} {d : Decimal} (hne : digits ≠ []) (hdigits : Digits digits)
      (hvalue : Decimal.ofInteger? digits = some d) : Numeral digits d
  /-- Digits around a point, at least one of them behind it, that make a decimal in range. -/
  | fraction {integer places : List Char} {d : Decimal} (hinteger : Digits integer)
      (hplaces : Digits places) (hne : places ≠ [])
      (hvalue : Decimal.ofFraction? integer places = some d) :
      Numeral (integer ++ '.' :: places) d

/-- The symbol of the operator between two runs of blanks. -/
inductive Spaced (op : Operator) : List Char → Prop where
  | intro {w w' : List Char} (hbefore : Blanks w) (hafter : Blanks w') :
      Spaced op (w ++ op.symbol.toList ++ w')

/-- `Level rule ops operand`: the rule joins texts of the rule `operand` by the operators `ops`,
which group to the left. -/
inductive Level : Rule → List Operator → Rule → Prop where
  | relational : Level .relational [.eq, .ne, .le, .ge, .lt, .gt] .additive
  | additive : Level .additive [.add, .sub] .multiplicative
  | multiplicative : Level .multiplicative [.mul, .div, .mod] .exponential

/-! ## §2. Derivations. -/

/-- The text is derived from the rule, with this tree. -/
inductive Derives : Rule → List Char → Expr → Prop where
  /-- A name is a variable. -/
  | name {u : List Char} (h : Text.IsIdentifier u) :
      Derives .variableRef u (.var (String.ofList u))
  /-- A number is a constant. -/
  | number {u : List Char} {d : Decimal} (h : Numeral u d) : Derives .literal u (.const d)
  /-- A plus sign in front of a number changes nothing. -/
  | plusNumber {u : List Char} {d : Decimal} (h : Numeral u d) :
      Derives .literal ('+' :: u) (.const d)
  /-- A minus sign in front of a number flips its sign. -/
  | minusNumber {u : List Char} {d : Decimal} (h : Numeral u d) :
      Derives .literal ('-' :: u) (.const (-d))
  | variableRef {u : List Char} {e : Expr} (h : Derives .variableRef u e) : Derives .primary u e
  | literal {u : List Char} {e : Expr} (h : Derives .literal u e) : Derives .primary u e
  /-- A relational text in parentheses, with blanks inside them. -/
  | parens {w u w' : List Char} {e : Expr} (hbefore : Blanks w) (h : Derives .relational u e)
      (hafter : Blanks w') : Derives .primary ('(' :: w ++ u ++ w' ++ [')']) e
  /-- A minus sign in front of a primary text negates it. -/
  | neg {u : List Char} {e : Expr} (h : Derives .primary u e) : Derives .unary ('-' :: u) (.neg e)
  /-- A plus sign in front of a primary text changes nothing. -/
  | plus {u : List Char} {e : Expr} (h : Derives .primary u e) : Derives .unary ('+' :: u) e
  /-- A primary text on its own.  A minus sign at its front would be a negation. -/
  | plain {u : List Char} {e : Expr} (h : Derives .primary u e) (hminus : u.head? ≠ some '-') :
      Derives .unary u e
  | base {u : List Char} {e : Expr} (h : Derives .unary u e) : Derives .exponential u e
  /-- A base and its exponent. -/
  | power {u o v : List Char} {base exponent : Expr} (hbase : Derives .unary u base)
      (ho : Spaced .pow o) (hexponent : Derives .exponential v exponent) :
      Derives .exponential (u ++ o ++ v) (.bin .pow base exponent)
  | operand {rule operand : Rule} {ops : List Operator} {u : List Char} {e : Expr}
      (level : Level rule ops operand) (h : Derives operand u e) : Derives rule u e
  /-- What stands before the last operator of a level is the left operand. -/
  | link {rule operand : Rule} {ops : List Operator} {op : Operator} {u o v : List Char}
      {left right : Expr} (level : Level rule ops operand) (hop : op ∈ ops)
      (hleft : Derives rule u left) (ho : Spaced op o) (hright : Derives operand v right) :
      Derives rule (u ++ o ++ v) (.bin op left right)
  | expression {u : List Char} {e : Expr} (h : Derives .relational u e) : Derives .expression u e

/-! ## §3. The edges of a derived text. -/

/-- The characters that an operand can start with. -/
def opensOperand (c : Char) : Bool :=
  Text.isWordChar c || c == '.' || c == '+' || c == '-' || c == '('

/-- The characters that an operand can end with. -/
def closesOperand (c : Char) : Bool :=
  Text.isWordChar c || c == ')'

theorem isWordChar_of_isDigit {c : Char} (h : c.isDigit = true) : Text.isWordChar c = true := by
  simp [Text.isWordChar, h]

theorem isWordChar_of_isLetter {c : Char} (h : Text.isLetter c = true) :
    Text.isWordChar c = true := by
  simp [Text.isWordChar, h]

theorem ne_nil_of_isIdentifier {u : List Char} (h : Text.IsIdentifier u) : u ≠ [] := by
  intro hu
  subst hu
  exact h

theorem isWordChar_of_isIdentifier {u : List Char} (h : Text.IsIdentifier u) :
    ∀ c ∈ u, Text.isWordChar c = true := by
  cases u with
  | nil => exact h.elim
  | cons c cs =>
    intro d hd
    cases hd with
    | head => exact isWordChar_of_isLetter h.1
    | tail _ hd => exact h.2 d hd

/-- Letters stand between `A` and `z` in the code table. -/
theorem toNat_of_isLetter {c : Char} (h : Text.isLetter c = true) :
    65 ≤ c.toNat ∧ c.toNat ≤ 122 := by
  have hle : ∀ {a b : Char}, a ≤ b → a.toNat ≤ b.toNat := fun h => UInt32.le_iff_toNat_le.1 h
  rcases Text.isLetter_iff.1 h with (⟨hlow, hhigh⟩ | ⟨hlow, hhigh⟩) | hunderscore
  · exact ⟨hle hlow, Nat.le_trans (hle hhigh) (by decide)⟩
  · exact ⟨Nat.le_trans (by decide) (hle hlow), hle hhigh⟩
  · subst hunderscore
    decide

/-- Word characters stand between `0` and `z` in the code table. -/
theorem toNat_of_isWordChar {c : Char} (h : Text.isWordChar c = true) :
    48 ≤ c.toNat ∧ c.toNat ≤ 122 := by
  rcases Bool.or_eq_true_iff.1 h with hdigit | hletter
  · obtain ⟨hlow, hhigh⟩ := Char.isDigit_iff_toNat.1 hdigit
    have h0 : '0'.toNat = 48 := rfl
    have h9 : '9'.toNat = 57 := rfl
    omega
  · obtain ⟨hlow, hhigh⟩ := toNat_of_isLetter hletter
    omega

/-- No blank has a code between 33 and 132. -/
theorem toNat_of_isBlank {c : Char} (h : Text.isBlank c = true) :
    c.toNat ≤ 32 ∨ 133 ≤ c.toNat := by
  obtain ⟨r, hr, hlo, hhi⟩ := Text.CharSet.contains_iff.1 h
  have hranges : ∀ r ∈ Text.blanks.ranges, r.2 ≤ 32 ∨ 133 ≤ r.1 := by decide
  have hout := hranges r hr
  omega

theorem isBlank_of_isWordChar {c : Char} (h : Text.isWordChar c = true) :
    Text.isBlank c = false := by
  have hword := toNat_of_isWordChar h
  apply Bool.eq_false_iff.2
  intro hb
  have hblank := toNat_of_isBlank hb
  omega

theorem isWordChar_of_isBlank {c : Char} (h : Text.isBlank c = true) :
    Text.isWordChar c = false := by
  apply Bool.eq_false_iff.2
  intro hword
  rw [isBlank_of_isWordChar hword] at h
  cases h

theorem isLetter_of_not_word {c : Char} (h : Text.isWordChar c = false) :
    Text.isLetter c = false := by
  apply Bool.eq_false_iff.2
  intro hletter
  rw [isWordChar_of_isLetter hletter] at h
  cases h

/-- An operand starts with no blank and inside no symbol of two characters. -/
theorem opensOperand_spec {c : Char} (h : opensOperand c = true) :
    Text.isBlank c = false ∧ c ≠ '*' ∧ c ≠ '=' := by
  simp only [opensOperand, Bool.or_eq_true, beq_iff_eq] at h
  rcases h with (((h | rfl) | rfl) | rfl) | rfl
  · refine ⟨isBlank_of_isWordChar h, ?_, ?_⟩
    · intro hc
      subst hc
      exact absurd h (by decide)
    · intro hc
      subst hc
      exact absurd h (by decide)
  all_goals decide

theorem isBlank_of_closesOperand {c : Char} (h : closesOperand c = true) :
    Text.isBlank c = false := by
  simp only [closesOperand, Bool.or_eq_true, beq_iff_eq] at h
  rcases h with h | rfl
  · exact isBlank_of_isWordChar h
  · decide

/-- A numeral has no characters but digits and the point. -/
theorem Numeral.of_mem {u : List Char} {d : Decimal} (h : Numeral u d) {c : Char} (hc : c ∈ u) :
    c.isDigit = true ∨ c = '.' := by
  cases h with
  | integer _ hdigits _ => exact .inl (hdigits c hc)
  | fraction hinteger hplaces _ _ =>
    rcases List.mem_append.1 hc with hc | hc
    · exact .inl (hinteger c hc)
    · rcases List.mem_cons.1 hc with hc | hc
      · exact .inr hc
      · exact .inl (hplaces c hc)

/-- A numeral starts with a digit or with the point. -/
theorem Numeral.opens {u : List Char} {d : Decimal} (h : Numeral u d) :
    ∃ c v, u = c :: v ∧ (c.isDigit = true ∨ c = '.') := by
  cases h with
  | integer hne hdigits _ =>
    cases u with
    | nil => exact absurd rfl hne
    | cons c cs => exact ⟨c, cs, rfl, .inl (hdigits c List.mem_cons_self)⟩
  | @fraction integer places _ hinteger _ _ _ =>
    cases integer with
    | nil => exact ⟨'.', places, rfl, .inr rfl⟩
    | cons c cs => exact ⟨c, cs ++ '.' :: places, rfl, .inl (hinteger c List.mem_cons_self)⟩

/-- The last character of a run that is not empty. -/
theorem exists_last {isMember : Char → Bool} {w : List Char} (hne : w ≠ [])
    (h : ∀ c ∈ w, isMember c = true) : ∃ v c, w = v ++ [c] ∧ isMember c = true :=
  ⟨w.dropLast, w.getLast hne, (List.dropLast_concat_getLast hne).symm,
    h _ (List.getLast_mem hne)⟩

/-- A numeral ends with a digit. -/
theorem Numeral.closes {u : List Char} {d : Decimal} (h : Numeral u d) :
    ∃ v c, u = v ++ [c] ∧ c.isDigit = true := by
  cases h with
  | integer hne hdigits _ => exact exists_last hne hdigits
  | @fraction integer places _ _ hplaces hne _ =>
    obtain ⟨v, c, hv, hc⟩ := exists_last hne hplaces
    exact ⟨integer ++ '.' :: v, c, by rw [hv]; simp, hc⟩

/-- No sign is read with the digits. -/
theorem Numeral.negative_eq {u : List Char} {d : Decimal} (h : Numeral u d) :
    d.negative = false := by
  cases h with
  | integer _ _ hvalue =>
    obtain ⟨_, hd⟩ := Decimal.ofInteger?_eq_some_iff.1 hvalue
    rw [hd]
  | fraction _ _ _ hvalue =>
    obtain ⟨_, m, k, _, hd⟩ := Decimal.ofFraction?_eq_some_iff.1 hvalue
    rw [hd]

/-- **A derived text starts with an operand.** -/
theorem Derives.opens {rule : Rule} {u : List Char} {e : Expr} (h : Derives rule u e) :
    ∃ c v, u = c :: v ∧ opensOperand c = true := by
  induction h with
  | @name u h =>
    cases u with
    | nil => exact h.elim
    | cons c cs =>
      have hc := isWordChar_of_isLetter h.1
      exact ⟨c, cs, rfl, by simp [opensOperand, hc]⟩
  | number h =>
    obtain ⟨c, v, rfl, hc⟩ := h.opens
    refine ⟨c, v, rfl, ?_⟩
    rcases hc with hc | rfl
    · simp [opensOperand, isWordChar_of_isDigit hc]
    · decide
  | plusNumber _ => exact ⟨'+', _, rfl, by decide⟩
  | minusNumber _ => exact ⟨'-', _, rfl, by decide⟩
  | parens _ _ _ _ => exact ⟨'(', _, rfl, by decide⟩
  | neg _ _ => exact ⟨'-', _, rfl, by decide⟩
  | plus _ _ => exact ⟨'+', _, rfl, by decide⟩
  | variableRef _ ih | literal _ ih | plain _ _ ih | base _ ih | operand _ _ ih
  | expression _ ih => exact ih
  | @power u o v _ _ _ _ _ ih _ =>
    obtain ⟨c, u', rfl, hc⟩ := ih
    exact ⟨c, u' ++ o ++ v, rfl, hc⟩
  | @link _ _ _ _ u o v _ _ _ _ _ _ _ ih _ =>
    obtain ⟨c, u', rfl, hc⟩ := ih
    exact ⟨c, u' ++ o ++ v, rfl, hc⟩

theorem Derives.ne_nil {rule : Rule} {u : List Char} {e : Expr} (h : Derives rule u e) :
    u ≠ [] := by
  obtain ⟨c, v, hv, _⟩ := h.opens
  rw [hv]
  exact List.cons_ne_nil c v

/-- **A derived text ends with an operand.** -/
theorem Derives.closes {rule : Rule} {u : List Char} {e : Expr} (h : Derives rule u e) :
    ∃ v c, u = v ++ [c] ∧ closesOperand c = true := by
  induction h with
  | name h =>
    obtain ⟨v, c, hv, hc⟩ := exists_last (ne_nil_of_isIdentifier h) (isWordChar_of_isIdentifier h)
    exact ⟨v, c, hv, by simp [closesOperand, hc]⟩
  | number h =>
    obtain ⟨v, c, rfl, hc⟩ := h.closes
    exact ⟨v, c, rfl, by simp [closesOperand, isWordChar_of_isDigit hc]⟩
  | plusNumber h =>
    obtain ⟨v, c, rfl, hc⟩ := h.closes
    exact ⟨'+' :: v, c, rfl, by simp [closesOperand, isWordChar_of_isDigit hc]⟩
  | minusNumber h =>
    obtain ⟨v, c, rfl, hc⟩ := h.closes
    exact ⟨'-' :: v, c, rfl, by simp [closesOperand, isWordChar_of_isDigit hc]⟩
  | parens _ _ _ _ => exact ⟨_, ')', rfl, by decide⟩
  | neg _ ih =>
    obtain ⟨v, c, rfl, hc⟩ := ih
    exact ⟨'-' :: v, c, rfl, hc⟩
  | plus _ ih =>
    obtain ⟨v, c, rfl, hc⟩ := ih
    exact ⟨'+' :: v, c, rfl, hc⟩
  | variableRef _ ih | literal _ ih | plain _ _ ih | base _ ih | operand _ _ ih
  | expression _ ih => exact ih
  | @power u o _ _ _ _ _ _ _ ih =>
    obtain ⟨v, c, rfl, hc⟩ := ih
    exact ⟨u ++ o ++ v, c, by simp, hc⟩
  | @link _ _ _ _ u o _ _ _ _ _ _ _ _ _ ih =>
    obtain ⟨v, c, rfl, hc⟩ := ih
    exact ⟨u ++ o ++ v, c, by simp, hc⟩

end ExprText.Grammar
