/-
  ExprText.Proofs.Tokens
  ──────────────────────
  **READING AND WRITING KEEP THE TOKENS.**

  The tokens of a text are its names, its numbers, the symbols of its operators
  and its minus signs, in the order of the text.  Blanks and parentheses are no
  tokens, and neither is a plus sign in front of an operand.

      tokens " a*(+2.50 - -b)"  =  a  *  2.50  -  minus  b

  The tokens are found without a grammar: from left to right, and with one bit
  of memory, which says whether an operand is expected.  A tree has tokens too,
  those of its leaves and of its nodes from left to right (`Expr.frontier`).

  Whatever text a tree is read from, the tokens of the text are the frontier of
  the tree (`tokens_of_read`); and writing the tree gives them once more
  (`tokens_text`), although by then the sign of a number may have gone from the
  number to a negation.
-/
import ExprText.Proofs.Spelling

namespace ExprText

/-! ## §1. The tokens of a tree. -/

/-- A token of a source text. -/
inductive Token where
  /-- A name. -/
  | name (x : String)
  /-- A number, without a sign. -/
  | number (mantissa scale : Nat)
  /-- The symbol of an operator between two operands. -/
  | operator (op : Operator)
  /-- A minus sign in front of an operand. -/
  | minus
  /-- Characters that make no token. -/
  | unknown (w : List Char)
  deriving DecidableEq, Repr

namespace Expr

/-- The tokens of the tree, from left to right. -/
def frontier : Expr → List Token
  | const value =>
    if value.negative then [.minus, .number value.mantissa value.scale]
    else [.number value.mantissa value.scale]
  | var name => [.name name]
  | neg operand => .minus :: operand.frontier
  | bin op left right => left.frontier ++ .operator op :: right.frontier

/-- **A sign is the same token in a number and in a negation.** -/
theorem frontier_normUnder (negated : Bool) (e : Expr) :
    (e.normUnder negated).frontier = e.frontier := by
  induction e generalizing negated with
  | const value =>
    unfold normUnder
    by_cases h : (value.negative && !negated) = true
    · have hsign : value.negative = true := by simp_all
      rw [if_pos h]
      simp [frontier, hsign]
    · rw [if_neg h]
  | var name => rfl
  | neg operand ih =>
    show Token.minus :: (operand.normUnder true).frontier = _
    rw [ih]
    rfl
  | bin op left right ihleft ihright =>
    show (left.normUnder false).frontier ++ .operator op :: (right.normUnder false).frontier = _
    rw [ihleft, ihright]
    rfl

end Expr

namespace Grammar

open ExprText.Parser

/-! ## §2. The tokens of a text. -/

/-- The decimal that digits denote, with a point among them or without one. -/
def decimalOf? (w : List Char) : Option Decimal :=
  match w.dropWhile Char.isDigit with
  | [] => Decimal.ofInteger? w
  | c :: places =>
    if c = '.' ∧ places ≠ [] ∧ Digits places then
      Decimal.ofFraction? (w.takeWhile Char.isDigit) places
    else none

/-- Is the word a name?  A test that runs. -/
def isName : List Char → Bool
  | [] => false
  | c :: cs => Text.isLetter c && cs.all Text.isWordChar

theorem isName_iff {w : List Char} : isName w = true ↔ Text.IsIdentifier w := by
  cases w with
  | nil => simp [isName, Text.IsIdentifier]
  | cons c cs => simp [isName, Text.IsIdentifier]

/-- A run of word characters and points is a name or a number. -/
def wordToken (w : List Char) : Token :=
  if isName w then .name (String.ofList w)
  else
    match decimalOf? w with
    | some d => .number d.mantissa d.scale
    | none => .unknown w

/-- All operators, the ones with the longer symbols first. -/
def longestFirst : List Operator :=
  [.pow, .eq, .ne, .le, .ge, .add, .sub, .mul, .div, .mod, .lt, .gt]

/-- The tokens of a text.  Where an operand is expected a sign belongs to it; everywhere else it is
the symbol of an operator. -/
def tokensFrom (operandExpected : Bool) : List Char → List Token
  | [] => []
  | c :: s =>
    if Text.isBlank c then tokensFrom operandExpected s
    else if c = '(' then tokensFrom true s
    else if c = ')' then tokensFrom false s
    else if continuesToken c then
      wordToken (c :: s.takeWhile continuesToken) :: tokensFrom false (s.dropWhile continuesToken)
    else if operandExpected ∧ c = '+' then tokensFrom true s
    else if operandExpected ∧ c = '-' then .minus :: tokensFrom true s
    else
      match _h : (symbolAmong longestFirst).run (c :: s) with
      | .ok op t => .operator op :: tokensFrom true t
      | .fail _ => .unknown [c] :: tokensFrom operandExpected s
termination_by s => s.length
decreasing_by
  all_goals try exact Nat.lt_succ_self s.length
  · exact Nat.lt_succ_of_le (List.dropWhile_suffix _).length_le
  · exact consuming_symbolAmong _ _ _ _ _h

/-- The tokens of a whole text. -/
def tokens (s : String) : List Token :=
  tokensFrom true s.toList

/-- A sign behind an operator belongs to the operand, and the longer symbol is one token. -/
example : tokens " a*(+2.50 - -b)**c" =
    [.name "a", .operator .mul, .number 250 2, .operator .sub, .minus, .name "b", .operator .pow,
      .name "c"] := by
  decide +kernel

/-! ## §3. One token. -/

@[simp] theorem tokensFrom_nil (operandExpected : Bool) : tokensFrom operandExpected [] = [] := by
  rw [tokensFrom]

theorem tokensFrom_blanks {w : List Char} (hw : Blanks w) (operandExpected : Bool)
    (r : List Char) : tokensFrom operandExpected (w ++ r) = tokensFrom operandExpected r := by
  induction w with
  | nil => rfl
  | cons c w ih =>
    obtain ⟨hc, hw⟩ := List.forall_mem_cons.1 hw
    rw [List.cons_append, tokensFrom, if_pos hc]
    exact ih hw

theorem tokensFrom_open (operandExpected : Bool) (r : List Char) :
    tokensFrom operandExpected ('(' :: r) = tokensFrom true r := by
  rw [tokensFrom, if_neg (by decide), if_pos rfl]

theorem tokensFrom_close (operandExpected : Bool) (r : List Char) :
    tokensFrom operandExpected (')' :: r) = tokensFrom false r := by
  rw [tokensFrom, if_neg (by decide), if_neg (by decide), if_pos rfl]

theorem tokensFrom_plus (r : List Char) : tokensFrom true ('+' :: r) = tokensFrom true r := by
  rw [tokensFrom, if_neg (by decide), if_neg (by decide), if_neg (by decide), if_neg (by decide),
    if_pos (by decide)]

theorem tokensFrom_minus (r : List Char) :
    tokensFrom true ('-' :: r) = .minus :: tokensFrom true r := by
  rw [tokensFrom, if_neg (by decide), if_neg (by decide), if_neg (by decide), if_neg (by decide),
    if_neg (by decide), if_pos (by decide)]

/-- The characters of a word are no blanks and no parentheses. -/
theorem continuesToken_spec {c : Char} (h : continuesToken c = true) :
    Text.isBlank c = false ∧ c ≠ '(' ∧ c ≠ ')' := by
  refine ⟨?_, ?_, ?_⟩
  · simp only [continuesToken, Bool.or_eq_true, beq_iff_eq] at h
    rcases h with hword | rfl
    · exact isBlank_of_isWordChar hword
    · decide
  · intro hc
    subst hc
    exact absurd h (by decide)
  · intro hc
    subst hc
    exact absurd h (by decide)

/-- A word is read up to where it stops. -/
theorem tokensFrom_word {u r : List Char} (hne : u ≠ []) (hu : ∀ c ∈ u, continuesToken c = true)
    (hr : Stops continuesToken r) (operandExpected : Bool) :
    tokensFrom operandExpected (u ++ r) = wordToken u :: tokensFrom false r := by
  cases u with
  | nil => exact absurd rfl hne
  | cons c v =>
    obtain ⟨hc, hv⟩ := List.forall_mem_cons.1 hu
    obtain ⟨hblank, hopen, hclose⟩ := continuesToken_spec hc
    obtain ⟨htake, hdrop⟩ := eq_append_iff.1 ⟨rfl, hv, hr⟩
    rw [List.cons_append, tokensFrom, if_neg (by simp [hblank]), if_neg hopen, if_neg hclose,
      if_pos hc, ← htake, ← hdrop]

/-- The first character of a symbol is no part of a word, no blank and no parenthesis. -/
theorem symbol_opens (op : Operator) :
    ∃ c v, op.symbol.toList = c :: v ∧ Text.isBlank c = false ∧ c ≠ '(' ∧ c ≠ ')' ∧
      continuesToken c = false := by
  rw [toList_symbol]
  cases op <;> exact ⟨_, _, rfl, by decide, by decide, by decide, by decide⟩

theorem run_longestFirst {op : Operator} {r : List Char} (hr : Stops extendsSymbol r) :
    (symbolAmong longestFirst).run (op.symbol.toList ++ r) = .ok op r := by
  apply run_symbolAmong_of_pairwise
  · decide
  · cases op <;> decide
  · exact hr

/-- Behind an operand the longest symbol is found. -/
theorem tokensFrom_symbol {op : Operator} {r : List Char} (hr : Stops extendsSymbol r) :
    tokensFrom false (op.symbol.toList ++ r) = .operator op :: tokensFrom true r := by
  have hrun : (symbolAmong longestFirst).run (op.symbol.toList ++ r) = .ok op r :=
    run_longestFirst hr
  obtain ⟨c, v, hsymbol, hblank, hopen, hclose, hword⟩ := symbol_opens op
  rw [hsymbol, List.cons_append] at hrun ⊢
  rw [tokensFrom, if_neg (by simp [hblank]), if_neg hopen, if_neg hclose, if_neg (by simp [hword]),
    if_neg (by simp), if_neg (by simp)]
  split
  · next op' t h =>
    rw [hrun] at h
    cases h
    rfl
  · next t h =>
    rw [hrun] at h
    cases h

/-- A spaced symbol is one token, and behind it an operand is expected. -/
theorem tokensFrom_spaced {op : Operator} {rule : Rule} {o v : List Char} {e : Expr}
    (ho : Spaced op o) (hv : Derives rule v e) (r : List Char) :
    tokensFrom false (o ++ (v ++ r)) = .operator op :: tokensFrom true (v ++ r) := by
  obtain ⟨hw, hw'⟩ := ho
  rw [List.append_assoc, List.append_assoc, tokensFrom_blanks hw,
    tokensFrom_symbol (hv.stops_extendsSymbol hw' r), tokensFrom_blanks hw']

/-! ## §4. Names and numbers. -/

theorem continuesToken_of_isWordChar {c : Char} (h : Text.isWordChar c = true) :
    continuesToken c = true := by
  simp [continuesToken, h]

theorem tokensFrom_of_isIdentifier {u r : List Char} (hu : Text.IsIdentifier u)
    (hr : Stops continuesToken r) (operandExpected : Bool) :
    tokensFrom operandExpected (u ++ r) = .name (String.ofList u) :: tokensFrom false r := by
  have hword : ∀ c ∈ u, continuesToken c = true :=
    fun c hc => continuesToken_of_isWordChar (isWordChar_of_isIdentifier hu c hc)
  rw [tokensFrom_word (ne_nil_of_isIdentifier hu) hword hr]
  unfold wordToken
  rw [if_pos (isName_iff.2 hu)]

/-- A numeral denotes its decimal, which has no sign. -/
theorem Numeral.decimalOf?_eq {u : List Char} {d : Decimal} (h : Numeral u d) :
    decimalOf? u = some d := by
  cases h with
  | integer hne hdigits hvalue =>
    have hsplit : u.dropWhile Char.isDigit = [] := by
      obtain ⟨_, hdrop⟩ := eq_append_iff.1 ⟨(List.append_nil u).symm, hdigits, stops_nil _⟩
      exact hdrop.symm
    unfold decimalOf?
    rw [hsplit]
    exact hvalue
  | @fraction integer places _ hinteger hplaces hne hvalue =>
    have hpoint : Stops Char.isDigit ('.' :: places) := stops_cons.2 (by decide)
    obtain ⟨htake, hdrop⟩ := eq_append_iff.1 ⟨rfl, hinteger, hpoint⟩
    unfold decimalOf?
    rw [← htake, ← hdrop]
    show (if '.' = '.' ∧ places ≠ [] ∧ Digits places then _ else none) = _
    rw [if_pos ⟨rfl, hne, hplaces⟩]
    exact hvalue

theorem Numeral.not_isIdentifier {u : List Char} {d : Decimal} (h : Numeral u d) :
    ¬ Text.IsIdentifier u := by
  obtain ⟨c, v, hv, hc⟩ := h.opens
  subst hv
  intro hname
  -- a letter opens no number
  have hopens := opensNumber_of_isLetter hname.1
  rcases hc with hc | hc <;> simp [opensNumber, hc] at hopens

theorem tokensFrom_of_numeral {u r : List Char} {d : Decimal} (hu : Numeral u d)
    (hr : Stops continuesToken r) (operandExpected : Bool) :
    tokensFrom operandExpected (u ++ r) = .number d.mantissa d.scale :: tokensFrom false r := by
  have hword : ∀ c ∈ u, continuesToken c = true := by
    intro c hc
    rcases hu.of_mem hc with hdigit | hpoint
    · exact continuesToken_of_isWordChar (isWordChar_of_isDigit hdigit)
    · rw [hpoint]
      decide
  rw [tokensFrom_word (Derives.number hu).ne_nil hword hr]
  have hname : ¬ isName u = true := fun h => hu.not_isIdentifier (isName_iff.1 h)
  unfold wordToken
  rw [if_neg hname, hu.decimalOf?_eq]

/-! ## §5. The tokens of a derived text. -/

/-- **THE TOKENS OF A DERIVED TEXT ARE THE FRONTIER OF ITS TREE**, whatever follows the text without
running into its last token. -/
theorem tokensFrom_of_derives {rule : Rule} {u r : List Char} {e : Expr} (h : Derives rule u e)
    (hr : Stops continuesToken r) :
    tokensFrom true (u ++ r) = e.frontier ++ tokensFrom false r := by
  induction h generalizing r with
  | name hname => exact tokensFrom_of_isIdentifier hname hr true
  | @number u d hu =>
    rw [tokensFrom_of_numeral hu hr]
    simp [Expr.frontier, hu.negative_eq]
  | @plusNumber u d hu =>
    rw [List.cons_append, tokensFrom_plus, tokensFrom_of_numeral hu hr]
    simp [Expr.frontier, hu.negative_eq]
  | @minusNumber u d hu =>
    rw [List.cons_append, tokensFrom_minus, tokensFrom_of_numeral hu hr]
    simp [Expr.frontier, hu.negative_eq]
  | variableRef _ ih | literal _ ih | plain _ _ ih | base _ ih | operand _ _ ih
  | expression _ ih => exact ih hr
  | @parens w u w' e hw hu hw' ih =>
    -- the closing parenthesis ends the last token inside
    have hclosed : Closed 0 (w' ++ ')' :: r) := closed_append hw' (closed_parenthesis 0 r)
    have hassoc : '(' :: w ++ u ++ w' ++ [')'] ++ r = '(' :: (w ++ (u ++ (w' ++ ')' :: r))) := by
      simp
    rw [hassoc, tokensFrom_open, tokensFrom_blanks hw, ih hclosed.token, tokensFrom_blanks hw',
      tokensFrom_close]
  | @neg u e _ ih =>
    rw [List.cons_append, tokensFrom_minus, ih hr]
    rfl
  | @plus u e _ ih =>
    rw [List.cons_append, tokensFrom_plus, ih hr]
  | @power u o v base exponent _ ho hv ihbase ihexponent =>
    have hclosed : Closed 5 (o ++ (v ++ r)) := closed_of_spaced ho hv (by decide) r
    rw [List.append_assoc, List.append_assoc, ihbase hclosed.token, tokensFrom_spaced ho hv,
      ihexponent hr]
    simp [Expr.frontier]
  | @link rule operand ops op u o v left right _ _ _ ho hv ihleft ihright =>
    have hclosed : Closed (op.precedence + 1) (o ++ (v ++ r)) :=
      closed_of_spaced ho hv (Nat.lt_succ_self _) r
    rw [List.append_assoc, List.append_assoc, ihleft hclosed.token, tokensFrom_spaced ho hv,
      ihright hr]
    simp [Expr.frontier]

/-! ## §6. Reading and writing. -/

theorem tokens_of_read {s : String} {e : Expr} (h : read s = .ok e) : tokens s = e.frontier := by
  obtain ⟨w, u, w', hs, hw, hderives, hw'⟩ := read_eq_ok_iff_padded.1 h
  have hclosed : Closed 0 w' := closed_blanks hw'
  have hend : tokensFrom false w' = [] := by
    have hrun := tokensFrom_blanks hw' false []
    rw [List.append_nil, tokensFrom_nil] at hrun
    exact hrun
  unfold tokens
  rw [hs, List.append_assoc, tokensFrom_blanks hw, tokensFrom_of_derives hderives hclosed.token,
    hend, List.append_nil]

theorem tokens_text {e : Expr} (h : e.WellFormed) : tokens e.text = e.frontier := by
  rw [tokens_of_read (read_text_eq_norm h)]
  exact e.frontier_normUnder false

/-- **REFORMATTING KEEPS EVERY TOKEN.**  The text of a tree has the tokens of every text that the
tree is read from, in the same order: nothing is lost, and nothing comes twice. -/
theorem tokens_text_of_read {s : String} {e : Expr} (h : read s = .ok e) :
    tokens s = tokens e.text ∧ tokens s = e.frontier := by
  have htext := tokens_text (wellFormed_of_read h)
  have htokens := tokens_of_read h
  exact ⟨htokens.trans htext.symm, htokens⟩

/-- Signs of all kinds, and a number that is printed in another way than it was written. -/
theorem tokens_text_of_read_signs :
    read "(a)-(-b ** ++00.50)<=--1" = .ok (.bin .le
      (.bin .sub (.var "a") (.bin .pow (.neg (.var "b")) (.const ⟨false, 50, 2⟩)))
      (.neg (.const ⟨true, 1, 0⟩))) ∧
    tokens "(a)-(-b ** ++00.50)<=--1" = tokens "a - -b ** 0.50 <= --1" ∧
    tokens "(a)-(-b ** ++00.50)<=--1" =
      [.name "a", .operator .sub, .minus, .name "b", .operator .pow, .number 50 2, .operator .le,
        .minus, .minus, .number 1 0] := by
  have hread : read "(a)-(-b ** ++00.50)<=--1" = .ok (.bin .le
      (.bin .sub (.var "a") (.bin .pow (.neg (.var "b")) (.const ⟨false, 50, 2⟩)))
      (.neg (.const ⟨true, 1, 0⟩))) :=
    read_eq_ok_iff.2 (by decide +kernel)
  have htext : (Expr.bin .le
      (.bin .sub (.var "a") (.bin .pow (.neg (.var "b")) (.const ⟨false, 50, 2⟩)))
      (.neg (.const ⟨true, 1, 0⟩))).text = "a - -b ** 0.50 <= --1" := by
    decide +kernel
  obtain ⟨htokens, hfrontier⟩ := tokens_text_of_read hread
  rw [htext] at htokens
  exact ⟨hread, htokens, hfrontier⟩

end Grammar

end ExprText
