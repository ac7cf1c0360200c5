/-
  ExprText.Proofs.Spelling
  ────────────────────────
  **A TREE HAS A TEXT IF AND ONLY IF IT IS WELL-FORMED.**

  The printer does not find a text for every tree: what it writes is read as the
  normal form, where the sign of a constant has become a negation.  One plus sign
  more leaves the sign to the constant:

      printed    -5 ** 2      read as   (negation of 5) ** 2
      spelled   +-5 ** 2      read as   (constant -5) ** 2

  `spelling` is the printer with that plus sign.  It is read as the tree itself,
  part by part (`read_spelling`), and nothing but well-formed trees is ever read
  (`wellFormed_of_derives`).
-/
import ExprText.Proofs.RoundTrip

namespace ExprText

/-! ## §1. The spelling. -/

namespace Expr

/-- The text of an expression, with a plus sign in front of every sign of a constant that would be
read as a negation.  Behind a negation, where the tree is `negated`, none is needed. -/
def spellUnder (negated : Bool) (place : Nat) : Expr → List Char
  | const value =>
    if value.negative && !negated then '+' :: value.numeral else value.numeral
  | var name => name.toList
  | neg operand =>
    parenthesizeIf (negPrecedence < place) ('-' :: operand.spellUnder true primaryPrecedence)
  | bin op left right =>
    parenthesizeIf (op.precedence < place)
      (left.spellUnder false op.leftPlace ++
        ' ' :: op.symbol.toList ++ ' ' :: right.spellUnder false op.rightPlace)

/-- A text that is read as the expression. -/
def spelling (e : Expr) : String :=
  String.ofList (e.spellUnder false 0)

end Expr

namespace Grammar

/-! ## §2. A spelled tree is derived. -/

/-- A plus sign keeps the sign of a constant, and a constant without a sign needs none. -/
theorem derives_const_spelled {d : Decimal} {place : Nat} (h : d.Representable)
    (hplace : place ≤ 5) :
    Derives (ruleAt place) ((Expr.const d).spellUnder false place) (.const d) := by
  have hprimary := derives_const_primary h
  unfold Expr.spellUnder
  by_cases hsign : d.negative = true
  · have hunary : Derives (ruleAt 5) ('+' :: d.numeral) (.const d) := .plus hprimary
    rw [if_pos (by simp [hsign])]
    exact hunary.loosen hplace (Nat.le_refl 5)
  · have hnorm : (Expr.const d).normUnder false = .const d :=
      Expr.normUnder_eq_self_iff.2 fun hnegative => absurd hnegative hsign
    have hderives := derives_const h hplace
    rw [hnorm] at hderives
    rw [if_neg (by simp [hsign])]
    exact hderives

/-- **What is spelled is derived**, with the tree that was spelled, from the rule of the place that
it is spelled for. -/
theorem derives_spell {e : Expr} (h : e.WellFormed) :
    (∀ place, place ≤ 5 → Derives (ruleAt place) (e.spellUnder false place) e) ∧
      Derives .primary (e.spellUnder true Expr.primaryPrecedence) e := by
  induction e with
  | const value =>
    refine ⟨fun place hplace => derives_const_spelled h hplace, ?_⟩
    unfold Expr.spellUnder
    rw [if_neg (by simp)]
    exact derives_const_primary h
  | var name =>
    exact ⟨fun place hplace => derives_var h (by omega), derives_var h (Nat.le_refl 6)⟩
  | neg operand ih =>
    obtain ⟨_, hoperand⟩ := ih h
    exact ⟨fun place hplace => derives_neg (by omega) hoperand,
      derives_neg (Nat.le_refl 6) hoperand⟩
  | bin op left right ihleft ihright =>
    obtain ⟨hleft, hright⟩ := h
    have hall : ∀ negated place, place ≤ 6 → Derives (ruleAt place)
        ((Expr.bin op left right).spellUnder negated place) (.bin op left right) :=
      fun negated place hplace => derives_spaced_bin hplace ((ihleft hleft).1 _ op.leftPlace_le)
        ((ihright hright).1 _ op.rightPlace_le)
    exact ⟨fun place hplace => hall false place (by omega), hall true 6 (Nat.le_refl 6)⟩

theorem read_spelling {e : Expr} (h : e.WellFormed) : read e.spelling = .ok e :=
  read_of_derives ((derives_spell h).1 0 (Nat.zero_le 5))

/-- The base of a power keeps its sign, and so does the operand of a negation. -/
example :
    (Expr.bin .pow (.const ⟨true, 0, 1⟩) (.neg (.const ⟨true, 5, 0⟩))).spelling =
      "+-0.0 ** --5" := by
  decide +kernel

/-- Of a spelling with a parenthesis too many, the parenthesis is left over. -/
theorem read_spelling_parenthesis {e : Expr} (h : e.WellFormed) :
    read (e.spelling ++ ")") = .error (.trailing e ")") := by
  have hderives : Derives .relational (e.spellUnder false 0) e :=
    (derives_spell h).1 0 (Nat.zero_le 5)
  have htext : (e.spelling ++ ")").toList = e.spellUnder false 0 ++ [')'] := by
    rw [String.toList_append]
    show (String.ofList (e.spellUnder false 0)).toList ++ [')'] = _
    rw [String.toList_ofList]
  have hblanks : Blanks [] := by decide
  rw [read_eq_trailing_iff, htext, padded_eq_ok_iff]
  refine ⟨⟨[], _, [], rfl, hblanks, hderives.stops_isBlank _, ?_, hblanks, ?_⟩, by decide⟩
  · exact run_of_derives hderives (closed_parenthesis _ [])
  · exact stops_cons.2 (by decide)

/-! ## §3. A derived tree is well-formed. -/

theorem Numeral.representable {u : List Char} {d : Decimal} (h : Numeral u d) :
    d.Representable := by
  cases h with
  | integer _ _ hvalue => exact Decimal.representable_of_ofInteger? hvalue
  | fraction _ _ _ hvalue => exact Decimal.representable_of_ofFraction? hvalue

/-- **Nothing but well-formed trees is derived.** -/
theorem wellFormed_of_derives {rule : Rule} {u : List Char} {e : Expr} (h : Derives rule u e) :
    e.WellFormed := by
  induction h with
  | @name u h =>
    show Text.IsIdentifier (String.ofList u).toList
    rw [String.toList_ofList]
    exact h
  | number h => exact h.representable
  | plusNumber h => exact h.representable
  | minusNumber h => exact h.representable
  | variableRef _ ih | literal _ ih | parens _ _ _ ih | neg _ ih | plus _ ih | plain _ _ ih
  | base _ ih | operand _ _ ih | expression _ ih => exact ih
  | power _ _ _ ihbase ihexponent => exact ⟨ihbase, ihexponent⟩
  | link _ _ _ _ _ ihleft ihright => exact ⟨ihleft, ihright⟩

theorem wellFormed_of_read {s : String} {e : Expr} (h : read s = .ok e) : e.WellFormed := by
  obtain ⟨_, _, _, _, _, hderives, _⟩ := read_eq_ok_iff_padded.1 h
  exact wellFormed_of_derives hderives

/-- What was read in front of a text that is left over is well-formed too. -/
theorem wellFormed_of_trailing {s remaining : String} {e : Expr}
    (h : read s = .error (.trailing e remaining)) : e.WellFormed := by
  obtain ⟨hpadded, _⟩ := read_eq_trailing_iff.1 h
  obtain ⟨_, _, _, _, _, _, hrun, _⟩ := padded_eq_ok_iff.1 hpadded
  obtain ⟨_, _, hderives⟩ := derives_of_run hrun
  exact wellFormed_of_derives hderives

/-! ## §4. The trees that have a text. -/

/-- **THE TREES THAT ARE READ ARE THE WELL-FORMED ONES**, those of a whole text as well as those in
front of a text that is left over. -/
theorem wellFormed_iff_read (e : Expr) :
    (e.WellFormed ↔ ∃ s, read s = .ok e) ∧
      (e.WellFormed ↔ ∃ s remaining, read s = .error (.trailing e remaining)) := by
  refine ⟨⟨?_, ?_⟩, ⟨?_, ?_⟩⟩
  · intro h
    exact ⟨e.spelling, read_spelling h⟩
  · intro ⟨s, h⟩
    exact wellFormed_of_read h
  · intro h
    exact ⟨e.spelling ++ ")", ")", read_spelling_parenthesis h⟩
  · intro ⟨s, remaining, h⟩
    exact wellFormed_of_trailing h

end Grammar

end ExprText
