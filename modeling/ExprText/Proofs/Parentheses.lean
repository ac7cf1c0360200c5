/-
  ExprText.Proofs.Parentheses
  ───────────────────────────
  **NO TEXT OF A TREE HAS FEWER PARENTHESES THAN THE PRINTED ONE.**

  A printed operand is in parentheses if it binds looser than its place asks for.
  No spelling can do without them: the grammar derives the texts of a place from
  the rule at that place, and a looser tree gets into that rule by parentheses
  only.  So, by induction over the derivation,

      Derives rule u e  →  parens (e written for the rule)  ≤  parens u

  (`parens_write_le_of_derives`).  The bound is met: the spelling of a tree, which
  is read as the tree itself, has the parentheses of its printed text.
-/
import ExprText.Proofs.Spelling

namespace ExprText

/-! ## §1. Parentheses of a text. -/

/-- How many parentheses the text opens. -/
def parens (u : List Char) : Nat :=
  u.count '('

@[simp] theorem parens_append (u v : List Char) : parens (u ++ v) = parens u + parens v :=
  List.count_append

@[simp] theorem parens_open (u : List Char) : parens ('(' :: u) = parens u + 1 :=
  List.count_cons_self

theorem parens_cons {c : Char} (hc : c ≠ '(') (u : List Char) : parens (c :: u) = parens u :=
  List.count_cons_of_ne hc

theorem parens_eq_zero {u : List Char} (hu : ∀ c ∈ u, c ≠ '(') : parens u = 0 :=
  List.count_eq_zero.2 fun hmem => hu '(' hmem rfl

theorem parens_symbol (op : Operator) : parens op.symbol.toList = 0 := by
  cases op <;> decide

/-- The printed operator adds no parentheses. -/
theorem parens_operands (op : Operator) (u v : List Char) :
    parens (u ++ ' ' :: op.symbol.toList ++ ' ' :: v) = parens u + parens v := by
  rw [parens_append, parens_append, parens_cons (by decide), parens_cons (by decide),
    parens_symbol, Nat.add_zero]

/-- The digits of a number hold no parentheses. -/
theorem parens_numeral {d : Decimal} (h : d.Representable) : parens d.numeral = 0 := by
  have hunsigned : parens d.unsignedNumeral = 0 := by
    apply parens_eq_zero
    intro c hc
    rcases (Grammar.numeral_unsignedNumeral h).of_mem hc with hdigit | hpoint
    · intro hopen
      subst hopen
      exact absurd hdigit (by decide)
    · rw [hpoint]
      decide
  unfold Decimal.numeral
  by_cases hsign : d.negative = true
  · rw [if_pos hsign, parens_cons (by decide), hunsigned]
  · rw [if_neg hsign, hunsigned]

theorem parens_numeral_le {d : Decimal} (h : d.Representable) (n : Nat) :
    parens d.numeral ≤ n := by
  rw [parens_numeral h]
  exact Nat.zero_le n

/-! ## §2. Parentheses of a printed tree. -/

namespace Expr

/-- How tight the tree binds, on the scale of the places. -/
def binding : Expr → Nat
  | const _ | var _ => primaryPrecedence
  | neg _ => negPrecedence
  | bin op _ _ => op.precedence

theorem parens_parenthesizeIf (condition : Bool) (u : List Char) :
    parens (parenthesizeIf condition u) = parens u + if condition then 1 else 0 := by
  unfold parenthesizeIf
  cases condition with
  | true =>
    show parens ('(' :: u ++ [')']) = parens u + 1
    rw [parens_append, parens_open, parens_cons (by decide)]
    rfl
  | false => rfl

/-- **The place decides on one pair.**  All others stand around operands inside. -/
theorem parens_write (e : Expr) {place : Nat} (hplace : place ≤ primaryPrecedence) :
    parens (e.write place) = parens (e.write 0) + if e.binding < place then 1 else 0 := by
  cases e with
  | const _ | var _ =>
    have hnone : ¬ primaryPrecedence < place := by omega
    unfold binding
    rw [if_neg hnone]
    rfl
  | neg operand =>
    unfold write binding
    rw [parens_parenthesizeIf, parens_parenthesizeIf]
    simp
  | bin op left right =>
    unfold write binding
    rw [parens_parenthesizeIf, parens_parenthesizeIf]
    simp

theorem parens_write_mono (e : Expr) {place place' : Nat} (hle : place ≤ place')
    (hplace : place' ≤ primaryPrecedence) : parens (e.write place) ≤ parens (e.write place') := by
  rw [e.parens_write (by omega), e.parens_write hplace]
  split <;> split <;> omega

theorem parens_write_le_succ (e : Expr) {place place' : Nat} (hplace : place ≤ primaryPrecedence)
    (hplace' : place' ≤ primaryPrecedence) :
    parens (e.write place) ≤ parens (e.write place') + 1 := by
  rw [e.parens_write hplace, e.parens_write hplace']
  split <;> split <;> omega

/-- At its own precedence an operator has the parentheses of its operands. -/
theorem parens_write_bin (op : Operator) (left right : Expr) :
    parens ((bin op left right).write op.precedence) =
      parens (left.write op.leftPlace) + parens (right.write op.rightPlace) := by
  show parens (parenthesizeIf (op.precedence < op.precedence)
    (left.write op.leftPlace ++ ' ' :: op.symbol.toList ++ ' ' :: right.write op.rightPlace)) = _
  rw [parens_parenthesizeIf, parens_operands, if_neg (by simp), Nat.add_zero]

/-- The plus signs of the spelling are no parentheses. -/
theorem parens_spellUnder (negated : Bool) (place : Nat) (e : Expr) :
    parens (e.spellUnder negated place) = parens (e.write place) := by
  induction e generalizing negated place with
  | const value =>
    unfold spellUnder
    split
    · exact parens_cons (by decide) _
    · rfl
  | var name => rfl
  | neg operand ih =>
    unfold spellUnder write
    rw [parens_parenthesizeIf, parens_parenthesizeIf, parens_cons (by decide),
      parens_cons (by decide), ih]
  | bin op left right ihleft ihright =>
    unfold spellUnder write
    rw [parens_parenthesizeIf, parens_parenthesizeIf, parens_operands, parens_operands, ihleft,
      ihright]

end Expr

namespace Grammar

/-! ## §3. Parentheses of a derived text. -/

/-- **EVERY PAIR OF THE PRINTER IS NEEDED.**  A text of the rule has at least the parentheses of its
tree, printed for a place where texts of the rule stand. -/
theorem parens_write_le_of_derives {rule : Rule} {u : List Char} {e : Expr}
    (h : Derives rule u e) : parens (e.write rule.printPlace) ≤ parens u := by
  induction h with
  | @name u _ =>
    have htext : (String.ofList u).toList = u := String.toList_ofList
    exact Nat.le_of_eq (congrArg parens htext)
  | number hu => exact parens_numeral_le hu.representable _
  | plusNumber hu => exact parens_numeral_le hu.representable _
  | @minusNumber u d hu =>
    have hd : (-d).Representable := hu.representable
    exact parens_numeral_le hd _
  | variableRef _ ih | literal _ ih | expression _ ih => exact ih
  | @parens w u w' e _ _ _ ih =>
    -- the pair of the text makes up for the pair that the tree may need here
    have hsucc := e.parens_write_le_succ Rule.primary.printPlace_le Rule.relational.printPlace_le
    have hpair : parens ('(' :: w ++ u ++ w' ++ [')']) =
        parens w + 1 + parens u + parens w' := by
      rw [parens_append, parens_append, parens_append, parens_open, parens_cons (by decide)]
      rfl
    omega
  | @neg u e _ ih =>
    show parens ('-' :: e.write Expr.primaryPrecedence) ≤ _
    rw [parens_cons (by decide), parens_cons (by decide)]
    exact ih
  | @plus u e _ ih =>
    rw [parens_cons (by decide)]
    exact Nat.le_trans (e.parens_write_mono (by decide) (by decide)) ih
  | @plain u e _ _ ih => exact Nat.le_trans (e.parens_write_mono (by decide) (by decide)) ih
  | @base u e _ ih => exact Nat.le_trans (e.parens_write_mono (by decide) (by decide)) ih
  | @power u o v base exponent _ _ _ ihbase ihexponent =>
    have hbin := Expr.parens_write_bin .pow base exponent
    have hleft : parens (base.write Operator.pow.leftPlace) ≤ parens u := ihbase
    have hright : parens (exponent.write Operator.pow.rightPlace) ≤ parens v := ihexponent
    show parens ((Expr.bin .pow base exponent).write Operator.pow.precedence) ≤ _
    rw [parens_append, parens_append]
    omega
  | @operand rule operand _ u e level _ ih =>
    exact Nat.le_trans (e.parens_write_mono level.printPlace_le operand.printPlace_le) ih
  | @link rule operand ops op u o v left right level hop _ _ _ ihleft ihright =>
    obtain ⟨hprecedence, hleft, hright⟩ := level.printPlace_eq hop
    have hbin := Expr.parens_write_bin op left right
    rw [hprecedence, hleft, hright] at hbin
    rw [parens_append, parens_append]
    omega

end Grammar

/-! ## §4. The fewest parentheses. -/

/-- **NO TEXT OF A TREE HAS FEWER PARENTHESES THAN THE PRINTED ONE**, and one has as many. -/
theorem parens_text_le_of_read {s : String} {e : Expr} (h : read s = .ok e) :
    parens e.text.toList ≤ parens s.toList ∧
      ∃ s' : String, read s' = .ok e ∧ parens s'.toList = parens e.text.toList := by
  obtain ⟨w, u, w', hs, _, hu, _⟩ := Grammar.read_eq_ok_iff_padded.1 h
  have htext : e.text.toList = e.write 0 := String.toList_ofList
  have hspelling : e.spelling.toList = e.spellUnder false 0 := String.toList_ofList
  refine ⟨?_, e.spelling, Grammar.read_spelling (Grammar.wellFormed_of_derives hu), ?_⟩
  · have hplace : parens (e.write 0) ≤ parens (e.write Grammar.Rule.relational.printPlace) :=
      e.parens_write_mono (Nat.zero_le _) Grammar.Rule.relational.printPlace_le
    have hderived := Grammar.parens_write_le_of_derives hu
    rw [htext, hs, parens_append, parens_append]
    omega
  · rw [htext, hspelling, Expr.parens_spellUnder]

/-- Two of the five pairs are needed: around a negation behind a sign, and around a power under a
power. -/
theorem parens_text_le_of_read_signs :
    read "-((-a)) * (((b ** c) ** +-2))" = .ok (.bin .mul (.neg (.neg (.var "a")))
      (.bin .pow (.bin .pow (.var "b") (.var "c")) (.const ⟨true, 2, 0⟩))) ∧
    (Expr.bin .mul (.neg (.neg (.var "a")))
      (.bin .pow (.bin .pow (.var "b") (.var "c")) (.const ⟨true, 2, 0⟩))).text =
        "-(-a) * (b ** c) ** -2" ∧
    parens "-(-a) * (b ** c) ** -2".toList ≤ parens "-((-a)) * (((b ** c) ** +-2))".toList := by
  have hread : read "-((-a)) * (((b ** c) ** +-2))" = .ok (.bin .mul (.neg (.neg (.var "a")))
      (.bin .pow (.bin .pow (.var "b") (.var "c")) (.const ⟨true, 2, 0⟩))) :=
    read_eq_ok_iff.2 (by decide +kernel)
  have htext : (Expr.bin .mul (.neg (.neg (.var "a")))
      (.bin .pow (.bin .pow (.var "b") (.var "c")) (.const ⟨true, 2, 0⟩))).text =
        "-(-a) * (b ** c) ** -2" := by decide +kernel
  have hle := (parens_text_le_of_read hread).1
  rw [htext] at hle
  exact ⟨hread, htext, hle⟩

end ExprText
