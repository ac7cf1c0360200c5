/-
  ExprText.Proofs.Places
  ──────────────────────
  **THE RULES AS PRECEDENCES.**

  The operator table knows precedences, the grammar knows rules.  A place that
  asks for precedence `place` or more is filled by the texts of one rule:

      place    0, 1         2          3                4             5       6
      ruleAt   relational   additive   multiplicative   exponential   unary   primary

  `Rule.printPlace` is the table, and `ruleAt` reads it backwards.

  Two facts link precedences and rules.  A text that may stand in a place may stand in every
  looser place (`Derives.loosen`), except that a primary text with a minus sign
  is no unary text; and two texts that may stand beside an operator make a text
  of its own precedence (`derives_bin`).
-/
import ExprText.Expr.Printer
import ExprText.Proofs.Derivation

namespace ExprText

/-! ## §1. The table. -/

namespace Operator

/-- Every operator binds looser than a sign. -/
theorem precedence_le (op : Operator) : op.precedence ≤ 4 := by
  cases op <;> decide

theorem leftPlace_le (op : Operator) : op.leftPlace ≤ 5 := by
  cases op <;> decide

theorem rightPlace_le (op : Operator) : op.rightPlace ≤ 5 := by
  cases op <;> decide

/-- **An operator that does not go into the right operand of another takes it all as its left
operand.**  This is where the table must not mix sides within one precedence. -/
theorem leftPlace_le_of_lt_rightPlace {op next : Operator} (h : next.precedence < op.rightPlace) :
    next.leftPlace ≤ op.precedence := by
  revert h
  cases op <;> cases next <;> decide

end Operator

namespace Grammar

/-! ## §2. The places of the rules. -/

/-- The tightest place that the texts of the rule may be printed for. -/
def Rule.printPlace : Rule → Nat
  | .expression | .relational => 1
  | .additive => 2
  | .multiplicative => 3
  | .exponential => 4
  | .unary => 5
  | .primary | .variableRef | .literal => 6

theorem Rule.printPlace_le (rule : Rule) : rule.printPlace ≤ Expr.primaryPrecedence := by
  cases rule <;> decide

theorem Level.printPlace_le {rule operand : Rule} {ops : List Operator}
    (level : Level rule ops operand) : rule.printPlace ≤ operand.printPlace := by
  cases level <;> decide

/-- The printer and the grammar agree about the places beside an operator. -/
theorem Level.printPlace_eq {rule operand : Rule} {ops : List Operator} {op : Operator}
    (level : Level rule ops operand) (hop : op ∈ ops) :
    op.precedence = rule.printPlace ∧ op.leftPlace = rule.printPlace ∧
      op.rightPlace = operand.printPlace := by
  have hall : ∀ op ∈ ops, op.precedence = rule.printPlace ∧ op.leftPlace = rule.printPlace ∧
      op.rightPlace = operand.printPlace := by
    cases level <;> decide
  exact hall op hop

/-- The rule whose texts may stand in a place that asks for precedence `place` or more: the loosest
one that is printed for such a place. -/
def ruleAt (place : Nat) : Rule :=
  ([.relational, .additive, .multiplicative, .exponential, .unary].find? fun rule =>
    decide (place ≤ rule.printPlace)).getD .primary

/-! ## §3. Derived texts in their places. -/

theorem Derives.loosen_one {place : Nat} {u : List Char} {e : Expr} (hplace : place < 5)
    (h : Derives (ruleAt (place + 1)) u e) : Derives (ruleAt place) u e := by
  have hcases : place = 0 ∨ place = 1 ∨ place = 2 ∨ place = 3 ∨ place = 4 := by omega
  rcases hcases with rfl | rfl | rfl | rfl | rfl
  · exact h
  · exact .operand .relational h
  · exact .operand .additive h
  · exact .operand .multiplicative h
  · exact .base h

/-- **What may stand in a place may stand in every looser place.** -/
theorem Derives.loosen {place place' : Nat} {u : List Char} {e : Expr} (hle : place ≤ place')
    (hplace : place' ≤ 5) (h : Derives (ruleAt place') u e) : Derives (ruleAt place) u e := by
  induction hle with
  | refl => exact h
  | @step place' _ ih =>
    apply ih
    · omega
    · exact h.loosen_one (by omega)

/-- **Two operands make a text of the operator's own precedence.** -/
theorem derives_bin {op : Operator} {u o v : List Char} {left right : Expr}
    (hleft : Derives (ruleAt op.leftPlace) u left) (ho : Spaced op o)
    (hright : Derives (ruleAt op.rightPlace) v right) :
    Derives (ruleAt op.precedence) (u ++ o ++ v) (.bin op left right) := by
  cases op with
  | pow => exact .power hleft ho hright
  | add | sub => exact .link .additive (by decide) hleft ho hright
  | mul | div | mod => exact .link .multiplicative (by decide) hleft ho hright
  | eq | ne | lt | gt | le | ge => exact .link .relational (by decide) hleft ho hright

end Grammar

end ExprText
