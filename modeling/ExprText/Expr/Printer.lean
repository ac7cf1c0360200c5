/-
  ExprText.Expr.Printer
  ─────────────────────
  **EXPRESSIONS AS SOURCE TEXT.**

  A tree is written with one space on each side of an operator and with the
  parentheses that reading it back needs, and no others.  Every operand stands
  in a place that asks for a least precedence; an operand that binds less is
  put in parentheses.
-/
import ExprText.Decimal.Numeral
import ExprText.Expr.Basic

namespace ExprText

namespace Operator

/-- The least precedence of a left operand that needs no parentheses. -/
def leftPlace (op : Operator) : Nat :=
  if op.isRightAssoc then op.precedence + 1 else op.precedence

/-- The least precedence of a right operand that needs no parentheses. -/
def rightPlace (op : Operator) : Nat :=
  if op.isRightAssoc then op.precedence else op.precedence + 1

end Operator

namespace Expr

/-- A negation binds tighter than every operator. -/
def negPrecedence : Nat := 5

/-- The operand of a negation is a variable, a constant, or in parentheses. -/
def primaryPrecedence : Nat := 6

/-- Puts the text in parentheses if the condition holds. -/
def parenthesizeIf (condition : Bool) (text : List Char) : List Char :=
  if condition then '(' :: text ++ [')'] else text

/-- The text of an expression in a place that asks for precedence `place` or more. -/
def write (place : Nat) : Expr → List Char
  | const value => value.numeral
  | var name => name.toList
  | neg operand =>
    parenthesizeIf (negPrecedence < place) ('-' :: operand.write primaryPrecedence)
  | bin op left right =>
    parenthesizeIf (op.precedence < place)
      (left.write op.leftPlace ++ ' ' :: op.symbol.toList ++ ' ' :: right.write op.rightPlace)

/-- The source text of an expression. -/
def text (e : Expr) : String :=
  String.ofList (e.write 0)

instance : ToString Expr := ⟨text⟩

end Expr

end ExprText
