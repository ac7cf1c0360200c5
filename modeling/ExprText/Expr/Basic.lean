/-
  ExprText.Expr.Basic
  ───────────────────
  **EXPRESSION TREES.**

  Trees over constants and variables, with negation and the binary operators as
  inner nodes; the variables of a tree; and two notions of equality.  `a = b` is
  equality of trees, part by part; `a.sameValue b` lets constants differ in the
  way their value is written.
-/
import ExprText.Decimal.Basic
import ExprText.Operator
import ExprText.Text.CharSet

namespace ExprText

/-- An arithmetic or relational expression. -/
inductive Expr where
  /-- A constant. -/
  | const (value : Decimal)
  /-- A variable, by its name. -/
  | var (name : String)
  /-- The negation of an expression. -/
  | neg (operand : Expr)
  /-- An operator with its two operands. -/
  | bin (op : Operator) (left right : Expr)
  deriving DecidableEq, Repr, Inhabited

namespace Expr

/-! ## §1. Variables. -/

/-- Adds the names of the tree, from left to right, behind the names `seen` so far; a name that is
already there is not added again. -/
def collectVariables (seen : List String) : Expr → List String
  | const _ => seen
  | var name => if name ∈ seen then seen else seen ++ [name]
  | neg operand => operand.collectVariables seen
  | bin _ left right => right.collectVariables (left.collectVariables seen)

/-- The names of the variables, each once, in the order of their first occurrence. -/
def variableNames (e : Expr) : List String :=
  e.collectVariables []

/-! ## §2. Equality up to the value of constants. -/

/-- Are the two trees alike but for the way in which the values of constants are written? -/
def sameValue : Expr → Expr → Bool
  | const a, const b => a.sameValue b
  | var x, var y => x == y
  | neg a, neg b => a.sameValue b
  | bin op a b, bin op' a' b' => op == op' && a.sameValue a' && b.sameValue b'
  | _, _ => false

/-! ## §3. Trees that have a source text. -/

/-- Every name is an identifier, and every constant is representable. -/
def WellFormed : Expr → Prop
  | const value => value.Representable
  | var name => Text.IsIdentifier name.toList
  | neg operand => operand.WellFormed
  | bin _ left right => left.WellFormed ∧ right.WellFormed

end Expr

end ExprText
