/-
  ExprText.Outline
  ────────────────
  **OUTLINES.**

  An outline shows how a value is built: which constructor, around which parts.
  It is written in two layouts.

      compact   Negate(Variable("a"))

      pretty    Negate(
                    Variable(
                        "a",
                    ),
                )
-/
import ExprText.Decimal.Numeral
import ExprText.Expr.Basic
import ExprText.Parser.Basic
import ExprText.Text.Quoted

namespace ExprText

/-! ## §1. Outlines and their layouts. -/

/-- The build of a value. -/
inductive Outline where
  /-- A value with no parts of its own. -/
  | atom (text : String)
  /-- A constructor around one part. -/
  | wrap (name : String) (inner : Outline)
  /-- A constructor around named parts. -/
  | record (name : String) (fields : List (String × Outline))

namespace Outline

mutual

/-- The outline on one line. -/
def compact : Outline → String
  | atom text => text
  | wrap name inner => name ++ "(" ++ inner.compact ++ ")"
  | record name fields => name ++ " \x7b " ++ ", ".intercalate (compactFields fields) ++ " \x7d"

/-- Every part with its name, each on its own. -/
def compactFields : List (String × Outline) → List String
  | [] => []
  | (label, field) :: fields => (label ++ ": " ++ field.compact) :: compactFields fields

end

/-- The white space in front of a line: four spaces for each level. -/
def indent (depth : Nat) : String :=
  String.ofList (List.replicate (4 * depth) ' ')

mutual

/-- The outline with every part on a line of its own, one level deeper than what it is a part of.
The text starts on a line that is already indented to `depth`. -/
def prettyAt (depth : Nat) : Outline → String
  | atom text => text
  | wrap name inner =>
    name ++ "(\n" ++ indent (depth + 1) ++ inner.prettyAt (depth + 1) ++ ",\n" ++ indent depth ++ ")"
  | record name fields =>
    name ++ " \x7b\n" ++ prettyFields (depth + 1) fields ++ indent depth ++ "\x7d"

/-- The lines of the parts, each ended by a comma. -/
def prettyFields (depth : Nat) : List (String × Outline) → String
  | [] => ""
  | (label, field) :: fields =>
    indent depth ++ label ++ ": " ++ field.prettyAt depth ++ ",\n" ++ prettyFields depth fields

end

/-- The outline over several lines. -/
def pretty (outline : Outline) : String :=
  outline.prettyAt 0

end Outline

/-! ## §2. The outlines of values. -/

/-- A type whose values can be outlined. -/
class Outlined (α : Type) where
  /-- The outline of a value. -/
  outline : α → Outline

export Outlined (outline)

instance : Outlined Bool where
  outline b := .atom (if b then "true" else "false")

instance : Outlined Char where
  outline c := .atom (Text.quotedChar c)

instance : Outlined String where
  outline s := .atom (Text.quoted s)

instance : Outlined Decimal where
  outline d := .atom (toString d)

instance : Outlined Operator where
  outline op := .atom op.name

instance {α : Type} [Outlined α] : Outlined (Option α) where
  outline
    | some a => .wrap "Some" (outline a)
    | none => .atom "None"

/-- The outline of an expression. -/
def Expr.outline : Expr → Outline
  | const value => .wrap "Constant" (ExprText.outline value)
  | var name => .wrap "Variable" (ExprText.outline name)
  | neg operand => .wrap "Negate" operand.outline
  | bin op left right =>
    .wrap "BinaryOp"
      (.record "BinaryOp"
        [("op", ExprText.outline op), ("left", left.outline), ("right", right.outline)])

instance : Outlined Expr := ⟨Expr.outline⟩

instance {α : Type} [Outlined α] : Outlined (Reply α) where
  outline reply :=
    .record "ParseResult"
      [("succeeded", outline reply.succeeded), ("value", outline reply.value?),
       ("remaining", outline (String.ofList reply.rest))]

end ExprText
