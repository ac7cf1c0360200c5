/-
  ExprText.Grammar.Rules
  ──────────────────────
  **THE RULES OF EXPRESSIONS.**

      relational      :=  additive (ws ("==" | "!=" | "<=" | ">=" | "<" | ">") ws additive)*
      additive        :=  multiplicative (ws ("+" | "-") ws multiplicative)*
      multiplicative  :=  exponential (ws ("*" | "/" | "%") ws exponential)*
      exponential     :=  unary ws "**" ws exponential  |  unary
      unary           :=  "-" primary  |  "+"? primary
      primary         :=  variable  |  literal  |  "(" ws relational ws ")"

  The rules recurse through the parentheses.  Each rule is therefore written
  over the parser `nested` for the expressions inside parentheses, and
  `expression` ties the knot.  Blanks are allowed around binary operators and
  inside parentheses, and nowhere else.
-/
import ExprText.Expr.Basic
import ExprText.Grammar.Lexical
import ExprText.Parser.Recursion

namespace ExprText.Grammar

open ExprText.Parser

/-! ## §1. Operands. -/

/-- A name, as a variable. -/
def variableRef : Parser Expr :=
  Expr.var <$> identifier

/-- A number, as a constant. -/
def literal : Parser Expr :=
  Expr.const <$> number

/-- An expression in parentheses. -/
def parenthesized (nested : Parser Expr) : Parser Expr :=
  char '(' *> spaces *> nested <* spaces <* char ')'

/-- A variable, a constant, or an expression in parentheses. -/
def primaryOf (nested : Parser Expr) : Parser Expr :=
  variableRef <|> literal <|> parenthesized nested

/-- A primary expression behind at most one sign.  A minus sign is read as a negation wherever a
primary expression follows it, even where it could have been the sign of a constant. -/
def unaryOf (nested : Parser Expr) : Parser Expr :=
  Expr.neg <$> (char '-' *> primaryOf nested) <|> ((char '+').optional *> primaryOf nested)

/-! ## §2. Operators. -/

/-- The symbol of an operator. -/
def symbol (op : Operator) : Parser Operator :=
  (fun _ => op) <$> text op.symbol

/-- The symbol of one of the operators, which are tried in order. -/
def symbolAmong (ops : List Operator) : Parser Operator :=
  choice (ops.map symbol)

/-- The operators of comparisons.  The longer symbols come first, so that `<=` is not read
as `<`. -/
def relationalOperators : List Operator :=
  [.eq, .ne, .le, .ge, .lt, .gt]

/-- The operators of sums. -/
def additiveOperators : List Operator :=
  [.add, .sub]

/-- The operators of products. -/
def multiplicativeOperators : List Operator :=
  [.mul, .div, .mod]

/-! ## §3. Levels of operators. -/

/-- An operator that stands between blanks, and the operand behind it. -/
def link (operator : Parser Operator) (operand : Parser Expr) : Parser (Operator × Expr) :=
  (spaces *> operator <* spaces).seq operand

/-- A link and what `self` reads behind it, or nothing. -/
def chainBody (operator : Parser Operator) (operand : Parser Expr)
    (self : Parser (List (Operator × Expr))) : Parser (List (Operator × Expr)) :=
  (fun links => links.getD []) <$>
    ((link operator operand).bindWith (fun _ => self) List.cons).optional

/-- The links that follow a first operand. -/
def chain (operator : Parser Operator) (operand : Parser Expr) :
    Parser (List (Operator × Expr)) :=
  fix (chainBody operator operand)

/-- The tree of an operand and the links behind it, which group to the left. -/
def foldLinks (first : Expr) (links : List (Operator × Expr)) : Expr :=
  links.foldl (fun left link => .bin link.1 left link.2) first

/-- Operands joined by operators that group to the left. -/
def leftAssoc (operator : Parser Operator) (operand : Parser Expr) : Parser Expr :=
  operand.bindWith (fun _ => chain operator operand) foldLinks

/-- A base with an exponent. -/
def power (unary exponent : Parser Expr) : Parser Expr :=
  (unary <* spaces <* symbol .pow <* spaces).bindWith (fun _ => exponent) (Expr.bin .pow)

/-- Operands joined by `**`, which groups to the right.  Where no exponent follows, the operand is
read again on its own. -/
def rightAssoc (unary : Parser Expr) : Parser Expr :=
  fix fun self => power unary self <|> unary

/-! ## §4. The levels, over the expressions inside parentheses. -/

/-- Powers. -/
def exponentialOf (nested : Parser Expr) : Parser Expr :=
  rightAssoc (unaryOf nested)

/-- Products. -/
def multiplicativeOf (nested : Parser Expr) : Parser Expr :=
  leftAssoc (symbolAmong multiplicativeOperators) (exponentialOf nested)

/-- Sums. -/
def additiveOf (nested : Parser Expr) : Parser Expr :=
  leftAssoc (symbolAmong additiveOperators) (multiplicativeOf nested)

/-- Comparisons. -/
def relationalOf (nested : Parser Expr) : Parser Expr :=
  leftAssoc (symbolAmong relationalOperators) (additiveOf nested)

/-! ## §5. The rules. -/

/-- An expression: a comparison in whose parentheses stand expressions again. -/
def expression : Parser Expr :=
  fix relationalOf

/-- The rules that read an expression, by name. -/
inductive Rule where
  | expression
  | relational
  | additive
  | multiplicative
  | exponential
  | unary
  | primary
  | variableRef
  | literal
  deriving DecidableEq, Repr

/-- The parser of a rule. -/
def Rule.parser : Rule → Parser Expr
  | expression => Grammar.expression
  | relational => relationalOf Grammar.expression
  | additive => additiveOf Grammar.expression
  | multiplicative => multiplicativeOf Grammar.expression
  | exponential => exponentialOf Grammar.expression
  | unary => unaryOf Grammar.expression
  | primary => primaryOf Grammar.expression
  | variableRef => Grammar.variableRef
  | literal => Grammar.literal

end ExprText.Grammar
