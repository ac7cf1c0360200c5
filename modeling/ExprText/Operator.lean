/-
  ExprText.Operator
  ─────────────────
  **THE OPERATOR TABLE.**

  The twelve binary operators with their spelling, their name, their precedence
  and the side to which they associate.  Printing reads the table directly; the levels of the
  grammar are built from the same operators.
-/

namespace ExprText

/-- A binary operator. -/
inductive Operator where
  | add
  | sub
  | mul
  | div
  | mod
  | pow
  | eq
  | ne
  | lt
  | gt
  | le
  | ge
  deriving DecidableEq, Repr, Inhabited

namespace Operator

/-- All operators. -/
def all : List Operator :=
  [add, sub, mul, div, mod, pow, eq, ne, lt, gt, le, ge]

/-- The spelling in source text. -/
def symbol : Operator → String
  | add => "+"
  | sub => "-"
  | mul => "*"
  | div => "/"
  | mod => "%"
  | pow => "**"
  | eq => "=="
  | ne => "!="
  | lt => "<"
  | gt => ">"
  | le => "<="
  | ge => ">="

/-- The name under which outlines show the operator. -/
def name : Operator → String
  | add => "Add"
  | sub => "Sub"
  | mul => "Mul"
  | div => "Div"
  | mod => "Mod"
  | pow => "Pow"
  | eq => "Eq"
  | ne => "NotEq"
  | lt => "Lt"
  | gt => "Gt"
  | le => "LtEq"
  | ge => "GtEq"

/-- The operator with the given name. -/
def ofName? (s : String) : Option Operator :=
  all.find? fun op => op.name == s

/-- The operator with the given spelling. -/
def ofSymbol? (s : String) : Option Operator :=
  all.find? fun op => op.symbol == s

/-- Binding strength: an operator of higher precedence binds tighter. -/
def precedence : Operator → Nat
  | eq | ne | lt | gt | le | ge => 1
  | add | sub => 2
  | mul | div | mod => 3
  | pow => 4

/-- Powers group to the right, all others to the left. -/
def isRightAssoc (op : Operator) : Bool :=
  op == pow

instance : ToString Operator := ⟨symbol⟩

theorem mem_all (op : Operator) : op ∈ all := by
  cases op <;> decide

theorem ofSymbol?_symbol (op : Operator) : ofSymbol? op.symbol = some op := by
  cases op <;> decide

theorem ofName?_name (op : Operator) : ofName? op.name = some op := by
  cases op <;> decide

end Operator

end ExprText
