/-
  ExprText.Grammar.SinglePass
  ───────────────────────────
  **THE RULES READ IN ONE PASS.**

  The rules of expressions go back in two places: a chain of links is read to
  its end and folded afterwards, and a base without an exponent is read twice.
  Here the same language is read without going back:

      level        :=  operand (ws operator ws operand)*     folded as it is read
      exponential  :=  unary (ws "**" ws exponential)?

  Main statement (`Rule.singlePass_eq_parser`): rule by rule the two grammars are
  the same parser.  They agree on the value and on the rest of every reply, for
  texts that are no expressions too.
-/
import ExprText.Grammar.Equations
import ExprText.Parser.Backtracking

namespace ExprText.Grammar

open ExprText.Parser

namespace SinglePass

/-! ## §1. The rules. -/

/-- Operands joined by operators that group to the left. -/
def leftAssoc (operator : Parser Operator) (operand : Parser Expr) : Parser Expr :=
  operand.bindWith (fun _ => (link operator operand).many) foldLinks

/-- The symbol of a power and the exponent behind it. -/
def exponent (self : Parser Expr) : Parser Expr :=
  (spaces *> symbol .pow *> spaces) *> self

/-- A base with its exponent, if it has one. -/
def joinPower (base : Expr) : Option Expr → Expr
  | some exponent => .bin .pow base exponent
  | none => base

/-- Operands joined by `**`, which groups to the right. -/
def rightAssoc (unary : Parser Expr) : Parser Expr :=
  fix fun self => unary.bindWith (fun _ => (exponent self).optional) joinPower

/-- Powers. -/
def exponentialOf (nested : Parser Expr) : Parser Expr :=
  rightAssoc (unaryOf nested)

/-- Products. -/
def multiplicativeOf (nested : Parser Expr) : Parser Expr :=
  leftAssoc (symbolAmong multiplicativeOperators) (exponentialOf nested)

/-- Sums. -/
def additiveOf (nested : Parser Expr) : Parser Expr :=
  leftAssoc (symbolAmong additiveOperators) (multiplicativeOf nested)

/-- Comparisons. -/
def relationalOf (nested : Parser Expr) : Parser Expr :=
  leftAssoc (symbolAmong relationalOperators) (additiveOf nested)

/-- An expression. -/
def expression : Parser Expr :=
  fix relationalOf

/-! ## §2. A chain is a repetition of links. -/

/-- On every text a chain reads what a repetition reads. -/
theorem run_chain {operator : Parser Operator} {operand : Parser Expr} (hop : Regular operator)
    (hcons : Consuming operator) (h : Regular operand) (s : List Char) :
    (chain operator operand).run s = (link operator operand).many.run s := by
  induction hn : s.length using Nat.strongRecOn generalizing s with
  | ind n ih =>
    rw [chain_eq hop hcons h, run_many]
    show (((link operator operand).bindWith (fun _ => chain operator operand)
      List.cons).optional.run s).map _ = _
    cases hlink : (link operator operand).run s with
    | fail t =>
      -- no link, and nothing is read
      have hseq : ((link operator operand).bindWith (fun _ => chain operator operand)
          List.cons).run s = .fail s := by
        simp [Parser.bindWith, hlink]
      rw [run_optional_of_fail hseq, repeated_of_fail hlink]
      rfl
    | ok l t =>
      -- one link, and the rest by induction
      have hlt := consuming_link hcons h s l t hlink
      have htail := ih t.length (by omega) t rfl
      rw [run_many] at htail
      have hseq : ((link operator operand).bindWith (fun _ => chain operator operand)
          List.cons).run s = .ok (l :: ((link operator operand).repeated t).1)
            ((link operator operand).repeated t).2 :=
        bindWith_eq_ok_iff.2 ⟨l, t, _, hlink, htail, rfl⟩
      rw [run_optional_of_ok hseq, repeated_of_progress hlink hlt]
      rfl

theorem chain_eq_many {operator : Parser Operator} {operand : Parser Expr}
    (hop : Regular operator) (hcons : Consuming operator) (h : Regular operand) :
    chain operator operand = (link operator operand).many := by
  ext s
  exact run_chain hop hcons h s

theorem leftAssoc_eq {operator : Parser Operator} {operand : Parser Expr}
    (hop : Regular operator) (hcons : Consuming operator) (h : Regular operand) :
    leftAssoc operator operand = Grammar.leftAssoc operator operand := by
  unfold leftAssoc Grammar.leftAssoc
  rw [chain_eq_many hop hcons h]

/-! ## §3. A base need not be read twice. -/

/-- The body of a power that goes back, and the body that does not, are the same parser. -/
theorem power_orElse_eq {unary : Parser Expr} (h : Backtracking unary) (self : Parser Expr) :
    (power unary self).orElse unary =
      unary.bindWith (fun _ => (exponent self).optional) joinPower := by
  ext s
  cases hu : unary.run s with
  | fail t =>
    have ht := h s t hu
    simp [power, exponent, Parser.orElse, Parser.seqLeft, Parser.bindWith, hu, ht]
  | ok base t =>
    -- behind the base stand blanks, perhaps the symbol, more blanks and perhaps the exponent
    have hblank := run_spaces t
    cases hsymbol : (symbol .pow).run (t.dropWhile Text.isBlank) with
    | fail u =>
      simp [power, exponent, Parser.orElse, Parser.optional, Parser.seqLeft, Parser.seqRight,
        Parser.bindWith, joinPower, hu, hblank, hsymbol]
    | ok op u =>
      have hblank' := run_spaces u
      cases hself : self.run (u.dropWhile Text.isBlank) with
      | fail v =>
        simp [power, exponent, Parser.orElse, Parser.optional, Parser.seqLeft, Parser.seqRight,
          Parser.bindWith, joinPower, hu, hblank, hsymbol, hblank', hself]
      | ok e v =>
        simp [power, exponent, Parser.orElse, Parser.optional, Parser.seqLeft, Parser.seqRight,
          Parser.bindWith, joinPower, hu, hblank, hsymbol, hblank', hself]

theorem rightAssoc_eq {unary : Parser Expr} (h : Backtracking unary) :
    rightAssoc unary = Grammar.rightAssoc unary := by
  unfold rightAssoc Grammar.rightAssoc
  congr 1
  funext self
  exact (power_orElse_eq h self).symm

/-- An operand that fails gives back the whole text: its last alternative is a sequence. -/
theorem backtracking_unaryOf (nested : Parser Expr) : Backtracking (unaryOf nested) :=
  (backtracking_seqRight _ _).orElse _

/-! ## §4. The two grammars are the same. -/

theorem exponentialOf_eq (nested : Parser Expr) :
    exponentialOf nested = Grammar.exponentialOf nested :=
  rightAssoc_eq (backtracking_unaryOf nested)

theorem multiplicativeOf_eq {nested : Parser Expr} (h : Regular nested) :
    multiplicativeOf nested = Grammar.multiplicativeOf nested := by
  unfold multiplicativeOf
  rw [exponentialOf_eq]
  exact leftAssoc_eq (regular_symbolAmong _) (consuming_symbolAmong _) (regular_exponentialOf h)

theorem additiveOf_eq {nested : Parser Expr} (h : Regular nested) :
    additiveOf nested = Grammar.additiveOf nested := by
  unfold additiveOf
  rw [multiplicativeOf_eq h]
  exact leftAssoc_eq (regular_symbolAmong _) (consuming_symbolAmong _) (regular_multiplicativeOf h)

theorem relationalOf_eq {nested : Parser Expr} (h : Regular nested) :
    relationalOf nested = Grammar.relationalOf nested := by
  unfold relationalOf
  rw [additiveOf_eq h]
  exact leftAssoc_eq (regular_symbolAmong _) (consuming_symbolAmong _) (regular_additiveOf h)

theorem guarded_relationalOf : Guarded relationalOf where
  regular p hp := by
    rw [relationalOf_eq hp]
    exact regular_relationalOf hp
  agree p q n hp hq h := by
    rw [relationalOf_eq hp, relationalOf_eq hq]
    exact Grammar.guarded_relationalOf.agree p q n hp hq h

/-- The expressions of the other grammar solve the equation of this one, which has one solution. -/
theorem expression_eq : expression = Grammar.expression := by
  have hsolves : Grammar.expression = relationalOf Grammar.expression := by
    rw [relationalOf_eq regular_expression]
    exact Grammar.expression_eq
  exact (eq_fix guarded_relationalOf regular_expression hsolves).symm

end SinglePass

/-- The parser of a rule that reads in one pass. -/
def Rule.singlePass : Rule → Parser Expr
  | expression => SinglePass.expression
  | relational => SinglePass.relationalOf SinglePass.expression
  | additive => SinglePass.additiveOf SinglePass.expression
  | multiplicative => SinglePass.multiplicativeOf SinglePass.expression
  | exponential => SinglePass.exponentialOf SinglePass.expression
  | unary => unaryOf SinglePass.expression
  | primary => primaryOf SinglePass.expression
  | variableRef => Grammar.variableRef
  | literal => Grammar.literal

/-- Reading in one pass gives the same replies, rule by rule. -/
theorem Rule.singlePass_eq_parser (rule : Rule) : rule.singlePass = rule.parser := by
  cases rule with
  | expression => exact SinglePass.expression_eq
  | relational =>
    unfold singlePass
    rw [SinglePass.expression_eq]
    exact SinglePass.relationalOf_eq regular_expression
  | additive =>
    unfold singlePass
    rw [SinglePass.expression_eq]
    exact SinglePass.additiveOf_eq regular_expression
  | multiplicative =>
    unfold singlePass
    rw [SinglePass.expression_eq]
    exact SinglePass.multiplicativeOf_eq regular_expression
  | exponential =>
    unfold singlePass
    rw [SinglePass.expression_eq]
    exact SinglePass.exponentialOf_eq _
  | unary =>
    unfold singlePass
    rw [SinglePass.expression_eq]
    rfl
  | primary =>
    unfold singlePass
    rw [SinglePass.expression_eq]
    rfl
  | variableRef => rfl
  | literal => rfl

end ExprText.Grammar
