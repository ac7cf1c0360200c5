/-
  ExprText.Proofs.OnePass
  ───────────────────────
  **READING WITHOUT GOING BACK.**

  The rules of expressions solve a system of equations, one for each rule, in which
  a rule says what it reads in terms of the rules that it refers to.
  Two such systems differ in how they go on behind an operand:

                   operators that group to the left      powers
      going back   a chain of links, folded afterwards   base and exponent, or the base again
      one pass     links, folded as they are read        base, then perhaps an exponent

  The grammar solves the first and `Rule.singlePass` the second.  The second system
  has the grammar as its only regular solution (`eq_parser_of_onePass`), so the two
  give the same reply to every text, be it an expression, a text that starts with
  one, or neither (`run_singlePass`).
-/
import ExprText.Proofs.Steps

namespace ExprText.Grammar

open ExprText.Parser

/-! ## §1. The rules as equations. -/

/-- What a rule reads, where `rules` are read in its body.  The levels that group to the left are
built by `level`, from operators and operands, and the powers by `powers`, from bases and
exponents. -/
def ruleBody (level : Parser Operator → Parser Expr → Parser Expr)
    (powers : Parser Expr → Parser Expr → Parser Expr) (rules : Rule → Parser Expr) :
    Rule → Parser Expr
  | .expression => rules .relational
  | .relational => level (symbolAmong relationalOperators) (rules .additive)
  | .additive => level (symbolAmong additiveOperators) (rules .multiplicative)
  | .multiplicative => level (symbolAmong multiplicativeOperators) (rules .exponential)
  | .exponential => powers (rules .unary) (rules .exponential)
  | .unary =>
    Expr.neg <$> (char '-' *> rules .primary) <|> ((char '+').optional *> rules .primary)
  | .primary => primaryOf (rules .relational)
  | .variableRef => Grammar.variableRef
  | .literal => Grammar.literal

/-- The bodies that go back: a chain is read to its end and folded afterwards, and a base that has
no exponent is read again. -/
def goingBack : (Rule → Parser Expr) → Rule → Parser Expr :=
  ruleBody leftAssoc fun base exponent => power base exponent <|> base

/-- The bodies that never go back: links are repeated and folded from the left, and an exponent may
follow a base that has been read once. -/
def onePass : (Rule → Parser Expr) → Rule → Parser Expr :=
  ruleBody SinglePass.leftAssoc fun base exponent =>
    base.bindWith (fun _ => (SinglePass.exponent exponent).optional) SinglePass.joinPower

/-! ## §2. Their solutions. -/

/-- The rules of the grammar go back. -/
theorem parser_eq_goingBack (rule : Rule) : rule.parser = goingBack Rule.parser rule := by
  cases rule with
  | expression => exact parser_expression_eq
  | exponential => exact rightAssoc_eq Rule.unary.regular_parser
  | primary =>
    show primaryOf Rule.expression.parser = primaryOf Rule.relational.parser
    rw [parser_expression_eq]
  | relational | additive | multiplicative | unary | variableRef | literal => rfl

/-- They solve the equations without going back, too. -/
theorem parser_eq_onePass (rule : Rule) : rule.parser = onePass Rule.parser rule := by
  cases rule with
  | relational => exact Level.relational.parser_eq
  | additive => exact Level.additive.parser_eq
  | multiplicative => exact Level.multiplicative.parser_eq
  | exponential => exact exponential_eq
  | expression | unary | primary | variableRef | literal => exact parser_eq_goingBack _

theorem singlePass_eq_onePass (rule : Rule) :
    rule.singlePass = onePass Rule.singlePass rule := by
  have hsame : Rule.singlePass = Rule.parser := funext Rule.singlePass_eq_parser
  rw [hsame]
  exact parser_eq_onePass rule

/-! ## §3. There is no other solution. -/

section Unique

variable {rules : Rule → Parser Expr}

theorem unary_of_onePass (h : ∀ rule, rules rule = onePass rules rule) :
    rules .unary = unaryOf (rules .relational) := by
  have hprimary : rules .primary = primaryOf (rules .relational) := h .primary
  have hunary := h .unary
  unfold onePass ruleBody at hunary
  rw [hunary, hprimary]
  rfl

/-- The powers are the one solution of the equation that goes back. -/
theorem exponential_of_onePass (hregular : ∀ rule, Regular (rules rule))
    (h : ∀ rule, rules rule = onePass rules rule) :
    rules .exponential = exponentialOf (rules .relational) := by
  have hunary := unary_of_onePass h
  have hfail : Backtracking (rules .unary) := by
    rw [hunary]
    exact SinglePass.backtracking_unaryOf _
  have hback : rules .exponential =
      (power (rules .unary) (rules .exponential)).orElse (rules .unary) :=
    (h .exponential).trans (SinglePass.power_orElse_eq hfail (rules .exponential)).symm
  have hfix := eq_fix (guarded_rightAssoc (hregular .unary)) (hregular .exponential) hback
  rw [hunary] at hfix
  exact hfix

/-- Repeating links and folding them is the level that goes back. -/
theorem level_of_onePass {operand : Parser Expr} (h : Regular operand) (ops : List Operator) :
    SinglePass.leftAssoc (symbolAmong ops) operand = leftAssoc (symbolAmong ops) operand :=
  SinglePass.leftAssoc_eq (regular_symbolAmong ops) (consuming_symbolAmong ops) h

/-- Through all levels a solution is again an expression in whose parentheses it stands. -/
theorem relational_of_onePass (hregular : ∀ rule, Regular (rules rule))
    (h : ∀ rule, rules rule = onePass rules rule) :
    rules .multiplicative = multiplicativeOf (rules .relational) ∧
      rules .additive = additiveOf (rules .relational) ∧
      rules .relational = relationalOf (rules .relational) := by
  have hmultiplicative : rules .multiplicative = multiplicativeOf (rules .relational) := by
    have hlevel := (h .multiplicative).trans
      (level_of_onePass (hregular .exponential) multiplicativeOperators)
    rw [exponential_of_onePass hregular h] at hlevel
    exact hlevel
  have hadditive : rules .additive = additiveOf (rules .relational) := by
    have hlevel := (h .additive).trans
      (level_of_onePass (hregular .multiplicative) additiveOperators)
    rw [hmultiplicative] at hlevel
    exact hlevel
  have hrelational := (h .relational).trans
    (level_of_onePass (hregular .additive) relationalOperators)
  rw [hadditive] at hrelational
  exact ⟨hmultiplicative, hadditive, hrelational⟩

/-- **The equations without going back have one regular solution**: the grammar. -/
theorem eq_parser_of_onePass (hregular : ∀ rule, Regular (rules rule))
    (h : ∀ rule, rules rule = onePass rules rule) (rule : Rule) : rules rule = rule.parser := by
  obtain ⟨hmultiplicative, hadditive, hrelational⟩ := relational_of_onePass hregular h
  have hnested : rules .relational = Grammar.expression :=
    eq_fix guarded_relationalOf (hregular .relational) hrelational
  have hexponential := exponential_of_onePass hregular h
  have hunary := unary_of_onePass h
  rw [hnested] at hmultiplicative hadditive hexponential hunary
  cases rule with
  | expression => exact (h .expression).trans hnested
  | relational => exact hnested.trans expression_eq
  | additive => exact hadditive
  | multiplicative => exact hmultiplicative
  | exponential => exact hexponential
  | unary => exact hunary
  | primary =>
    rw [h .primary]
    show primaryOf (rules .relational) = primaryOf Grammar.expression
    rw [hnested]
  | variableRef => exact h .variableRef
  | literal => exact h .literal

end Unique

/-! ## §4. The same replies. -/

/-- **READING WITHOUT GOING BACK GIVES THE SAME REPLIES.**  The grammar goes back, `Rule.singlePass`
does not, and rule by rule the two succeed on the same texts, with the same tree and the same rest,
and fail on all others with the same rest; so does every other regular solution of the equations
without going back. -/
theorem run_singlePass :
    (∀ rule : Rule, rule.parser = goingBack Rule.parser rule) ∧
    (∀ rule : Rule, rule.singlePass = onePass Rule.singlePass rule) ∧
    (∀ (rule : Rule) (s : List Char), rule.singlePass.run s = rule.parser.run s) ∧
    (∀ rules : Rule → Parser Expr, (∀ rule, Regular (rules rule)) →
      (∀ rule, rules rule = onePass rules rule) →
      ∀ (rule : Rule) (s : List Char), (rules rule).run s = rule.parser.run s) := by
  refine ⟨parser_eq_goingBack, singlePass_eq_onePass, fun rule s => ?_, ?_⟩
  · rw [rule.singlePass_eq_parser]
  · intro rules hregular h rule s
    rw [eq_parser_of_onePass hregular h rule]

/-- Links are folded from the left up to one that has no operand, a power that is not finished is
left behind its base, and a text that starts with an operator is refused as a whole. -/
theorem run_singlePass_unfinished :
    Rule.additive.singlePass.run "1 - 2 - 3 -".toList =
      .ok (.bin .sub (.bin .sub (.const ⟨false, 1, 0⟩) (.const ⟨false, 2, 0⟩))
        (.const ⟨false, 3, 0⟩)) " -".toList ∧
    Rule.exponential.singlePass.run "-a ** ** b".toList = .ok (.neg (.var "a")) " ** ** b".toList ∧
    Rule.relational.singlePass.run "* 2".toList = .fail "* 2".toList := by
  have hregular : ∀ rule : Rule, Regular rule.singlePass := by
    intro rule
    rw [rule.singlePass_eq_parser]
    exact rule.regular_parser
  have hruns := run_singlePass.2.2.2 Rule.singlePass hregular singlePass_eq_onePass
  refine ⟨(hruns .additive _).trans ?_, (hruns .exponential _).trans ?_,
    (hruns .relational _).trans ?_⟩
  · decide +kernel
  · decide +kernel
  · decide +kernel

end ExprText.Grammar
