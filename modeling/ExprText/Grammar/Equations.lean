/-
  ExprText.Grammar.Equations
  ──────────────────────────
  **THE EQUATIONS OF THE RECURSIVE RULES.**

  Three rules refer to themselves: the chain of links behind an operand, the
  exponent of a power, and the expression in parentheses.  Each of them reads
  something before it comes back to itself, so each satisfies the equation that
  it was defined by:

      expression       =  relationalOf expression                      (`expression_eq`)
      rightAssoc u     =  power u (rightAssoc u) <|> u                 (`rightAssoc_eq`)
      chain op operand =  a link and `chain op operand`, or nothing    (`chain_eq`)

  On the way, every rule is shown to be regular.
-/
import ExprText.Grammar.Rules

namespace ExprText.Grammar

open ExprText.Parser

/-! ## §1. The lexical rules are regular. -/

theorem regular_spaces : Regular spaces :=
  (regular_satisfy _).many.map _

theorem regular_digit : Regular digit :=
  regular_satisfy _

theorem regular_letter : Regular letter :=
  regular_satisfy _

theorem regular_identifier : Regular identifier :=
  regular_letter.bindWith (fun _ => (regular_digit.orElse regular_letter).many) _

theorem regular_unsignedInteger : Regular unsignedInteger :=
  regular_digit.many1.filterMap _

theorem regular_unsignedFraction : Regular unsignedFraction :=
  ((regular_digit.many.seqLeft (regular_char '.')).seq regular_digit.many1).filterMap _

theorem regular_unsignedNumber : Regular unsignedNumber :=
  regular_unsignedFraction.orElse regular_unsignedInteger

theorem regular_number : Regular number :=
  ((regular_char '+').optional.seqRight regular_unsignedNumber).orElse
    (((regular_char '-').seqRight regular_unsignedNumber).map _)

/-! ## §2. Operands. -/

theorem regular_variableRef : Regular variableRef :=
  regular_identifier.map _

theorem regular_literal : Regular literal :=
  regular_number.map _

theorem regular_parenthesized {nested : Parser Expr} (h : Regular nested) :
    Regular (parenthesized nested) :=
  ((((regular_char '(').seqRight regular_spaces).seqRight h).seqLeft regular_spaces).seqLeft
    (regular_char ')')

theorem regular_primaryOf {nested : Parser Expr} (h : Regular nested) :
    Regular (primaryOf nested) :=
  regular_variableRef.orElse (regular_literal.orElse (regular_parenthesized h))

theorem regular_unaryOf {nested : Parser Expr} (h : Regular nested) : Regular (unaryOf nested) :=
  (((regular_char '-').seqRight (regular_primaryOf h)).map _).orElse
    ((regular_char '+').optional.seqRight (regular_primaryOf h))

theorem consuming_opening : Consuming ((char '(').seqRight spaces) :=
  (consuming_char '(').bindWith (fun _ => regular_spaces) _

/-- The opening parenthesis is read before the expression behind it. -/
theorem agreeBelow_parenthesized {n : Nat} {p q : Parser Expr} (hp : Regular p)
    (h : AgreeBelow n p q) : AgreeBelow (n + 1) (parenthesized p) (parenthesized q) := by
  have hreg : Regular (((char '(').seqRight spaces).seqRight p) :=
    ((regular_char '(').seqRight regular_spaces).seqRight hp
  have hinner : AgreeBelow (n + 1) (((char '(').seqRight spaces).seqRight p)
      (((char '(').seqRight spaces).seqRight q) :=
    AgreeBelow.bindWith_of_consuming consuming_opening (fun _ => h) _
  have hblank : AgreeBelow (n + 1) ((((char '(').seqRight spaces).seqRight p).seqLeft spaces)
      ((((char '(').seqRight spaces).seqRight q).seqLeft spaces) :=
    hinner.bindWith hreg (fun _ => .refl _ _) _
  exact hblank.bindWith (hreg.seqLeft regular_spaces) (fun _ => .refl _ _) _

theorem agreeBelow_primaryOf {n : Nat} {p q : Parser Expr} (hp : Regular p)
    (h : AgreeBelow n p q) : AgreeBelow (n + 1) (primaryOf p) (primaryOf q) :=
  AgreeBelow.orElse (.refl _ _) (AgreeBelow.orElse (.refl _ _) (agreeBelow_parenthesized hp h))

theorem agreeBelow_unaryOf {n : Nat} {p q : Parser Expr} (hp : Regular p)
    (h : AgreeBelow n p q) : AgreeBelow (n + 1) (unaryOf p) (unaryOf q) := by
  have hprimary := agreeBelow_primaryOf hp h
  have hneg : AgreeBelow (n + 1) ((char '-').seqRight (primaryOf p))
      ((char '-').seqRight (primaryOf q)) :=
    AgreeBelow.bindWith (.refl _ _) (regular_char '-') (fun _ => hprimary) _
  have hplus : AgreeBelow (n + 1) ((char '+').optional.seqRight (primaryOf p))
      ((char '+').optional.seqRight (primaryOf q)) :=
    AgreeBelow.bindWith (.refl _ _) (regular_char '+').optional (fun _ => hprimary) _
  exact (hneg.map _).orElse hplus

/-! ## §3. Links and chains. -/

theorem symbol_ne_empty (op : Operator) : op.symbol.toList ≠ [] := by
  cases op <;> decide

theorem regular_symbol (op : Operator) : Regular (symbol op) :=
  (regular_text _).map _

theorem consuming_symbol (op : Operator) : Consuming (symbol op) :=
  (consuming_text (symbol_ne_empty op)).map _

theorem regular_symbolAmong (ops : List Operator) : Regular (symbolAmong ops) := by
  refine regular_choice fun p hp => ?_
  obtain ⟨op, _, rfl⟩ := List.mem_map.1 hp
  exact regular_symbol op

theorem consuming_symbolAmong (ops : List Operator) : Consuming (symbolAmong ops) := by
  refine consuming_choice fun p hp => ?_
  obtain ⟨op, _, rfl⟩ := List.mem_map.1 hp
  exact consuming_symbol op

theorem regular_link {operator : Parser Operator} {operand : Parser Expr}
    (hop : Regular operator) (h : Regular operand) : Regular (link operator operand) :=
  ((regular_spaces.seqRight hop).seqLeft regular_spaces).seq h

/-- Blanks around an operator do not keep it from reading. -/
theorem consuming_between_blanks {operator : Parser Operator} (hop : Consuming operator) :
    Consuming ((spaces.seqRight operator).seqLeft spaces) := by
  have hfront : Consuming (spaces.seqRight operator) :=
    regular_spaces.bindWith_consuming (fun _ => hop) _
  exact hfront.bindWith (fun _ => regular_spaces) _

/-- A link reads at least its operator. -/
theorem consuming_link {operator : Parser Operator} {operand : Parser Expr}
    (hop : Consuming operator) (h : Regular operand) : Consuming (link operator operand) :=
  (consuming_between_blanks hop).bindWith (fun _ => h) _

theorem agreeBelow_link {n : Nat} {operator : Parser Operator} {p q : Parser Expr}
    (hop : Regular operator) (h : AgreeBelow n p q) :
    AgreeBelow n (link operator p) (link operator q) :=
  AgreeBelow.bindWith (.refl _ _) ((regular_spaces.seqRight hop).seqLeft regular_spaces)
    (fun _ => h) _

theorem regular_chainBody {operator : Parser Operator} {operand : Parser Expr}
    {self : Parser (List (Operator × Expr))} (hop : Regular operator) (h : Regular operand)
    (hself : Regular self) : Regular (chainBody operator operand self) :=
  (((regular_link hop h).bindWith (fun _ => hself) _).optional).map _

theorem guarded_chainBody {operator : Parser Operator} {operand : Parser Expr}
    (hop : Regular operator) (hcons : Consuming operator) (h : Regular operand) :
    Guarded (chainBody operator operand) where
  regular _ hself := regular_chainBody hop h hself
  agree _ _ _ _ _ hself :=
    ((AgreeBelow.bindWith_of_consuming (consuming_link hcons h) (fun _ => hself) _).optional).map _

theorem chain_eq {operator : Parser Operator} {operand : Parser Expr} (hop : Regular operator)
    (hcons : Consuming operator) (h : Regular operand) :
    chain operator operand = chainBody operator operand (chain operator operand) :=
  fix_eq (guarded_chainBody hop hcons h)

theorem regular_chain {operator : Parser Operator} {operand : Parser Expr}
    (hop : Regular operator) (hcons : Consuming operator) (h : Regular operand) :
    Regular (chain operator operand) :=
  (guarded_chainBody hop hcons h).regular_fix

theorem agreeBelow_chain {n : Nat} {operator : Parser Operator} {p q : Parser Expr}
    (hop : Regular operator) (hcons : Consuming operator) (hp : Regular p) (hq : Regular q)
    (h : AgreeBelow n p q) : AgreeBelow n (chain operator p) (chain operator q) := by
  refine AgreeBelow.fix (guarded_chainBody hop hcons hp) (guarded_chainBody hop hcons hq) ?_
  intro self self' m hm hself _ hagree
  -- first the links are exchanged, then what follows them
  have hlink : AgreeBelow (m + 1) (link operator p) (link operator q) :=
    agreeBelow_link hop (h.mono (by omega))
  have hseq : AgreeBelow (m + 1) ((link operator p).bindWith (fun _ => self) List.cons)
      ((link operator q).bindWith (fun _ => self) List.cons) :=
    hlink.bindWith (regular_link hop hp) (fun _ => .refl _ _) _
  have htail : AgreeBelow (m + 1) ((link operator q).bindWith (fun _ => self) List.cons)
      ((link operator q).bindWith (fun _ => self') List.cons) :=
    AgreeBelow.bindWith_of_consuming (consuming_link hcons hq) (fun _ => hagree) _
  have hboth : AgreeBelow (m + 1) ((link operator p).bindWith (fun _ => self) List.cons)
      ((link operator q).bindWith (fun _ => self') List.cons) :=
    hseq.trans htail
  exact hboth.optional.map _

/-! ## §4. Levels that group to the left. -/

theorem regular_leftAssoc {operator : Parser Operator} {operand : Parser Expr}
    (hop : Regular operator) (hcons : Consuming operator) (h : Regular operand) :
    Regular (leftAssoc operator operand) :=
  h.bindWith (fun _ => regular_chain hop hcons h) _

theorem agreeBelow_leftAssoc {n : Nat} {operator : Parser Operator} {p q : Parser Expr}
    (hop : Regular operator) (hcons : Consuming operator) (hp : Regular p) (hq : Regular q)
    (h : AgreeBelow n p q) : AgreeBelow n (leftAssoc operator p) (leftAssoc operator q) :=
  h.bindWith hp (fun _ => agreeBelow_chain hop hcons hp hq h) _

/-! ## §5. Powers. -/

theorem regular_power {unary exponent : Parser Expr} (hu : Regular unary)
    (he : Regular exponent) : Regular (power unary exponent) :=
  (((hu.seqLeft regular_spaces).seqLeft (regular_symbol _)).seqLeft regular_spaces).bindWith
    (fun _ => he) _

/-- A base reads at least the symbol behind it. -/
theorem consuming_base {unary : Parser Expr} (hu : Regular unary) :
    Consuming (((unary.seqLeft spaces).seqLeft (symbol .pow)).seqLeft spaces) := by
  have hsymbol : Consuming ((unary.seqLeft spaces).seqLeft (symbol .pow)) :=
    (hu.seqLeft regular_spaces).bindWith_consuming (fun _ => consuming_symbol _) _
  exact hsymbol.bindWith (fun _ => regular_spaces) _

theorem agreeBelow_base {n : Nat} {u v : Parser Expr} (hu : Regular u) (h : AgreeBelow n u v) :
    AgreeBelow n (((u.seqLeft spaces).seqLeft (symbol .pow)).seqLeft spaces)
      (((v.seqLeft spaces).seqLeft (symbol .pow)).seqLeft spaces) := by
  have hblank : AgreeBelow n (u.seqLeft spaces) (v.seqLeft spaces) :=
    h.bindWith hu (fun _ => .refl _ _) _
  have hsymbol : AgreeBelow n ((u.seqLeft spaces).seqLeft (symbol .pow))
      ((v.seqLeft spaces).seqLeft (symbol .pow)) :=
    hblank.bindWith (hu.seqLeft regular_spaces) (fun _ => .refl _ _) _
  exact hsymbol.bindWith ((hu.seqLeft regular_spaces).seqLeft (regular_symbol _))
    (fun _ => .refl _ _) _

theorem guarded_rightAssoc {unary : Parser Expr} (hu : Regular unary) :
    Guarded fun self => (power unary self).orElse unary where
  regular _ hself := (regular_power hu hself).orElse hu
  agree _ _ _ _ _ hself :=
    AgreeBelow.orElse (AgreeBelow.bindWith_of_consuming (consuming_base hu) (fun _ => hself) _)
      (.refl _ _)

theorem rightAssoc_eq {unary : Parser Expr} (hu : Regular unary) :
    rightAssoc unary = (power unary (rightAssoc unary)).orElse unary :=
  fix_eq (guarded_rightAssoc hu)

theorem regular_rightAssoc {unary : Parser Expr} (hu : Regular unary) :
    Regular (rightAssoc unary) :=
  (guarded_rightAssoc hu).regular_fix

theorem agreeBelow_rightAssoc {n : Nat} {u v : Parser Expr} (hu : Regular u) (hv : Regular v)
    (h : AgreeBelow n u v) : AgreeBelow n (rightAssoc u) (rightAssoc v) := by
  refine AgreeBelow.fix (guarded_rightAssoc hu) (guarded_rightAssoc hv) ?_
  intro self self' m hm hself _ hagree
  have huv : AgreeBelow (m + 1) u v := h.mono (by omega)
  have hbase : AgreeBelow (m + 1) (power u self) (power v self) :=
    (agreeBelow_base hu huv).bindWith
      (((hu.seqLeft regular_spaces).seqLeft (regular_symbol _)).seqLeft regular_spaces)
      (fun _ => .refl _ _) _
  have hexponent : AgreeBelow (m + 1) (power v self) (power v self') :=
    AgreeBelow.bindWith_of_consuming (consuming_base hv) (fun _ => hagree) _
  have hpower : AgreeBelow (m + 1) (power u self) (power v self') :=
    hbase.trans hexponent
  exact hpower.orElse huv

/-! ## §6. The levels over the expressions inside parentheses. -/

theorem regular_exponentialOf {nested : Parser Expr} (h : Regular nested) :
    Regular (exponentialOf nested) :=
  regular_rightAssoc (regular_unaryOf h)

theorem regular_multiplicativeOf {nested : Parser Expr} (h : Regular nested) :
    Regular (multiplicativeOf nested) :=
  regular_leftAssoc (regular_symbolAmong _) (consuming_symbolAmong _) (regular_exponentialOf h)

theorem regular_additiveOf {nested : Parser Expr} (h : Regular nested) :
    Regular (additiveOf nested) :=
  regular_leftAssoc (regular_symbolAmong _) (consuming_symbolAmong _) (regular_multiplicativeOf h)

theorem regular_relationalOf {nested : Parser Expr} (h : Regular nested) :
    Regular (relationalOf nested) :=
  regular_leftAssoc (regular_symbolAmong _) (consuming_symbolAmong _) (regular_additiveOf h)

/-- Every level comes back to the expressions inside parentheses only behind a parenthesis. -/
theorem guarded_relationalOf : Guarded relationalOf where
  regular _ h := regular_relationalOf h
  agree _ _ _ hp hq h := by
    have hexponential := agreeBelow_rightAssoc (regular_unaryOf hp) (regular_unaryOf hq)
      (agreeBelow_unaryOf hp h)
    have hmultiplicative := agreeBelow_leftAssoc
      (regular_symbolAmong multiplicativeOperators) (consuming_symbolAmong multiplicativeOperators)
      (regular_exponentialOf hp) (regular_exponentialOf hq) hexponential
    have hadditive := agreeBelow_leftAssoc
      (regular_symbolAmong additiveOperators) (consuming_symbolAmong additiveOperators)
      (regular_multiplicativeOf hp) (regular_multiplicativeOf hq) hmultiplicative
    exact agreeBelow_leftAssoc
      (regular_symbolAmong relationalOperators) (consuming_symbolAmong relationalOperators)
      (regular_additiveOf hp) (regular_additiveOf hq) hadditive

/-- An expression is a comparison in whose parentheses stand expressions. -/
theorem expression_eq : expression = relationalOf expression :=
  fix_eq guarded_relationalOf

theorem regular_expression : Regular expression :=
  guarded_relationalOf.regular_fix

/-- The rules of expressions are regular. -/
theorem Rule.regular_parser (rule : Rule) : Regular rule.parser := by
  cases rule with
  | expression => exact regular_expression
  | relational => exact regular_relationalOf regular_expression
  | additive => exact regular_additiveOf regular_expression
  | multiplicative => exact regular_multiplicativeOf regular_expression
  | exponential => exact regular_exponentialOf regular_expression
  | unary => exact regular_unaryOf regular_expression
  | primary => exact regular_primaryOf regular_expression
  | variableRef => exact regular_variableRef
  | literal => exact regular_literal

end ExprText.Grammar
