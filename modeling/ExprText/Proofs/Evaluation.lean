/-
  ExprText.Proofs.Evaluation
  ──────────────────────────
  **THE RULES, EVALUATED AS THEY ARE WRITTEN.**

  The rules call each other, and some of them call themselves.  Here each of them
  is a procedure with a body, made by the combinators from lexical parsers and
  calls, and `Evaluates` runs bodies step by step: a call runs the body of what is
  called, whatever the text is, and nothing sees to it that this comes to an end.

      relational   =   additive, then the chain of its links
      chain        =   a link and the same chain, or nothing
      exponential  =   unary, `**`, exponential   or   unary
      primary      =   a name, a number, or relational in parentheses

  The parsers of the grammar solve the equations of the bodies
  (`Procedure.parser_eq`), so an evaluation that ends has the reply of the parser
  (`Evaluates.run_eq`).

  `Body.calls` lists the calls that running a body makes.  If those end, so does
  the body (`evaluates_of_calls`).
-/
import ExprText.Proofs.OnePass

namespace ExprText.Grammar

open ExprText.Parser

/-! ## §1. Procedures and their bodies. -/

/-- A rule of expressions, or the chain of links behind an operand. -/
inductive Procedure where
  /-- A rule. -/
  | rule (rule : Rule)
  /-- The links of these operators and operands. -/
  | chain (ops : List Operator) (operand : Rule)
  deriving DecidableEq, Repr

namespace Procedure

/-- The type of the values of a procedure. -/
abbrev Value : Procedure → Type
  | .rule _ => Expr
  | .chain _ _ => List (Operator × Expr)

/-- The parser of a procedure. -/
def parser : (p : Procedure) → Parser p.Value
  | .rule r => r.parser
  | .chain ops operand => Grammar.chain (symbolAmong ops) operand.parser

theorem regular (p : Procedure) : Regular p.parser := by
  cases p with
  | rule r => exact r.regular_parser
  | chain ops operand =>
    exact regular_chain (regular_symbolAmong ops) (consuming_symbolAmong ops)
      operand.regular_parser

end Procedure

/-- What a procedure is made of: lexical parsers and calls, joined by the combinators. -/
inductive Body : Type → Type 1 where
  /-- A parser that calls no procedure. -/
  | lexical {α : Type} (p : Parser α) (regular : Regular p) : Body α
  /-- A call of a procedure. -/
  | call (p : Procedure) : Body p.Value
  | map {α β : Type} (f : α → β) (t : Body α) : Body β
  | seq {α β γ : Type} (t : Body α) (u : Body β) (combine : α → β → γ) : Body γ
  | orElse {α : Type} (t u : Body α) : Body α
  | optional {α : Type} (t : Body α) : Body (Option α)

namespace Body

/-- The parser that is written down, where a call stands for the parser of the procedure. -/
def parser : {α : Type} → Body α → Parser α
  | _, lexical p _ => p
  | _, call p => p.parser
  | _, map f t => t.parser.map f
  | _, seq t u combine => t.parser.bindWith (fun _ => u.parser) combine
  | _, orElse t u => t.parser.orElse u.parser
  | _, optional t => t.parser.optional

theorem regular {α : Type} (t : Body α) : Regular t.parser := by
  induction t with
  | lexical _ regular => exact regular
  | call p => exact p.regular
  | map f _ ih => exact ih.map f
  | seq _ _ combine iht ihu => exact iht.bindWith (fun _ => ihu) combine
  | orElse _ _ iht ihu => exact iht.orElse ihu
  | optional _ ih => exact ih.optional

/-- Two bodies in order, for the value of the first. -/
def seqLeft {α β : Type} (t : Body α) (u : Body β) : Body α :=
  seq t u fun a _ => a

/-- Two bodies in order, for the value of the second. -/
def seqRight {α β : Type} (t : Body α) (u : Body β) : Body β :=
  seq t u fun _ b => b

/-- One character. -/
def char (c : Char) : Body Char :=
  lexical (Parser.char c) (regular_char c)

/-- The blanks in front of the text. -/
def spaces : Body String :=
  lexical Grammar.spaces regular_spaces

/-- The symbol of one of the operators. -/
def symbolAmong (ops : List Operator) : Body Operator :=
  lexical (Grammar.symbolAmong ops) (regular_symbolAmong ops)

/-- A call of a rule. -/
def rule (rule : Rule) : Body Expr :=
  call (.rule rule)

/-- An operand, and the chain of the links behind it. -/
def level (ops : List Operator) (operand : Rule) : Body Expr :=
  seq (rule operand) (call (.chain ops operand)) foldLinks

/-- A base and the symbol of the power behind it. -/
def base : Body Expr :=
  (((rule .unary).seqLeft spaces).seqLeft (lexical (symbol .pow) (regular_symbol .pow))).seqLeft
    spaces

/-- A relational text in parentheses. -/
def parenthesized : Body Expr :=
  ((((char '(').seqRight spaces).seqRight (rule .relational)).seqLeft spaces).seqLeft (char ')')

/-- A symbol between blanks, and the operand behind it. -/
def link (ops : List Operator) (operand : Rule) : Body (Operator × Expr) :=
  seq ((spaces.seqRight (symbolAmong ops)).seqLeft spaces) (rule operand) Prod.mk

end Body

/-- The body of a procedure. -/
def Procedure.body : (p : Procedure) → Body p.Value
  | .rule .expression => .rule .relational
  | .rule .relational => .level relationalOperators .additive
  | .rule .additive => .level additiveOperators .multiplicative
  | .rule .multiplicative => .level multiplicativeOperators .exponential
  | .rule .exponential => .orElse (.seq .base (.rule .exponential) (Expr.bin .pow)) (.rule .unary)
  | .rule .unary =>
    .orElse (.map Expr.neg ((Body.char '-').seqRight (.rule .primary)))
      ((Body.optional (.char '+')).seqRight (.rule .primary))
  | .rule .primary => .orElse (.rule .variableRef) (.orElse (.rule .literal) .parenthesized)
  | .rule .variableRef => .lexical variableRef regular_variableRef
  | .rule .literal => .lexical literal regular_literal
  | .chain ops operand =>
    .map (fun links => links.getD [])
      (.optional (.seq (.link ops operand) (.call (.chain ops operand)) List.cons))

/-- **The parsers of the grammar solve the equations of the bodies.** -/
theorem Procedure.parser_eq (p : Procedure) : p.parser = p.body.parser := by
  cases p with
  | rule r =>
    have hrule := parser_eq_goingBack r
    cases r <;> exact hrule
  | chain ops operand =>
    exact chain_eq (regular_symbolAmong ops) (consuming_symbolAmong ops) operand.regular_parser

/-! ## §2. Evaluation. -/

/-- Running the body on the text ends with the reply.  A call runs the body of the procedure. -/
inductive Evaluates : {α : Type} → Body α → List Char → Reply α → Prop where
  | lexical {α : Type} (p : Parser α) (regular : Regular p) (s : List Char) :
      Evaluates (.lexical p regular) s (p.run s)
  | call {p : Procedure} {s : List Char} {reply : Reply p.Value}
      (h : Evaluates p.body s reply) : Evaluates (.call p) s reply
  | map {α β : Type} {t : Body α} {s : List Char} {reply : Reply α} (f : α → β)
      (h : Evaluates t s reply) : Evaluates (.map f t) s (reply.map f)
  | seq {α β γ : Type} {t : Body α} {u : Body β} {s r r' : List Char} {a : α} {b : β}
      (combine : α → β → γ) (ht : Evaluates t s (.ok a r)) (hu : Evaluates u r (.ok b r')) :
      Evaluates (.seq t u combine) s (.ok (combine a b) r')
  /-- The first part fails, and the second is not run. -/
  | seqFirst {α β γ : Type} {t : Body α} {u : Body β} {s r : List Char} (combine : α → β → γ)
      (ht : Evaluates t s (.fail r)) : Evaluates (.seq t u combine) s (.fail s)
  /-- The second part fails, and the text of the first is given back. -/
  | seqSecond {α β γ : Type} {t : Body α} {u : Body β} {s r r' : List Char} {a : α}
      (combine : α → β → γ) (ht : Evaluates t s (.ok a r)) (hu : Evaluates u r (.fail r')) :
      Evaluates (.seq t u combine) s (.fail s)
  /-- The first alternative succeeds, and the second is not run. -/
  | orElseFirst {α : Type} {t u : Body α} {s r : List Char} {a : α}
      (ht : Evaluates t s (.ok a r)) : Evaluates (.orElse t u) s (.ok a r)
  /-- The second alternative is run on the same text as the first. -/
  | orElseSecond {α : Type} {t u : Body α} {s r : List Char} {reply : Reply α}
      (ht : Evaluates t s (.fail r)) (hu : Evaluates u s reply) :
      Evaluates (.orElse t u) s reply
  | optionalSome {α : Type} {t : Body α} {s r : List Char} {a : α}
      (h : Evaluates t s (.ok a r)) : Evaluates (.optional t) s (.ok (some a) r)
  | optionalNone {α : Type} {t : Body α} {s r : List Char} (h : Evaluates t s (.fail r)) :
      Evaluates (.optional t) s (.ok none s)

/-- **An evaluation that ends has the reply of the parser.** -/
theorem Evaluates.run_eq {α : Type} {t : Body α} {s : List Char} {reply : Reply α}
    (h : Evaluates t s reply) : t.parser.run s = reply := by
  induction h with
  | lexical => rfl
  | @call p s _ _ ih =>
    show p.parser.run s = _
    rw [p.parser_eq]
    exact ih
  | map f _ ih =>
    show Reply.map f _ = _
    rw [ih]
  | seq combine _ _ iht ihu => exact bindWith_eq_ok_iff.2 ⟨_, _, _, iht, ihu, rfl⟩
  | seqFirst combine _ iht => simp [Body.parser, Parser.bindWith, iht]
  | seqSecond combine _ _ iht ihu => simp [Body.parser, Parser.bindWith, iht, ihu]
  | orElseFirst _ iht => exact run_orElse_of_ok iht
  | orElseSecond _ _ iht ihu => exact (run_orElse_of_fail iht).trans ihu
  | optionalSome _ ih => exact run_optional_of_ok ih
  | optionalNone _ ih => exact run_optional_of_fail ih

/-- The reply of an evaluation may be taken from the parser. -/
theorem Evaluates.run {α : Type} {t : Body α} {s : List Char} {reply : Reply α}
    (h : Evaluates t s reply) : Evaluates t s (t.parser.run s) := by
  rw [h.run_eq]
  exact h

/-! ## §3. The calls of a body. -/

/-- A procedure and the text that it is started on. -/
structure Call where
  /-- What is called. -/
  procedure : Procedure
  /-- The text that it is given. -/
  text : List Char
  deriving DecidableEq, Repr

/-- The calls that running the body on the text makes, in order, but not the calls that these make
in turn. -/
def Body.calls : {α : Type} → Body α → List Char → List Call
  | _, .lexical _ _, _ => []
  | _, .call p, s => [⟨p, s⟩]
  | _, .map _ t, s => t.calls s
  | _, .seq t u _, s =>
    match t.parser.run s with
    | .ok _ r => t.calls s ++ u.calls r
    | .fail _ => t.calls s
  | _, .orElse t u, s =>
    match t.parser.run s with
    | .ok _ _ => t.calls s
    | .fail _ => t.calls s ++ u.calls s
  | _, .optional t, s => t.calls s

/-- The second part of a sequence runs where the first one succeeds. -/
theorem Body.mem_calls_seq {α β γ : Type} {t : Body α} {u : Body β} {combine : α → β → γ}
    {s : List Char} {c : Call} :
    c ∈ (seq t u combine).calls s ↔
      c ∈ t.calls s ∨ ∃ a r, t.parser.run s = .ok a r ∧ c ∈ u.calls r := by
  rw [calls]
  cases t.parser.run s with
  | ok a r => simp [and_assoc]
  | fail r => simp

/-- The second alternative runs where the first one fails. -/
theorem Body.mem_calls_orElse {α : Type} {t u : Body α} {s : List Char} {c : Call} :
    c ∈ (orElse t u).calls s ↔
      c ∈ t.calls s ∨ (∃ r, t.parser.run s = .fail r) ∧ c ∈ u.calls s := by
  rw [calls]
  cases t.parser.run s with
  | ok a r => simp
  | fail r => simp

/-- **A body ends if the calls that it makes do.** -/
theorem evaluates_of_calls {α : Type} {t : Body α} {s : List Char}
    (h : ∀ c ∈ t.calls s,
      Evaluates (.call c.procedure) c.text (c.procedure.parser.run c.text)) :
    Evaluates t s (t.parser.run s) := by
  induction t generalizing s with
  | lexical p regular => exact .lexical p regular s
  | call p => exact h ⟨p, s⟩ List.mem_cons_self
  | map f t ih => exact .map f (ih h)
  | seq t u combine iht ihu =>
    have ht := iht fun c hc => h c (Body.mem_calls_seq.2 (.inl hc))
    cases hrun : t.parser.run s with
    | fail r =>
      rw [hrun] at ht
      exact (Evaluates.seqFirst combine ht).run
    | ok a r =>
      have hu := ihu fun c hc => h c (Body.mem_calls_seq.2 (.inr ⟨a, r, hrun, hc⟩))
      rw [hrun] at ht
      cases hrun' : u.parser.run r with
      | fail r' =>
        rw [hrun'] at hu
        exact (Evaluates.seqSecond combine ht hu).run
      | ok b r' =>
        rw [hrun'] at hu
        exact (Evaluates.seq combine ht hu).run
  | orElse t u iht ihu =>
    have ht := iht fun c hc => h c (Body.mem_calls_orElse.2 (.inl hc))
    cases hrun : t.parser.run s with
    | ok a r =>
      rw [hrun] at ht
      exact (Evaluates.orElseFirst ht).run
    | fail r =>
      have hu := ihu fun c hc => h c (Body.mem_calls_orElse.2 (.inr ⟨⟨r, hrun⟩, hc⟩))
      rw [hrun] at ht
      exact (Evaluates.orElseSecond ht hu).run
  | optional t ih =>
    have ht := ih h
    cases hrun : t.parser.run s with
    | ok a r =>
      rw [hrun] at ht
      exact (Evaluates.optionalSome ht).run
    | fail r =>
      rw [hrun] at ht
      exact (Evaluates.optionalNone ht).run

end ExprText.Grammar
