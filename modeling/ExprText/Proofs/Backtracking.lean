/-
  ExprText.Proofs.Backtracking
  ────────────────────────────
  **EVERY BUILT PARSER READS FROM THE FRONT OR READS NOTHING.**

  A parser is built in finitely many steps, by the combinators, from characters,
  texts and the rules of the grammar, and perhaps from parsers that are taken as
  they are (`Built`).  What holds of a built parser is shown step by step:

      nothing else taken        the rest is a suffix of the text, and after a
                                failure it is the whole text
      regular parsers taken     the rest is a suffix of the text; a sequence
                                still gives back the whole text, and what is
                                optional or repeated still never fails

  A parser that is taken may fail and leave less than the whole text.  That rest
  goes through maps and choices, up to the next sequence.
-/
import ExprText.Parser.Backtracking
import ExprText.Proofs.Steps

namespace ExprText

open ExprText.Parser

/-! ## §1. The rules. -/

namespace Grammar

theorem neverFails_spaces : NeverFails spaces :=
  (neverFails_many _).map _

theorem backtracking_identifier : Backtracking identifier :=
  backtracking_bindWith letter _ _

theorem backtracking_number : Backtracking number :=
  ((backtracking_seqRight (char '-') unsignedNumber).map _).orElse _

/-- **A rule that fails gives back the whole text**: its last alternative is a sequence. -/
theorem Rule.backtracking_parser (rule : Rule) : Backtracking rule.parser := by
  cases rule with
  | expression =>
    rw [parser_expression_eq]
    exact backtracking_bindWith _ _ _
  | relational | additive | multiplicative => exact backtracking_bindWith _ _ _
  | exponential =>
    rw [exponential_eq]
    exact backtracking_bindWith _ _ _
  | unary => exact SinglePass.backtracking_unaryOf _
  | primary => exact ((backtracking_seqLeft _ _).orElse _).orElse _
  | variableRef => exact backtracking_identifier.map _
  | literal => exact backtracking_number.map _

end Grammar

/-! ## §2. Built parsers. -/

/-- The parser is built by the combinators from characters, texts, the rules of the grammar, and
parsers that are `taken`. -/
inductive Built (taken : (α : Type) → Parser α → Prop) : {α : Type} → Parser α → Prop where
  | taken {α : Type} {p : Parser α} (h : taken α p) : Built taken p
  | pure {α : Type} (a : α) : Built taken (Parser.pure a)
  | failure {α : Type} : Built taken (Parser.failure : Parser α)
  | satisfy (isMember : Char → Bool) : Built taken (satisfy isMember)
  | char (c : Char) : Built taken (char c)
  | text (expected : String) : Built taken (text expected)
  | spaces : Built taken Grammar.spaces
  | digit : Built taken Grammar.digit
  | letter : Built taken Grammar.letter
  | number : Built taken Grammar.number
  | identifier : Built taken Grammar.identifier
  | rule (rule : Grammar.Rule) : Built taken rule.parser
  | map {α β : Type} {p : Parser α} (h : Built taken p) (f : α → β) : Built taken (p.map f)
  | filterMap {α β : Type} {p : Parser α} (h : Built taken p) (f : α → Option β) :
      Built taken (p.filterMap f)
  /-- Whatever the first value is, the next parser is built too. -/
  | bindWith {α β γ : Type} {p : Parser α} {next : α → Parser β} (h : Built taken p)
      (hnext : ∀ a, Built taken (next a)) (combine : α → β → γ) :
      Built taken (p.bindWith next combine)
  | seq {α β : Type} {p : Parser α} {q : Parser β} (hp : Built taken p) (hq : Built taken q) :
      Built taken (p.seq q)
  | seqLeft {α β : Type} {p : Parser α} {q : Parser β} (hp : Built taken p)
      (hq : Built taken q) : Built taken (p.seqLeft q)
  | seqRight {α β : Type} {p : Parser α} {q : Parser β} (hp : Built taken p)
      (hq : Built taken q) : Built taken (p.seqRight q)
  | orElse {α : Type} {p q : Parser α} (hp : Built taken p) (hq : Built taken q) :
      Built taken (p.orElse q)
  | optional {α : Type} {p : Parser α} (h : Built taken p) : Built taken p.optional
  | many {α : Type} {p : Parser α} (h : Built taken p) : Built taken p.many
  | many1 {α : Type} {p : Parser α} (h : Built taken p) : Built taken p.many1

namespace Built

variable {taken : (α : Type) → Parser α → Prop}

/-- **What is built from regular parsers is regular.** -/
theorem regular (htaken : ∀ (α : Type) (p : Parser α), taken α p → Regular p) {α : Type}
    {p : Parser α} (h : Built taken p) : Regular p := by
  induction h with
  | taken h => exact htaken _ _ h
  | pure a => exact regular_pure a
  | failure => exact regular_failure
  | satisfy isMember => exact regular_satisfy isMember
  | char c => exact regular_char c
  | text expected => exact regular_text expected
  | spaces => exact Grammar.regular_spaces
  | digit => exact Grammar.regular_digit
  | letter => exact Grammar.regular_letter
  | number => exact Grammar.regular_number
  | identifier => exact Grammar.regular_identifier
  | rule rule => exact rule.regular_parser
  | map _ f ih => exact ih.map f
  | filterMap _ f ih => exact ih.filterMap f
  | bindWith _ _ combine ih ihnext => exact ih.bindWith ihnext combine
  | seq _ _ ihp ihq => exact ihp.seq ihq
  | seqLeft _ _ ihp ihq => exact ihp.seqLeft ihq
  | seqRight _ _ ihp ihq => exact ihp.seqRight ihq
  | orElse _ _ ihp ihq => exact ihp.orElse ihq
  | optional _ ih => exact ih.optional
  | many _ ih => exact ih.many
  | many1 _ ih => exact ih.many1

/-- **What is built from backtracking parsers is backtracking.** -/
theorem backtracking (htaken : ∀ (α : Type) (p : Parser α), taken α p → Backtracking p)
    {α : Type} {p : Parser α} (h : Built taken p) : Backtracking p := by
  induction h with
  | taken h => exact htaken _ _ h
  | pure a => exact (neverFails_pure a).backtracking
  | failure => exact backtracking_failure
  | satisfy | char | digit | letter => exact backtracking_satisfy _
  | text expected => exact backtracking_text expected
  | spaces => exact Grammar.neverFails_spaces.backtracking
  | number => exact Grammar.backtracking_number
  | identifier => exact Grammar.backtracking_identifier
  | rule rule => exact rule.backtracking_parser
  | map _ f ih => exact ih.map f
  | filterMap _ f ih => exact ih.filterMap f
  -- the parts of a sequence do not matter, and neither does the first alternative of a choice
  | bindWith | seq | seqLeft | seqRight | many1 => exact backtracking_bindWith _ _ _
  | orElse _ _ _ ihq => exact ihq.orElse _
  | optional => exact (neverFails_optional _).backtracking
  | many => exact (neverFails_many _).backtracking

end Built

/-! ## §3. Suffixes and whole texts. -/

/-- **EVERY BUILT PARSER LEAVES A SUFFIX, AND ALL OF THE TEXT WHERE IT FAILS.**

* A parser that is built by the combinators alone leaves a suffix of the text, and the whole text
  where it fails.
* A parser that is built from any regular parsers leaves a suffix of the text.
* Whatever parsers they are built from, sequences leave the whole text where they fail, and
  optional and repeated parsers do not fail. -/
theorem suffix_and_backtracking_of_built :
    (∀ (α : Type) (p : Parser α), Built (fun _ _ => False) p → Regular p ∧ Backtracking p) ∧
    (∀ taken : (α : Type) → Parser α → Prop,
      (∀ (α : Type) (p : Parser α), taken α p → Regular p) →
        ∀ (α : Type) (p : Parser α), Built taken p → Regular p) ∧
    (∀ (α β γ : Type) (p : Parser α) (next : α → Parser β) (combine : α → β → γ),
      Backtracking (p.bindWith next combine)) ∧
    (∀ (α β : Type) (p : Parser α) (q : Parser β),
      Backtracking (p.seq q) ∧ Backtracking (p.seqLeft q) ∧ Backtracking (p.seqRight q)) ∧
    (∀ (α : Type) (p : Parser α),
      Backtracking p.many1 ∧ NeverFails p.optional ∧ NeverFails p.many) := by
  refine ⟨?_, ?_, ?_, ?_, ?_⟩
  · intro α p h
    exact ⟨h.regular fun _ _ hfalse => hfalse.elim, h.backtracking fun _ _ hfalse => hfalse.elim⟩
  · intro taken htaken α p h
    exact h.regular htaken
  · intro α β γ p next combine
    exact backtracking_bindWith p next combine
  · intro α β p q
    exact ⟨backtracking_seq p q, backtracking_seqLeft p q, backtracking_seqRight p q⟩
  · intro α p
    exact ⟨backtracking_many1 p, neverFails_optional p, neverFails_many p⟩

/-- Fails and leaves the text without its first character. -/
def failBehindOne : Parser Char where
  run s := .fail s.tail

/-- A list of expressions or a sign, built by the combinators alone; and a failure that goes through
a map as it is, but not through a sequence. -/
theorem suffix_and_backtracking_of_built_failBehindOne :
    (Regular ((Grammar.Rule.expression.parser.seqLeft (char ';')).many1.orElse
        ((text "#").map fun _ => [])) ∧
      Backtracking ((Grammar.Rule.expression.parser.seqLeft (char ';')).many1.orElse
        ((text "#").map fun _ => []))) ∧
    (failBehindOne.map Char.toUpper).run ['a', 'b'] = .fail ['b'] ∧
    Regular (failBehindOne.map Char.toUpper) ∧
    ((failBehindOne.map Char.toUpper).seq (char 'b')).run ['a', 'b'] = .fail ['a', 'b'] := by
  obtain ⟨halone, htaken, _, hsequence, _⟩ := suffix_and_backtracking_of_built
  refine ⟨halone _ _ ?_, rfl, ?_, ?_⟩
  · exact .orElse (.many1 (.seqLeft (.rule .expression) (.char ';'))) (.map (.text "#") _)
  · -- the taken parsers are the regular ones
    refine htaken (fun _ p => Regular p) (fun _ _ h => h) _ _ (.map (.taken ?_) _)
    intro s
    exact List.tail_suffix s
  · obtain ⟨hseq, _⟩ := hsequence _ _ (failBehindOne.map Char.toUpper) (char 'b')
    have hrun : ((failBehindOne.map Char.toUpper).seq (char 'b')).run ['a', 'b'] =
        .fail (((failBehindOne.map Char.toUpper).seq (char 'b')).run ['a', 'b']).rest := rfl
    rw [hseq _ _ hrun] at hrun
    exact hrun

end ExprText
