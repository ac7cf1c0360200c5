/-
  ExprText.Proofs.Alternatives
  ────────────────────────────
  **THE ORDER OF ALTERNATIVES HAS NO EFFECT.**

  A primary text is a name, a number or an expression in parentheses, and a
  number has a minus sign or has none.  In both places the alternatives are tried
  in some order, but the first character leaves one of them at most:

      primary    letter, `_`              digit, `.`, `+`, `-`    `(`
                 a name                   a number                parentheses
      number     digit, `.`, `+`          `-`
                 plus sign or no sign     minus sign

  A number may still be refused behind its last digit, and parentheses behind any
  expression inside them.  Then all alternatives fail, and each of them gives back
  the whole text, so not even the rest of a failure shows the order.

  Main statement: `alternatives_in_any_order`.
-/
import ExprText.Proofs.Backtracking

namespace ExprText.Grammar

open ExprText.Parser

/-! ## §1. Primary texts. -/

/-- Every alternative of a primary text gives back the whole text where it fails. -/
theorem backtracking_primaryAlternatives (nested : Parser Expr) :
    ∀ p ∈ primaryAlternatives nested, Backtracking p := by
  simp only [primaryAlternatives, List.forall_mem_cons]
  refine ⟨?_, ?_, ?_, List.forall_mem_nil _⟩
  · exact backtracking_identifier.map _
  · exact backtracking_number.map _
  · exact backtracking_seqLeft _ _

/-! ## §2. Numbers. -/

/-- The alternatives of a number, in the order in which they are tried. -/
def numberAlternatives : List (Parser Decimal) :=
  [(char '+').optional *> unsignedNumber, Neg.neg <$> (char '-' *> unsignedNumber)]

theorem backtracking_numberAlternatives : ∀ p ∈ numberAlternatives, Backtracking p := by
  simp only [numberAlternatives, List.forall_mem_cons]
  refine ⟨?_, ?_, List.forall_mem_nil _⟩
  · exact backtracking_seqRight _ _
  · exact (backtracking_seqRight _ _).map _

/-- The characters that a number without a minus sign can start with. -/
def opensPositive (c : Char) : Bool :=
  c.isDigit || c == '.' || c == '+'

theorem opensWith_positive :
    ((char '+').optional.seqRight unsignedNumber).OpensWith opensPositive := by
  intro s d r h
  rcases optional_char_seqRight_eq_ok_iff.1 h with ⟨t, ht, _⟩ | ⟨_, hrun⟩
  · exact ⟨'+', t, ht, by decide⟩
  · obtain ⟨c, t, hs, hc⟩ := opens_of_unsignedNumber hrun
    refine ⟨c, t, hs, ?_⟩
    rcases hc with hc | hc <;> simp [opensPositive, hc]

theorem opensWith_negative :
    (((char '-').seqRight unsignedNumber).map Neg.neg).OpensWith (· == '-') := by
  intro s d r h
  obtain ⟨d', hd', _⟩ := map_eq_ok_iff.1 h
  obtain ⟨t, c, hc, _⟩ := seqRight_eq_ok_iff.1 hd'
  exact ⟨'-', t, (char_eq_ok_iff.1 hc).1, by decide⟩

/-- **The alternatives of a number exclude each other**: one needs a minus sign, and the other has
none. -/
theorem exclusive_numberAlternatives : numberAlternatives.Pairwise Exclusive := by
  simp only [numberAlternatives, List.pairwise_cons, List.forall_mem_cons]
  refine ⟨⟨?_, List.forall_mem_nil _⟩, List.forall_mem_nil _, .nil⟩
  exact opensWith_positive.exclusive_of_char opensWith_negative (by decide)

theorem number_eq_choice : number = choice numberAlternatives :=
  orElse_eq_choice_of_perm exclusive_numberAlternatives backtracking_numberAlternatives (.refl _)

/-! ## §3. Any order. -/

/-- **ALTERNATIVES ARE READ ALIKE IN ANY ORDER.**

* Of a name, a number and an expression in parentheses at most one is read.
* In each of the six orders they are the same primary text: with the same tree, and the same rest of
  a success and of a failure.
* So is a number, whether it is tried with a minus sign first or last. -/
theorem alternatives_in_any_order (s : List Char) :
    (primaryAlternatives expression).countP (fun p => (p.run s).succeeded) ≤ 1 ∧
    (∀ p q r, [p, q, r].Perm (primaryAlternatives expression) →
      ((p <|> q) <|> r).run s = Rule.primary.parser.run s) ∧
    (∀ p q, [p, q].Perm numberAlternatives → (p <|> q).run s = number.run s) := by
  have hprimary := exclusive_primaryAlternatives expression
  refine ⟨countP_succeeded_le_one hprimary s, ?_, ?_⟩
  · intro p q r hperm
    have hchoice := orElse_orElse_eq_choice_of_perm hprimary
      (backtracking_primaryAlternatives expression) hperm
    rw [← primaryOf_eq_choice] at hchoice
    exact congrArg (fun p => p.run s) hchoice
  · intro p q hperm
    have hchoice := orElse_eq_choice_of_perm exclusive_numberAlternatives
      backtracking_numberAlternatives hperm
    rw [← number_eq_choice] at hchoice
    exact congrArg (fun p => p.run s) hchoice

/-- Backwards: a number with a sign and a point, parentheses that are not closed, and a number out
of range, which is refused behind its last digit. -/
theorem alternatives_in_any_order_backwards :
    [parenthesized expression, literal, variableRef].Perm (primaryAlternatives expression) ∧
    ((parenthesized expression <|> literal) <|> variableRef).run "-.5)".toList =
      .ok (.const ⟨true, 5, 1⟩) ")".toList ∧
    ((parenthesized expression <|> literal) <|> variableRef).run "(a * (b)".toList =
      .fail "(a * (b)".toList ∧
    [Neg.neg <$> (char '-' *> unsignedNumber), (char '+').optional *> unsignedNumber].Perm
      numberAlternatives ∧
    (Neg.neg <$> (char '-' *> unsignedNumber) <|> ((char '+').optional *> unsignedNumber)).run
      "+79228162514264337593543950336".toList = .fail "+79228162514264337593543950336".toList := by
  have hprimary : [parenthesized expression, literal, variableRef].Perm
      (primaryAlternatives expression) := List.reverse_perm (primaryAlternatives expression)
  have hnumber : [Neg.neg <$> (char '-' *> unsignedNumber),
      (char '+').optional *> unsignedNumber].Perm numberAlternatives :=
    List.reverse_perm numberAlternatives
  refine ⟨hprimary, ?_, ?_, hnumber, ?_⟩
  · refine ((alternatives_in_any_order _).2.1 _ _ _ hprimary).trans ?_
    decide +kernel
  · refine ((alternatives_in_any_order _).2.1 _ _ _ hprimary).trans ?_
    decide +kernel
  · refine ((alternatives_in_any_order _).2.2 _ _ hnumber).trans ?_
    decide +kernel

end ExprText.Grammar
