/-
  ExprText.Proofs.Fronts
  ──────────────────────
  **A REPLY IS DETERMINED BY THE DERIVED PIECES AT THE FRONT.**

  A rule goes back and forth over a text, but its reply can be told from the
  grammar alone.  Take the pieces at the front of the text that the rule derives,
  leaving out those that end between two digits (`Front`).  The rule succeeds if
  there is one, and reads the longest:

      rule.parser.run s = .ok e r
        ↔  the longest front of s has the tree e, and r stands behind it

  (`run_eq_ok_iff_longest`).  So two texts with the same fronts get the same reply,
  and nothing about the parsers is needed to compare them.

  What is new here is that no rule stops between two digits.  A rule stops where
  its last primary text stops (`leftByPrimary_of_run`), and that is a name, a
  number or a closing parenthesis.
-/
import ExprText.Proofs.LongestMatch

namespace ExprText.Grammar

open ExprText.Parser

/-! ## §1. Every rule stops where a primary text stops. -/

/-- What is left of the text is what is left behind some primary text in it. -/
def LeftByPrimary (s r : List Char) : Prop :=
  ∃ t e, t <:+ s ∧ Rule.primary.parser.run t = .ok e r

theorem LeftByPrimary.mono {s t r : List Char} (h : LeftByPrimary t r) (ht : t <:+ s) :
    LeftByPrimary s r := by
  obtain ⟨t', e, ht', hrun⟩ := h
  exact ⟨t', e, ht'.trans ht, hrun⟩

theorem leftByPrimary_of_primary {s r : List Char} {e : Expr}
    (h : Rule.primary.parser.run s = .ok e r) : LeftByPrimary s r :=
  ⟨s, e, List.suffix_refl s, h⟩

theorem leftByPrimary_of_unary {s r : List Char} {e : Expr}
    (h : Rule.unary.parser.run s = .ok e r) : LeftByPrimary s r := by
  rcases unary_eq_ok_iff.1 h with ⟨t, operand, hs, hoperand, _⟩ | ⟨t, hs, hoperand⟩ |
      ⟨_, _, hoperand⟩
  · subst hs
    exact (leftByPrimary_of_primary hoperand).mono (List.suffix_cons '-' t)
  · subst hs
    exact (leftByPrimary_of_primary hoperand).mono (List.suffix_cons '+' t)
  · exact leftByPrimary_of_primary hoperand

/-- A power stops where its exponent stops, which is a power of a shorter text. -/
theorem leftByPrimary_of_exponential {s r : List Char} {e : Expr}
    (h : Rule.exponential.parser.run s = .ok e r) : LeftByPrimary s r := by
  induction hn : s.length using Nat.strongRecOn generalizing s e with
  | ind n ih =>
    obtain ⟨base, t, hbase, hcases⟩ := exponential_eq_ok_iff.1 h
    have ht := Rule.unary.regular_parser.suffix hbase
    rcases hcases with ⟨exponent, hlink, _⟩ | ⟨_, _, hr⟩
    · obtain ⟨o, t', hsplit, ho, hexponent⟩ := spaced_of_powerLink hlink
      have hpos := ho.length_pos
      have hle := ht.length_le
      rw [hsplit, List.length_append] at hle
      have hexp := ih t'.length (by omega) hexponent rfl
      rw [hsplit] at ht
      exact hexp.mono ((List.suffix_append o t').trans ht)
    · subst hr
      exact leftByPrimary_of_unary hbase

/-- A level that goes on stops where its last operand stops. -/
theorem leftByPrimary_of_resume {ops : List Operator} {operand : Rule}
    (hoperand : ∀ s r e, operand.parser.run s = .ok e r → LeftByPrimary s r)
    {t r : List Char} {e e' : Expr} (h : resume ops operand e t = .ok e' r) :
    r = t ∨ LeftByPrimary t r := by
  induction hn : t.length using Nat.strongRecOn generalizing t e with
  | ind n ih =>
    cases hlink : (levelLink ops operand).run t with
    | fail u =>
      rw [resume_of_fail hlink] at h
      cases h
      exact .inl rfl
    | ok link t' =>
      obtain ⟨op, right⟩ := link
      obtain ⟨o, t'', ht, _, ho, hright⟩ := spaced_of_link hlink
      have hlast : LeftByPrimary t t' := (hoperand _ _ _ hright).mono ⟨o, ht.symm⟩
      have hpos := ho.length_pos
      have hsuffix : t' <:+ t :=
        (operand.regular_parser.suffix hright).trans ⟨o, ht.symm⟩
      have hle := operand.regular_parser.length_le hright
      have hlen : t.length = o.length + t''.length := by rw [ht, List.length_append]
      rw [resume_of_link hlink] at h
      -- either this was the last link, or a later one stops at `r`
      rcases ih t'.length (by omega) h rfl with hr | hr
      · subst hr
        exact .inr hlast
      · exact .inr (hr.mono hsuffix)

theorem leftByPrimary_of_level {rule operand : Rule} {ops : List Operator}
    (level : Level rule ops operand)
    (hoperand : ∀ s r e, operand.parser.run s = .ok e r → LeftByPrimary s r) :
    ∀ s r e, rule.parser.run s = .ok e r → LeftByPrimary s r := by
  intro s r e h
  obtain ⟨first, t, hfirst, hresume⟩ := exists_of_run_level level h
  rcases leftByPrimary_of_resume hoperand hresume with hr | hr
  · subst hr
    exact hoperand s r first hfirst
  · exact hr.mono (operand.regular_parser.suffix hfirst)

/-- **Every rule stops where a primary text stops.** -/
theorem leftByPrimary_of_run (rule : Rule) :
    ∀ s r e, rule.parser.run s = .ok e r → LeftByPrimary s r := by
  have hexponential : ∀ s r e, Rule.exponential.parser.run s = .ok e r → LeftByPrimary s r :=
    fun _ _ _ h => leftByPrimary_of_exponential h
  have hmultiplicative := leftByPrimary_of_level .multiplicative hexponential
  have hadditive := leftByPrimary_of_level .additive hmultiplicative
  have hrelational := leftByPrimary_of_level .relational hadditive
  cases rule with
  | expression =>
    rw [parser_expression_eq]
    exact hrelational
  | relational => exact hrelational
  | additive => exact hadditive
  | multiplicative => exact hmultiplicative
  | exponential => exact hexponential
  | unary => exact fun _ _ _ h => leftByPrimary_of_unary h
  | primary => exact fun _ _ _ h => leftByPrimary_of_primary h
  | variableRef =>
    intro s r e h
    exact leftByPrimary_of_primary (primary_eq_ok_iff.2 (.inl h))
  | literal =>
    intro s r e h
    exact leftByPrimary_of_primary (primary_eq_ok_iff.2 (.inr (.inl h)))

/-! ## §2. No rule stops between two digits. -/

theorem not_cutsDigits_of_stops {r : List Char} (hr : Stops Char.isDigit r) (u : List Char) :
    ¬ CutsDigits u r := by
  intro ⟨_, _, d, hd, _, hdigit⟩
  rw [hr d hd] at hdigit
  cases hdigit

theorem stops_isDigit_of_literal {s r : List Char} {e : Expr} (h : literal.run s = .ok e r) :
    Stops Char.isDigit r := by
  obtain ⟨d, hd, _⟩ := map_eq_ok_iff.1 h
  rcases number_eq_ok_iff.1 hd with hrun | ⟨_, _, hrun⟩ | ⟨_, _, _, hrun, _⟩
  all_goals
    obtain ⟨_, _, _, hstop⟩ := numeral_of_unsignedNumber hrun
    exact hstop

/-- A name or a number takes all digits that follow, and a parenthesis is no digit. -/
theorem not_cutsDigits_of_primary {u r : List Char} {e : Expr}
    (h : Rule.primary.parser.run (u ++ r) = .ok e r) : ¬ CutsDigits u r := by
  rcases primary_eq_ok_iff.1 h with hname | hliteral | hparens
  · obtain ⟨x, hx, _⟩ := map_eq_ok_iff.1 hname
    obtain ⟨_, _, hstop⟩ := identifier_eq_ok_iff.1 hx
    exact not_cutsDigits_of_stops (hstop.mono fun _ hc => isWordChar_of_isDigit hc) u
  · exact not_cutsDigits_of_stops (stops_isDigit_of_literal hliteral) u
  · obtain ⟨w, t, w', hs, _, _, hnested, _⟩ := parenthesized_eq_ok_iff.1 hparens
    obtain ⟨x, hx⟩ := Rule.relational.regular_parser.suffix hnested
    have happ : u ++ r = '(' :: (w ++ (x ++ w')) ++ [')'] ++ r := by
      rw [hs, ← hx]
      simp
    have hu := List.append_cancel_right happ
    intro ⟨c, hc, _, _, hdigit, _⟩
    rw [hu, List.getLast?_concat] at hc
    cases hc
    cases hdigit

theorem not_cutsDigits_of_run {rule : Rule} {s u r : List Char} {e : Expr}
    (h : rule.parser.run s = .ok e r) (hs : s = u ++ r) : ¬ CutsDigits u r := by
  obtain ⟨t, e', ⟨x, hx⟩, hrun⟩ := leftByPrimary_of_run rule s r e h
  obtain ⟨v, ht, hv⟩ := derives_of_run hrun
  subst ht
  -- the cut is seen from the primary text in front of it
  have happ : u ++ r = x ++ v ++ r := by rw [← hs, ← hx, List.append_assoc]
  have hu := List.append_cancel_right happ
  rw [hu, cutsDigits_append hv.ne_nil]
  exact not_cutsDigits_of_primary hrun

/-! ## §3. The longest front. -/

/-- The rule derives the piece `u` at the front of `s`, with the tree `e`; `r` stands behind it, and
the cut does not lie between two digits. -/
structure Front (rule : Rule) (s u : List Char) (e : Expr) (r : List Char) : Prop where
  split : s = u ++ r
  derives : Derives rule u e
  notCut : ¬ CutsDigits u r

/-- No front of the text is longer than `u`. -/
def LongestFront (rule : Rule) (s u : List Char) : Prop :=
  ∀ u' e' r', Front rule s u' e' r' → u'.length ≤ u.length

theorem longestFront_of_run {rule : Rule} {s r : List Char} {e : Expr}
    (h : rule.parser.run s = .ok e r) : ∃ u, Front rule s u e r ∧ LongestFront rule s u := by
  obtain ⟨u, hs, hu, hlongest⟩ := run_longest h
  refine ⟨u, ⟨hs, run_eq_ok_nil_iff.1 hu, not_cutsDigits_of_run h hs⟩, ?_⟩
  intro u' e' r' hfront
  apply Nat.le_of_not_lt
  intro hlt
  exact hlongest u' r' hfront.split hlt hfront.notCut ⟨e', run_eq_ok_nil_iff.2 hfront.derives⟩

/-- **THE REPLY IS THE LONGEST FRONT**, its tree, and what stands behind it. -/
theorem run_eq_ok_iff_longest {rule : Rule} {s r : List Char} {e : Expr} :
    rule.parser.run s = .ok e r ↔ ∃ u, Front rule s u e r ∧ LongestFront rule s u := by
  constructor
  · intro h
    exact longestFront_of_run h
  · intro ⟨u, hfront, hlongest⟩
    obtain ⟨e', r', hrun, hsuffix⟩ := exists_run_of_derives hfront.derives hfront.notCut
    rw [← hfront.split] at hrun
    -- what is read is a front too, and neither is longer than the other
    obtain ⟨u', hfront', _⟩ := longestFront_of_run hrun
    have hle := hlongest u' e' r' hfront'
    have hle' := hsuffix.length_le
    have hsplits : u ++ r = u' ++ r' := hfront.split.symm.trans hfront'.split
    have hlen := congrArg List.length hsplits
    simp only [List.length_append] at hlen
    obtain ⟨hu, hr⟩ := List.append_inj hsplits (by omega)
    subst hu hr
    rw [hrun, hfront'.derives.unique hfront.derives]

end ExprText.Grammar
