/-
  ExprText.Proofs.Soundness
  ─────────────────────────
  **WHAT IS READ IS DERIVED.**

  Every success of a rule has read a text that the grammar derives, with the
  tree that it derives for it:

      rule.parser.run s = .ok e r  →  s = u ++ r  and  Derives rule u e

  (`derives_of_run`).  The rules come back to themselves behind a parenthesis
  only, so the proof goes by the length of the text: if the relational texts
  below some length are sound, so are the primary texts that are one character
  longer, and with them all the levels above.
-/
import ExprText.Proofs.Steps

namespace ExprText.Grammar

open ExprText.Parser

/-! ## §1. Soundness below a length. -/

/-- What the rule reads of a text with fewer than `n` characters is derived. -/
def SoundBelow (n : Nat) (rule : Rule) : Prop :=
  ∀ s e r, s.length < n → rule.parser.run s = .ok e r → ∃ u, s = u ++ r ∧ Derives rule u e

/-- Parentheses make the texts inside them longer. -/
theorem soundBelow_primary {n : Nat} (h : SoundBelow n .relational) :
    SoundBelow (n + 1) .primary := by
  intro s e r hlen hrun
  rcases primary_eq_ok_iff.1 hrun with hname | hliteral | hparens
  · obtain ⟨u, hs, hu⟩ := derives_of_variableRef hname
    exact ⟨u, hs, .variableRef hu⟩
  · obtain ⟨u, hs, hu⟩ := derives_of_literal hliteral
    exact ⟨u, hs, .literal hu⟩
  · obtain ⟨w, t, w', hs, hw, _, hnested, hw'⟩ := parenthesized_eq_ok_iff.1 hparens
    subst hs
    -- the text inside is shorter than the text with its parentheses
    have hshort : t.length < n := by
      simp only [List.length_cons, List.length_append] at hlen
      omega
    obtain ⟨u, ht, hu⟩ := h t e _ hshort hnested
    subst ht
    exact ⟨'(' :: w ++ u ++ w' ++ [')'], by simp, .parens hw hu hw'⟩

theorem soundBelow_unary {n : Nat} (h : SoundBelow n .primary) : SoundBelow n .unary := by
  intro s e r hlen hrun
  rcases unary_eq_ok_iff.1 hrun with ⟨t, operand, hs, hoperand, he⟩ | ⟨t, hs, hoperand⟩ |
      ⟨hminus, _, hoperand⟩
  · subst hs he
    obtain ⟨u, ht, hu⟩ := h t operand r (by simp only [List.length_cons] at hlen; omega) hoperand
    exact ⟨'-' :: u, by rw [ht]; rfl, .neg hu⟩
  · subst hs
    obtain ⟨u, ht, hu⟩ := h t e r (by simp only [List.length_cons] at hlen; omega) hoperand
    exact ⟨'+' :: u, by rw [ht]; rfl, .plus hu⟩
  · obtain ⟨u, hs, hu⟩ := h s e r hlen hoperand
    refine ⟨u, hs, .plain hu ?_⟩
    -- the text and what is read of it start alike
    obtain ⟨c, v, hv, _⟩ := hu.opens
    rw [hs, hv] at hminus
    rw [hv]
    exact hminus

/-- The exponent of a power is a shorter text of the same rule. -/
theorem soundBelow_exponential {n : Nat} (h : SoundBelow n .unary) :
    SoundBelow n .exponential := by
  intro s
  induction hm : s.length using Nat.strongRecOn generalizing s with
  | ind m ih =>
    intro e r hlen hrun
    obtain ⟨base, t, hbase, hcases⟩ := exponential_eq_ok_iff.1 hrun
    obtain ⟨u, hs, hu⟩ := h s base t (by omega) hbase
    rcases hcases with ⟨exponent, hlink, he⟩ | ⟨_, he, ht⟩
    · obtain ⟨o, t', ht, ho, hexponent⟩ := spaced_of_powerLink hlink
      have ho' := ho.length_pos
      subst hs ht he
      -- the operator in front of the exponent makes it shorter than the power
      simp only [List.length_append] at hm
      obtain ⟨v, ht', hv⟩ := ih t'.length (by omega) t' rfl exponent r (by omega) hexponent
      exact ⟨u ++ o ++ v, by rw [ht']; simp, .power hu ho hv⟩
    · subst he ht
      exact ⟨u, hs, .base hu⟩

/-- A level that has read `u` so far reads on, one link at a time. -/
theorem derives_of_resume {n : Nat} {rule operand : Rule} {ops : List Operator}
    (level : Level rule ops operand) (h : SoundBelow n operand) {u t r : List Char} {e e' : Expr}
    (hu : Derives rule u e) (ht : t.length < n) (hrun : resume ops operand e t = .ok e' r) :
    ∃ v, t = v ++ r ∧ Derives rule (u ++ v) e' := by
  induction hm : t.length using Nat.strongRecOn generalizing t u e with
  | ind m ih =>
    cases hlink : (levelLink ops operand).run t with
    | fail t' =>
      rw [resume_of_fail hlink] at hrun
      cases hrun
      exact ⟨[], rfl, by rw [List.append_nil]; exact hu⟩
    | ok link t' =>
      obtain ⟨op, right⟩ := link
      rw [resume_of_link hlink] at hrun
      obtain ⟨o, t'', ho, hop, hspaced, hoperand⟩ := spaced_of_link hlink
      -- the operator has been read, so the operand is found in a shorter text
      have hpos := hspaced.length_pos
      subst ho
      simp only [List.length_append] at hm ht
      obtain ⟨v, hv, hright⟩ := h t'' right t' (by omega) hoperand
      -- the link joins what has been read, and a shorter text is left
      have hjoined : Derives rule (u ++ o ++ v) (.bin op e right) :=
        .link level hop hu hspaced hright
      have hlen : t''.length = v.length + t'.length := by rw [hv, List.length_append]
      obtain ⟨v', hv', hderives⟩ := ih t'.length (by omega) hjoined (by omega) hrun rfl
      exact ⟨o ++ v ++ v', by rw [hv, hv']; simp, by simpa using hderives⟩

theorem soundBelow_level {n : Nat} {rule operand : Rule} {ops : List Operator}
    (level : Level rule ops operand) (h : SoundBelow n operand) : SoundBelow n rule := by
  intro s e r hlen hrun
  obtain ⟨first, t, hfirst, hresume⟩ := exists_of_run_level level hrun
  obtain ⟨u, hs, hu⟩ := h s first t hlen hfirst
  subst hs
  have ht : t.length < n := by
    simp only [List.length_append] at hlen
    omega
  obtain ⟨v, hv, hderives⟩ := derives_of_resume level h (.operand level hu) ht hresume
  exact ⟨u ++ v, by rw [hv]; simp, hderives⟩

/-! ## §2. Soundness. -/

/-- Soundness climbs from the primaries through all the levels. -/
theorem soundBelow_relational_of_primary {n : Nat} (h : SoundBelow n .primary) :
    SoundBelow n .relational := by
  have hexponential := soundBelow_exponential (soundBelow_unary h)
  have hmultiplicative := soundBelow_level .multiplicative hexponential
  have hadditive := soundBelow_level .additive hmultiplicative
  exact soundBelow_level .relational hadditive

theorem soundBelow_relational (n : Nat) : SoundBelow n .relational := by
  induction n with
  | zero =>
    intro s e r hlen
    omega
  | succ n ih => exact soundBelow_relational_of_primary (soundBelow_primary ih)

theorem soundBelow (n : Nat) (rule : Rule) : SoundBelow n rule := by
  have hprimary : SoundBelow n .primary := by
    intro s e r hlen
    exact soundBelow_primary (soundBelow_relational n) s e r (by omega)
  have hexponential := soundBelow_exponential (soundBelow_unary hprimary)
  have hmultiplicative := soundBelow_level .multiplicative hexponential
  cases rule with
  | expression =>
    intro s e r hlen hrun
    rw [parser_expression_eq] at hrun
    obtain ⟨u, hs, hu⟩ := soundBelow_relational n s e r hlen hrun
    exact ⟨u, hs, .expression hu⟩
  | relational => exact soundBelow_relational n
  | additive => exact soundBelow_level .additive hmultiplicative
  | multiplicative => exact hmultiplicative
  | exponential => exact hexponential
  | unary => exact soundBelow_unary hprimary
  | primary => exact hprimary
  | variableRef =>
    intro s e r _ hrun
    exact derives_of_variableRef hrun
  | literal =>
    intro s e r _ hrun
    exact derives_of_literal hrun

/-- **What a rule reads is derived from it**, and the tree is the derived one. -/
theorem derives_of_run {rule : Rule} {s r : List Char} {e : Expr}
    (h : rule.parser.run s = .ok e r) : ∃ u, s = u ++ r ∧ Derives rule u e :=
  soundBelow (s.length + 1) rule s e r (by omega) h

end ExprText.Grammar
