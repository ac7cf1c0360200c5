/-
  ExprText.Proofs.Acceptance
  ──────────────────────────
  **A TEXT IS READ IF AND ONLY IF THE GRAMMAR DERIVES IT.**

  Reading a whole text is reading an expression between blanks with nothing left
  behind it.  By soundness and completeness that is a statement about the
  grammar alone:

      read s = .ok e
        ↔  s is blanks, a text derived from `relational` with tree `e`, and blanks

  So reading accepts no text beside the derived ones and refuses none of them,
  and since no text has two trees (`Derives.unique`) it has no choice of tree
  either.
-/
import ExprText.Proofs.Completeness
import ExprText.Reading

namespace ExprText.Grammar

open ExprText.Parser

/-! ## §1. An expression between blanks. -/

theorem padded_eq_ok_iff {s r : List Char} {e : Expr} :
    padded.run s = .ok e r ↔
      ∃ w t w', s = w ++ t ∧ Blanks w ∧ Stops Text.isBlank t ∧
        Rule.relational.parser.run t = .ok e (w' ++ r) ∧ Blanks w' ∧ Stops Text.isBlank r := by
  have hpadded : padded = (spaces.seqRight Rule.relational.parser).seqLeft spaces := by
    rw [← parser_expression_eq]
    rfl
  rw [hpadded, seqLeft_eq_ok_iff]
  apply Iff.intro
  · intro ⟨t', x', hfront, hx'⟩
    obtain ⟨t, x, hx, hrun⟩ := seqRight_eq_ok_iff.1 hfront
    obtain ⟨hs, hw, ht⟩ := spaces_eq_ok_iff.1 hx
    obtain ⟨ht', hw', hr⟩ := spaces_eq_ok_iff.1 hx'
    rw [ht'] at hrun
    exact ⟨x.toList, t, x'.toList, hs, hw, ht, hrun, hw', hr⟩
  · intro ⟨w, t, w', hs, hw, ht, hrun, hw', hr⟩
    subst hs
    exact ⟨w' ++ r, _, seqRight_eq_ok_iff.2 ⟨t, _, run_spaces_append hw ht, hrun⟩,
      run_spaces_append hw' hr⟩

/-- Blanks, a derived text and blanks: that is what is read of a padded expression. -/
theorem padded_eq_ok_nil_iff {s : List Char} {e : Expr} :
    padded.run s = .ok e [] ↔
      ∃ w u w', s = w ++ u ++ w' ∧ Blanks w ∧ Derives .relational u e ∧ Blanks w' := by
  rw [padded_eq_ok_iff]
  apply Iff.intro
  · intro ⟨w, t, w', hs, hw, _, hrun, hw', _⟩
    obtain ⟨u, ht, hu⟩ := derives_of_run hrun
    exact ⟨w, u, w', by rw [hs, ht]; simp, hw, hu, hw'⟩
  · intro ⟨w, u, w', hs, hw, hu, hw'⟩
    have hrun : Rule.relational.parser.run (u ++ w') = .ok e w' :=
      run_of_derives hu (closed_blanks hw')
    refine ⟨w, u ++ w', w', ?_, hw, hu.stops_isBlank w', ?_, hw', stops_nil _⟩
    · rw [hs, List.append_assoc]
    · rw [List.append_nil]
      exact hrun

/-! ## §2. Reading a text. -/

theorem read_eq_ok_iff_padded {s : String} {e : Expr} :
    read s = .ok e ↔
      ∃ w u w', s.toList = w ++ u ++ w' ∧ Blanks w ∧ Derives .relational u e ∧ Blanks w' :=
  read_eq_ok_iff.trans padded_eq_ok_nil_iff

/-- A derived text is read, with no blanks around it. -/
theorem read_of_derives {u : List Char} {e : Expr} (h : Derives .relational u e) :
    read (String.ofList u) = .ok e := by
  rw [read_eq_ok_iff, String.toList_ofList, padded_eq_ok_nil_iff]
  exact ⟨[], u, [], by simp, by decide, h, by decide⟩

/-- **READING ACCEPTS EXACTLY THE GRAMMAR.**  A text is read as `e` if and only if it is a derived
text with tree `e` between two runs of blanks; and no rule derives one text with two trees. -/
theorem read_eq_ok_iff_derives :
    (∀ (s : String) (e : Expr), read s = .ok e ↔
      ∃ w u w', s.toList = w ++ u ++ w' ∧ Blanks w ∧ Derives .relational u e ∧ Blanks w') ∧
    (∀ (rule : Rule) (u : List Char) (e e' : Expr),
      Derives rule u e → Derives rule u e' → e = e') :=
  ⟨fun _ _ => read_eq_ok_iff_padded, fun _ _ _ _ h h' => h.unique h'⟩

/-- A text full of signs, and a plus sign that may stand in front of a number or belong to it.  Both
derivations give one tree, and there is no other. -/
theorem read_eq_ok_iff_derives_signs :
    (∃ w u w', " a--1 ** +b ".toList = w ++ u ++ w' ∧ Blanks w ∧
      Derives .relational u
        (.bin .sub (.var "a") (.bin .pow (.neg (.const ⟨false, 1, 0⟩)) (.var "b"))) ∧
      Blanks w') ∧
    Derives .primary ['5'] (.const ⟨false, 5, 0⟩) ∧
    Derives .primary ['+', '5'] (.const ⟨false, 5, 0⟩) ∧
    ∀ e, Derives .unary ['+', '5'] e ↔ e = .const ⟨false, 5, 0⟩ := by
  have hfive : Numeral ['5'] ⟨false, 5, 0⟩ := .integer (by decide) (by decide) (by decide)
  have houter : Derives .primary ['5'] (.const ⟨false, 5, 0⟩) := .literal (.number hfive)
  have hinner : Derives .primary ['+', '5'] (.const ⟨false, 5, 0⟩) := .literal (.plusNumber hfive)
  refine ⟨(read_eq_ok_iff_derives.1 _ _).1 (read_eq_ok_iff.2 (by decide +kernel)), houter, hinner,
    fun e => ?_⟩
  apply Iff.intro
  · intro h
    exact read_eq_ok_iff_derives.2 .unary _ _ _ h (.plus houter)
  · intro h
    subst h
    exact .plain hinner (by decide)

end ExprText.Grammar
