/-
  ExprText.Proofs.Surroundings
  ────────────────────────────
  **WHAT STANDS AROUND AN EXPRESSION DOES NOT CHANGE IT.**

  Two things can be put around a text without changing what is read in it:

      blanks, around any text        every reading stays as it is, also one that
                                     fails or leaves something behind
      other text, behind a whole     the expression is read the same, and the other
      expression                     text is left

  Blanks behind a text could be read by any link, power or parenthesis that is not
  finished where the text ends.  They never are: a derived piece ends with a
  character of an operand, so the fronts of the text are the same with the blanks
  and without (`front_append_blanks_iff`).

  Other text must not continue the last token, and must not start with an operator
  behind its blanks.  Nothing else is asked of it.

  Main statements: `read_between_blanks`, `run_expression_embedded`.
-/
import ExprText.Proofs.Fronts

namespace ExprText

namespace Grammar

open ExprText.Parser

/-! ## §1. Blanks behind a text. -/

theorem dropWhile_blanks {w : List Char} (hw : Blanks w) : w.dropWhile Text.isBlank = [] :=
  (eq_append_iff.1 ⟨(List.append_nil w).symm, hw, stops_nil _⟩).2.symm

theorem cutsDigits_append_blanks {u r w : List Char} (hw : Blanks w) :
    CutsDigits u (r ++ w) ↔ CutsDigits u r := by
  cases r with
  | cons c r => exact Iff.rfl
  | nil =>
    have hnone : ¬ CutsDigits u [] := by
      intro ⟨_, _, d, hd, _⟩
      cases hd
    refine iff_of_false ?_ hnone
    cases w with
    | nil => exact hnone
    | cons c w =>
      have hcut : ¬ CutsDigits u (c :: w ++ []) := not_cutsDigits_of_blank hw
      rw [List.append_nil] at hcut
      exact hcut

/-- A derived piece at the front of a text with blanks behind it ends in front of the blanks. -/
theorem Derives.split_of_append_blanks {rule : Rule} {s u r w : List Char} {e : Expr}
    (h : Derives rule u e) (hw : Blanks w) (hs : s ++ w = u ++ r) :
    ∃ t, s = u ++ t ∧ r = t ++ w := by
  rcases List.append_eq_append_iff.1 hs with ⟨x, hu, hx⟩ | ⟨t, ht, hr⟩
  · rcases List.eq_nil_or_concat x with hnil | ⟨x', d, hd⟩
    · rw [hnil, List.append_nil] at hu
      rw [hnil, List.nil_append] at hx
      exact ⟨[], by rw [hu, List.append_nil], hx.symm⟩
    · -- the last character of the piece would be a blank
      rw [List.concat_eq_append] at hd
      obtain ⟨v, c, hv, hc⟩ := h.closes
      have hlast : (s ++ (x' ++ [d])).getLast? = some c := by
        rw [← hd, ← hu, hv, List.getLast?_concat]
      rw [← List.append_assoc, List.getLast?_concat, Option.some.injEq] at hlast
      have hblank := hw d (by simp [hx, hd])
      rw [hlast, isBlank_of_closesOperand hc] at hblank
      cases hblank
  · exact ⟨t, ht, hr⟩

/-- **Blanks behind a text neither add a front nor take one away.** -/
theorem front_append_blanks_iff {rule : Rule} {s u r w : List Char} {e : Expr} (hw : Blanks w) :
    Front rule (s ++ w) u e r ↔ ∃ t, r = t ++ w ∧ Front rule s u e t := by
  constructor
  · intro h
    obtain ⟨t, hs, hr⟩ := h.derives.split_of_append_blanks hw h.split
    have hcut := h.notCut
    rw [hr, cutsDigits_append_blanks hw] at hcut
    exact ⟨t, hr, hs, h.derives, hcut⟩
  · intro ⟨t, hr, h⟩
    subst hr
    refine ⟨?_, h.derives, ?_⟩
    · rw [h.split, List.append_assoc]
    · rw [cutsDigits_append_blanks hw]
      exact h.notCut

theorem longestFront_append_blanks_iff {rule : Rule} {s u w : List Char} (hw : Blanks w) :
    LongestFront rule (s ++ w) u ↔ LongestFront rule s u := by
  constructor
  · intro h u' e' r' hfront
    exact h u' e' (r' ++ w) ((front_append_blanks_iff hw).2 ⟨r', rfl, hfront⟩)
  · intro h u' e' r' hfront
    obtain ⟨t, _, hfront'⟩ := (front_append_blanks_iff hw).1 hfront
    exact h u' e' t hfront'

/-- **Every rule carries the blanks behind a text into what it leaves**, and succeeds no more often
and no less. -/
theorem run_append_blanks_iff {rule : Rule} {s r w : List Char} {e : Expr} (hw : Blanks w) :
    rule.parser.run (s ++ w) = .ok e r ↔ ∃ t, r = t ++ w ∧ rule.parser.run s = .ok e t := by
  rw [run_eq_ok_iff_longest]
  constructor
  · intro ⟨u, hfront, hlongest⟩
    obtain ⟨t, hr, hfront'⟩ := (front_append_blanks_iff hw).1 hfront
    have hlongest' := (longestFront_append_blanks_iff hw).1 hlongest
    exact ⟨t, hr, run_eq_ok_iff_longest.2 ⟨u, hfront', hlongest'⟩⟩
  · intro ⟨t, hr, hrun⟩
    obtain ⟨u, hfront, hlongest⟩ := run_eq_ok_iff_longest.1 hrun
    exact ⟨u, (front_append_blanks_iff hw).2 ⟨t, hr, hfront⟩,
      (longestFront_append_blanks_iff hw).2 hlongest⟩

/-! ## §2. Blanks around a text. -/

theorem run_nil_ne_ok {rule : Rule} {e : Expr} {r : List Char} : rule.parser.run [] ≠ .ok e r := by
  intro h
  obtain ⟨u, hs, hu⟩ := derives_of_run h
  exact hu.ne_nil (List.append_eq_nil_iff.1 hs.symm).1

/-- The padded expression is the expression behind all blanks at the front, and takes all blanks
behind it. -/
theorem padded_eq_ok_iff_dropWhile {s r : List Char} {e : Expr} :
    padded.run s = .ok e r ↔
      ∃ t, Rule.relational.parser.run (s.dropWhile Text.isBlank) = .ok e t ∧
        r = t.dropWhile Text.isBlank := by
  have hpadded : padded = (spaces.seqRight Rule.relational.parser).seqLeft spaces := by
    rw [← parser_expression_eq]
    rfl
  rw [hpadded, seqLeft_eq_ok_iff]
  constructor
  · intro ⟨t, x', hfront, hx'⟩
    obtain ⟨u, x, hx, hrun⟩ := seqRight_eq_ok_iff.1 hfront
    rw [run_spaces] at hx hx'
    cases hx
    cases hx'
    exact ⟨t, hrun, rfl⟩
  · intro ⟨t, hrun, hr⟩
    subst hr
    exact ⟨t, _, seqRight_eq_ok_iff.2 ⟨_, _, run_spaces s, hrun⟩, run_spaces t⟩

/-- Behind the blanks at its front, a text with blanks added at its end is read as before. -/
theorem run_dropWhile_append_blanks_iff {rule : Rule} {s r w : List Char} {e : Expr}
    (hw : Blanks w) :
    rule.parser.run ((s ++ w).dropWhile Text.isBlank) = .ok e r ↔
      ∃ t, r = t ++ w ∧ rule.parser.run (s.dropWhile Text.isBlank) = .ok e t := by
  rw [List.dropWhile_append]
  split
  · next hempty =>
    -- nothing but blanks, and no rule reads the empty text
    rw [dropWhile_blanks hw, List.isEmpty_iff.1 hempty]
    refine iff_of_false run_nil_ne_ok ?_
    intro ⟨_, _, h⟩
    exact run_nil_ne_ok h
  · exact run_append_blanks_iff hw

/-- **Blanks around a text keep the reply of the padded expression.**  The blanks behind it are
left only if something stands in front of them. -/
theorem padded_between_blanks {w s w' r : List Char} {e : Expr} (hw : Blanks w)
    (hw' : Blanks w') :
    padded.run (w ++ s ++ w') = .ok e r ↔
      ∃ t, padded.run s = .ok e t ∧ r = if t.isEmpty then [] else t ++ w' := by
  have hbehind (t : List Char) : (t ++ w').dropWhile Text.isBlank =
      if (t.dropWhile Text.isBlank).isEmpty then [] else t.dropWhile Text.isBlank ++ w' := by
    rw [List.dropWhile_append, dropWhile_blanks hw']
  rw [padded_eq_ok_iff_dropWhile, List.append_assoc, List.dropWhile_append_of_pos hw]
  constructor
  · intro ⟨t', hrun, hr⟩
    obtain ⟨t, ht, hrun'⟩ := (run_dropWhile_append_blanks_iff hw').1 hrun
    rw [ht, hbehind] at hr
    exact ⟨_, padded_eq_ok_iff_dropWhile.2 ⟨t, hrun', rfl⟩, hr⟩
  · intro ⟨t, hpadded, hr⟩
    obtain ⟨x, hrun, ht⟩ := padded_eq_ok_iff_dropWhile.1 hpadded
    rw [ht, ← hbehind] at hr
    exact ⟨x ++ w', (run_dropWhile_append_blanks_iff hw').2 ⟨x, rfl, hrun⟩, hr⟩

end Grammar

/-- **BLANKS AROUND A TEXT DO NOT CHANGE WHAT IS READ**, also where it goes wrong.  An expression
stays the same expression; what stood behind one is followed by the blanks; and a text that does not
start with an expression does not start with one between blanks. -/
theorem read_between_blanks {w w' : String} (hw : Grammar.Blanks w.toList)
    (hw' : Grammar.Blanks w'.toList) (s : String) :
    (∀ e, read s = .ok e → read (w ++ s ++ w') = .ok e) ∧
      (∀ e remaining, read s = .error (.trailing e remaining) →
        read (w ++ s ++ w') = .error (.trailing e (remaining ++ w'))) ∧
      (read s = .error (.invalid s) →
        read (w ++ s ++ w') = .error (.invalid (w ++ s ++ w'))) := by
  have htext : (w ++ s ++ w').toList = w.toList ++ s.toList ++ w'.toList := by
    rw [String.toList_append, String.toList_append]
  refine ⟨?_, ?_, ?_⟩
  · intro e h
    rw [read_eq_ok_iff] at h ⊢
    rw [htext, Grammar.padded_between_blanks hw hw']
    exact ⟨[], h, rfl⟩
  · intro e remaining h
    rw [read_eq_trailing_iff] at h ⊢
    obtain ⟨hrun, hne⟩ := h
    rw [htext, String.toList_append]
    refine ⟨(Grammar.padded_between_blanks hw hw').2 ⟨remaining.toList, hrun, ?_⟩, ?_⟩
    · rw [if_neg (fun hempty => hne (List.isEmpty_iff.1 hempty))]
    · exact List.append_ne_nil_of_left_ne_nil hne _
  · intro h
    obtain ⟨_, rest, hfail⟩ := read_eq_invalid_iff.1 h
    refine read_eq_invalid_iff.2 ⟨rfl, ?_⟩
    cases hrun : Grammar.padded.run (w ++ s ++ w').toList with
    | fail rest' => exact ⟨rest', rfl⟩
    | ok e r =>
      -- a reading between blanks would be one without them
      rw [htext] at hrun
      obtain ⟨t, ht, _⟩ := (Grammar.padded_between_blanks hw hw').1 hrun
      rw [hfail] at ht
      cases ht

theorem read_between_blanks_wide :
    read ("\u3000\t" ++ "a ** 2" ++ "\n\u3000") =
        .ok (.bin .pow (.var "a") (.const ⟨false, 2, 0⟩)) ∧
      read ("\u3000\t" ++ "a **" ++ "\n\u3000") =
        .error (.trailing (.var "a") ("**" ++ "\n\u3000")) ∧
      read ("\u3000\t" ++ "(a" ++ "\n\u3000") =
        .error (.invalid ("\u3000\t" ++ "(a" ++ "\n\u3000")) := by
  have hw : Grammar.Blanks "\u3000\t".toList := by decide
  have hw' : Grammar.Blanks "\n\u3000".toList := by decide
  exact ⟨(read_between_blanks hw hw' "a ** 2").1 _ (read_eq_ok_iff.2 (by decide +kernel)),
    (read_between_blanks hw hw' "a **").2.1 _ _ (read_eq_trailing_iff.2 (by decide +kernel)),
    (read_between_blanks hw hw' "(a").2.2
      (read_eq_invalid_iff.2 ⟨rfl, "(a".toList, by decide +kernel⟩)⟩

namespace Grammar

/-! ## §3. Other text behind a whole expression. -/

/-- The characters that a symbol starts with. -/
def opensOperator (c : Char) : Bool :=
  ['+', '-', '*', '/', '%', '<', '>', '=', '!'].contains c

theorem symbol_opensOperator (op : Operator) :
    ∃ c v, op.symbol.toList = c :: v ∧ opensOperator c = true := by
  rw [toList_symbol]
  cases op <;> exact ⟨_, _, rfl, by decide⟩

/-- A text that neither continues a token nor starts an operator closes every operand. -/
theorem closed_of_stops {place : Nat} {r : List Char} (htoken : Stops continuesToken r)
    (hoperator : Stops opensOperator (r.dropWhile Text.isBlank)) : Closed place r where
  token := htoken
  operator op _ hsymbol := by
    obtain ⟨c, v, hcons, hopens⟩ := symbol_opensOperator op
    obtain ⟨t, ht⟩ := hsymbol
    have hfirst : (r.dropWhile Text.isBlank).head? = some c := by
      rw [← ht, hcons, List.cons_append, List.head?_cons]
    rw [hoperator c hfirst] at hopens
    cases hopens

/-- **A WHOLE EXPRESSION IS READ THE SAME IN FRONT OF OTHER TEXT**, and the other text is left as it
is: it may be anything that does not continue the last token and does not start, behind its blanks,
with the first character of an operator. -/
theorem run_expression_embedded {u r : List Char} {e : Expr} (hu : expression.run u = .ok e [])
    (hfirst : Stops continuesToken r)
    (hnext : Stops opensOperator (r.dropWhile Text.isBlank)) :
    expression.run (u ++ r) = .ok e r := by
  have hderives : Derives .expression u e := run_eq_ok_nil_iff.1 hu
  exact run_of_derives hderives (closed_of_stops hfirst hnext)

theorem run_expression_embedded_argument :
    expression.run ("a ** -2".toList ++ [' ', ')', ' ', '+', 'b']) =
      .ok (.bin .pow (.var "a") (.neg (.const ⟨false, 2, 0⟩))) [' ', ')', ' ', '+', 'b'] :=
  run_expression_embedded (by decide +kernel) (stops_cons.2 (by decide)) (stops_cons.2 (by decide))

end Grammar

end ExprText
