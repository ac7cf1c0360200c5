/-
  ExprText.Proofs.LongestMatch
  ────────────────────────────
  **EVERY RULE READS AS MUCH AS IT CAN.**

  A rule stops at the last point where it could stop.  What it has read, it reads
  alone as well; no longer piece of the text would be read whole; and where the
  rule fails, no piece at the front of the text would be read whole at all.

  There is one exception, and the statements name it.  A cut between two digits
  (`CutsDigits`) can turn a number that is out of range into one that is not:
  forty digits are refused, and the first ten of them are read.

  The reason behind it is that reading never needs the end of the text: a text
  that a rule derives is read with whatever stands behind it, and at most more
  than the derived text is taken (`exists_run_of_derives`).
-/
import ExprText.Proofs.Acceptance

namespace ExprText.Grammar

open ExprText.Parser

/-! ## §1. Cuts. -/

/-- The cut between the two texts lies between two digits. -/
def CutsDigits (u r : List Char) : Prop :=
  ∃ c ∈ u.getLast?, ∃ d ∈ r.head?, c.isDigit = true ∧ d.isDigit = true

/-- A cut is seen from the last piece in front of it. -/
theorem cutsDigits_append {x u r : List Char} (hne : u ≠ []) :
    CutsDigits (x ++ u) r ↔ CutsDigits u r := by
  have hlast : (x ++ u).getLast? = u.getLast? := by
    rw [List.getLast?_append, List.getLast?_eq_some_getLast hne]
    rfl
  unfold CutsDigits
  rw [hlast]

theorem cutsDigits_cons {c : Char} {u r : List Char} (hne : u ≠ []) :
    CutsDigits (c :: u) r ↔ CutsDigits u r :=
  cutsDigits_append (x := [c]) hne

/-- Blanks behind the cut keep it away from digits. -/
theorem not_cutsDigits_of_blank {u w r : List Char} {c : Char} (hw : Blanks (c :: w)) :
    ¬ CutsDigits u (c :: w ++ r) := by
  intro ⟨_, _, d, hd, _, hdigit⟩
  cases hd
  have hblank := hw c List.mem_cons_self
  rw [isBlank_of_isWordChar (isWordChar_of_isDigit hdigit)] at hblank
  cases hblank

theorem stops_isDigit_of_numeral {u r : List Char} {d : Decimal} (h : Numeral u d)
    (hcut : ¬ CutsDigits u r) : Stops Char.isDigit r := by
  obtain ⟨v, c, hv, hc⟩ := h.closes
  intro d' hd'
  apply Bool.eq_false_iff.2
  intro hdigit
  refine absurd ?_ hcut
  refine ⟨c, ?_, d', hd', hc, hdigit⟩
  rw [hv, List.getLast?_concat]
  exact rfl

/-! ## §2. A derived text in front of any text. -/

theorem exists_run_literal {u r : List Char} {e : Expr} (h : Derives .literal u e)
    (hr : Stops Char.isDigit r) : ∃ e' r', literal.run (u ++ r) = .ok e' r' ∧ r' <:+ r := by
  rcases run_literal_cases h hr with hrun | ⟨e', w, r', hrun, hw⟩
  · exact ⟨e, r, hrun, List.suffix_refl r⟩
  · refine ⟨e', r', hrun, ?_⟩
    rw [hw]
    exact (List.suffix_append w r').trans (List.suffix_cons '.' _)

/-- **A derived text is read with whatever stands behind it.**  The rule succeeds and takes all of
the derived text, perhaps more, unless the cut behind it lies between two digits. -/
theorem exists_run_of_derives {rule : Rule} {u r : List Char} {e : Expr} (h : Derives rule u e)
    (hcut : ¬ CutsDigits u r) :
    ∃ e' r', rule.parser.run (u ++ r) = .ok e' r' ∧ r' <:+ r := by
  induction h with
  | name hname =>
    exact ⟨_, _, run_variableRef_append (.name hname) r, List.dropWhile_suffix _⟩
  | number hu => exact exists_run_literal (.number hu) (stops_isDigit_of_numeral hu hcut)
  | plusNumber hu =>
    rw [cutsDigits_cons (Derives.number hu).ne_nil] at hcut
    exact exists_run_literal (.plusNumber hu) (stops_isDigit_of_numeral hu hcut)
  | minusNumber hu =>
    rw [cutsDigits_cons (Derives.number hu).ne_nil] at hcut
    exact exists_run_literal (.minusNumber hu) (stops_isDigit_of_numeral hu hcut)
  | variableRef _ ih =>
    obtain ⟨e', r', hrun, hsuffix⟩ := ih hcut
    exact ⟨e', r', primary_eq_ok_iff.2 (.inl hrun), hsuffix⟩
  | literal _ ih =>
    obtain ⟨e', r', hrun, hsuffix⟩ := ih hcut
    exact ⟨e', r', primary_eq_ok_iff.2 (.inr (.inl hrun)), hsuffix⟩
  | parens hw hu hw' _ => exact ⟨_, r, run_primary_parens hw hu hw' r, List.suffix_refl r⟩
  | neg hu ih =>
    rw [cutsDigits_cons hu.ne_nil] at hcut
    obtain ⟨e', r', hrun, hsuffix⟩ := ih hcut
    exact ⟨.neg e', r', unary_eq_ok_iff.2 (.inl ⟨_, e', rfl, hrun, rfl⟩), hsuffix⟩
  | plus hu ih =>
    rw [cutsDigits_cons hu.ne_nil] at hcut
    obtain ⟨e', r', hrun, hsuffix⟩ := ih hcut
    exact ⟨e', r', unary_eq_ok_iff.2 (.inr (.inl ⟨_, rfl, hrun⟩)), hsuffix⟩
  | plain hu hminus ih =>
    obtain ⟨e', r', hrun, hsuffix⟩ := ih hcut
    exact ⟨e', r', run_unary_of_primary hu.ne_nil hminus hrun, hsuffix⟩
  | base _ ih =>
    obtain ⟨base, t, hbase, ht⟩ := ih hcut
    obtain ⟨e', r', hrun, hsuffix⟩ := exists_run_exponential hbase
    exact ⟨e', r', hrun, hsuffix.trans ht⟩
  | @power u o v base exponent hbase ho hv _ ih =>
    rw [cutsDigits_append hv.ne_nil] at hcut
    obtain ⟨e', r', hexponent, hsuffix⟩ := ih hcut
    -- the base is closed by its operator, and only the exponent may take more
    have hclosed : Closed Rule.unary.place (o ++ (v ++ r)) :=
      closed_of_spaced ho hv (by decide) r
    have hlink := powerLink_of_spaced ho hv hexponent
    have hrun := exponential_eq_ok_iff.2
      ⟨base, _, run_of_derives hbase hclosed, .inl ⟨e', hlink, rfl⟩⟩
    exact ⟨.bin .pow base e', r', by simpa using hrun, hsuffix⟩
  | @operand rule operand ops u e level _ ih =>
    obtain ⟨first, t, hfirst, ht⟩ := ih hcut
    obtain ⟨e', r', hresume, hsuffix⟩ := exists_resume operand first t
    exact ⟨e', r', (run_level level hfirst).trans hresume, hsuffix.trans ht⟩
  | @link rule operand ops op u o v left right level hop hleft ho hv _ ih =>
    rw [cutsDigits_append hv.ne_nil] at hcut
    obtain ⟨right', t, hright, ht⟩ := ih hcut
    have hprecedence := level.precedence_eq hop
    have hplace := level.place_eq
    -- the operands in front are closed by their operators, and the last one may take more
    have hclosed : Closed operand.place (o ++ (v ++ r)) := closed_of_spaced ho hv (by omega) r
    have hrun := (complete_of_derives hleft).resumes ops operand level _ hclosed
    have hlink : (levelLink ops operand).run (o ++ (v ++ r)) = .ok (op, right') t :=
      link_of_spaced level hop ho hv hright
    obtain ⟨e', r', hresume, hsuffix⟩ := exists_resume operand (.bin op left right') t
    refine ⟨e', r', ?_, hsuffix.trans ht⟩
    rw [← hresume, ← resume_of_link hlink, ← hrun]
    simp
  | expression _ ih =>
    rw [parser_expression_eq]
    exact ih hcut

/-! ## §3. Every rule reads as much as it can. -/

/-- The rule reads the text whole. -/
def ReadsWhole (rule : Rule) (u : List Char) : Prop :=
  ∃ e, rule.parser.run u = .ok e []

/-- What a rule leaves stands behind every piece at the front of the text that is read whole. -/
theorem suffix_of_readsWhole {rule : Rule} {u r s t : List Char} {e : Expr}
    (hu : ReadsWhole rule u) (hcut : ¬ CutsDigits u r) (hs : s = u ++ r)
    (h : rule.parser.run s = .ok e t) : t <:+ r := by
  obtain ⟨e', he'⟩ := hu
  obtain ⟨e'', r', hrun, hsuffix⟩ := exists_run_of_derives (run_eq_ok_nil_iff.1 he') hcut
  rw [hs, hrun] at h
  cases h
  exact hsuffix

theorem run_longest {rule : Rule} {s r : List Char} {e : Expr}
    (h : rule.parser.run s = .ok e r) :
    ∃ u, s = u ++ r ∧ rule.parser.run u = .ok e [] ∧
      ∀ u' r', s = u' ++ r' → u.length < u'.length → ¬ CutsDigits u' r' → ¬ ReadsWhole rule u' := by
  obtain ⟨u, hs, hu⟩ := derives_of_run h
  refine ⟨u, hs, run_eq_ok_nil_iff.2 hu, fun u' r' hs' hlt hcut hwhole => ?_⟩
  -- the rest of the text stands behind the longer piece, which leaves no room for it
  have hsuffix := suffix_of_readsWhole hwhole hcut hs' h
  have hle := hsuffix.length_le
  have hlen := congrArg List.length (hs.symm.trans hs')
  simp only [List.length_append] at hlen
  omega

theorem not_readsWhole_of_fail {rule : Rule} {s t u r : List Char}
    (h : rule.parser.run s = .fail t) (hs : s = u ++ r) (hcut : ¬ CutsDigits u r) :
    ¬ ReadsWhole rule u := by
  intro ⟨e, he⟩
  obtain ⟨e', r', hrun, _⟩ := exists_run_of_derives (run_eq_ok_nil_iff.1 he) hcut
  rw [hs, hrun] at h
  cases h

/-! ## §4. Reading a text reads as much as it can. -/

/-- A text that is read whole, in front of more text: an expression is found behind its blanks,
and what is left begins behind the expression or later. -/
theorem exists_run_of_padded {q r : List Char} {e : Expr} (h : padded.run q = .ok e [])
    (hcut : ¬ CutsDigits q r) :
    ∃ w t w' e' r', q ++ r = w ++ t ∧ Blanks w ∧ Stops Text.isBlank t ∧ Blanks w' ∧
      Rule.relational.parser.run t = .ok e' r' ∧ r' <:+ w' ++ r := by
  obtain ⟨w, u, w', hq, hw, hu, hw'⟩ := padded_eq_ok_nil_iff.1 h
  -- the cut behind the expression is the given one, or stands in front of a blank
  have hcut' : ¬ CutsDigits u (w' ++ r) := by
    cases w' with
    | nil =>
      rw [hq, List.append_nil, cutsDigits_append hu.ne_nil] at hcut
      exact hcut
    | cons c w' => exact not_cutsDigits_of_blank hw'
  obtain ⟨e', r', hrun, hsuffix⟩ := exists_run_of_derives hu hcut'
  refine ⟨w, u ++ (w' ++ r), w', e', r', ?_, hw, hu.stops_isBlank _, hw', hrun, hsuffix⟩
  rw [hq]
  simp

/-- The padded expression leaves no more than follows the blanks behind any text that is read
whole: what it leaves does not start with a blank. -/
theorem suffix_of_padded {q r s t : List Char} {e e' : Expr} (hq : padded.run q = .ok e [])
    (hcut : ¬ CutsDigits q r) (hs : s = q ++ r) (h : padded.run s = .ok e' t) : t <:+ r := by
  obtain ⟨w, x, w', e'', r', hx, hw, hstop, hw', hrun, hsuffix⟩ := exists_run_of_padded hq hcut
  obtain ⟨v, y, v', hy, hv, hstop', hrun', hv', ht⟩ := padded_eq_ok_iff.1 h
  -- the blanks at the front of a text are one run
  have hxs := eq_append_iff.1 ⟨hs.trans hx, hw, hstop⟩
  have hys := eq_append_iff.1 ⟨hy, hv, hstop'⟩
  rw [hxs.2, ← hys.2, hrun'] at hrun
  cases hrun
  have ht' : t <:+ w' ++ r := (List.suffix_append v' t).trans hsuffix
  obtain ⟨z, hz⟩ := ht'
  rcases List.append_eq_append_iff.1 hz with ⟨a, hw'', hta⟩ | ⟨a, _, hr⟩
  · cases a with
    | nil =>
      rw [hta]
      exact List.suffix_refl r
    | cons c a =>
      -- what is left would start with the blank `c`
      have hblank : Text.isBlank c = true := hw' c (by rw [hw'']; simp)
      rw [hta, List.cons_append, stops_cons, hblank] at ht
      cases ht
  · exact ⟨a, hr.symm⟩

theorem read_trailing_longest {s remaining : String} {e : Expr}
    (h : read s = .error (.trailing e remaining)) :
    ∃ p, s.toList = p ++ remaining.toList ∧ remaining ≠ "" ∧
      Stops Text.isBlank remaining.toList ∧ read (String.ofList p) = .ok e ∧
      ∀ q r, s.toList = q ++ r → p.length < q.length → ¬ CutsDigits q r →
        ∀ e', read (String.ofList q) ≠ .ok e' := by
  obtain ⟨hpadded, hne⟩ := read_eq_trailing_iff.1 h
  obtain ⟨w, t, w', hs, hw, _, hrun, hw', hstop⟩ := padded_eq_ok_iff.1 hpadded
  obtain ⟨u, ht, hu⟩ := derives_of_run hrun
  have hs' : s.toList = w ++ u ++ w' ++ remaining.toList := by
    rw [hs, ht]
    simp
  refine ⟨w ++ u ++ w', hs', ?_, hstop, ?_, ?_⟩
  · intro hempty
    rw [hempty] at hne
    exact hne rfl
  · rw [read_eq_ok_iff, String.toList_ofList]
    exact padded_eq_ok_nil_iff.2 ⟨w, u, w', rfl, hw, hu, hw'⟩
  · intro q r hq hlt hcut e' hread
    rw [read_eq_ok_iff, String.toList_ofList] at hread
    -- what is left stands behind the longer piece, which leaves no room for it
    have hsuffix := suffix_of_padded hread hcut hq hpadded
    have hle := hsuffix.length_le
    have hlen := congrArg List.length (hs'.symm.trans hq)
    simp only [List.length_append] at hlen hlt
    omega

theorem read_invalid_longest {s input : String} (h : read s = .error (.invalid input)) :
    input = s ∧ ∀ q r, s.toList = q ++ r → ¬ CutsDigits q r →
      ∀ e, read (String.ofList q) ≠ .ok e := by
  obtain ⟨hinput, rest, hfail⟩ := read_eq_invalid_iff.1 h
  refine ⟨hinput, fun q r hs hcut e hread => ?_⟩
  rw [read_eq_ok_iff, String.toList_ofList] at hread
  obtain ⟨w, t, w', e', r', hq, hw, hstop, _, hrun, _⟩ := exists_run_of_padded hread hcut
  -- the padded expression would succeed on the whole text
  have hsplit : r'.takeWhile Text.isBlank ++ r'.dropWhile Text.isBlank = r' :=
    List.takeWhile_append_dropWhile
  have hblanks : Blanks (r'.takeWhile Text.isBlank) := List.all_eq_true.1 List.all_takeWhile
  have hpadded : padded.run s.toList = .ok e' (r'.dropWhile Text.isBlank) :=
    padded_eq_ok_iff.2 ⟨w, t, r'.takeWhile Text.isBlank, hs.trans hq, hw, hstop,
      by rw [hsplit]; exact hrun, hblanks, stops_dropWhile _ r'⟩
  rw [hfail] at hpadded
  cases hpadded

/-- **EVERY RULE READS AS MUCH AS IT CAN**, and so does the reading of a whole text.

* A success has read a text that the rule reads alone, with the same tree, and no longer piece of
  the text is read whole.
* After a failure, no piece at the front of the text is read whole.
* A text with something left behind has a longest piece that is accepted, and what is left does
  not start with a blank; of a refused text no piece is accepted.

Pieces that end between two digits are left out. -/
theorem reads_longest_piece :
    (∀ (rule : Rule) (s r : List Char) (e : Expr), rule.parser.run s = .ok e r →
      ∃ u, s = u ++ r ∧ rule.parser.run u = .ok e [] ∧
        ∀ u' r', s = u' ++ r' → u.length < u'.length → ¬ CutsDigits u' r' →
          ¬ ReadsWhole rule u') ∧
    (∀ (rule : Rule) (s t : List Char), rule.parser.run s = .fail t →
      ∀ u r, s = u ++ r → ¬ CutsDigits u r → ¬ ReadsWhole rule u) ∧
    (∀ (s remaining : String) (e : Expr), read s = .error (.trailing e remaining) →
      ∃ p, s.toList = p ++ remaining.toList ∧ remaining ≠ "" ∧
        Stops Text.isBlank remaining.toList ∧ read (String.ofList p) = .ok e ∧
        ∀ q r, s.toList = q ++ r → p.length < q.length → ¬ CutsDigits q r →
          ∀ e', read (String.ofList q) ≠ .ok e') ∧
    (∀ (s input : String), read s = .error (.invalid input) →
      input = s ∧ ∀ q r, s.toList = q ++ r → ¬ CutsDigits q r →
        ∀ e, read (String.ofList q) ≠ .ok e) :=
  ⟨fun _ _ _ _ h => run_longest h,
    fun _ _ _ h _ _ hs hcut => not_readsWhole_of_fail h hs hcut,
    fun _ _ _ h => read_trailing_longest h,
    fun _ _ h => read_invalid_longest h⟩

/-- A power without its exponent, a text without an operand, and the same inside a whole text. -/
theorem reads_longest_piece_dangling :
    (∃ u, "a ** b **".toList = u ++ " **".toList ∧
      Rule.exponential.parser.run u = .ok (.bin .pow (.var "a") (.var "b")) [] ∧
      ∀ u' r', "a ** b **".toList = u' ++ r' → u.length < u'.length → ¬ CutsDigits u' r' →
        ¬ ReadsWhole .exponential u') ∧
    ¬ ReadsWhole .unary ['-'] ∧
    (∃ p, "(a) == 2 )".toList = p ++ ")".toList ∧ ")" ≠ "" ∧
      Stops Text.isBlank ")".toList ∧
      read (String.ofList p) = .ok (.bin .eq (.var "a") (.const ⟨false, 2, 0⟩)) ∧
      ∀ q r, "(a) == 2 )".toList = q ++ r → p.length < q.length → ¬ CutsDigits q r →
        ∀ e', read (String.ofList q) ≠ .ok e') ∧
    ("(a" = "(a" ∧ ∀ q r, "(a".toList = q ++ r → ¬ CutsDigits q r →
      ∀ e, read (String.ofList q) ≠ .ok e) := by
  obtain ⟨hsuccess, hfailure, htrailing, hinvalid⟩ := reads_longest_piece
  have hblank : Blanks [' '] := by decide
  have hcut : ¬ CutsDigits ['-'] [' ', '*'] := not_cutsDigits_of_blank hblank
  have hrefused : Rule.unary.parser.run ['-', ' ', '*'] = .fail ['-', ' ', '*'] := by decide +kernel
  refine ⟨?_, hfailure .unary _ _ hrefused _ _ rfl hcut, ?_, ?_⟩
  · exact hsuccess .exponential _ _ _ (by decide +kernel)
  · exact htrailing _ _ _ (read_eq_trailing_iff.2 ⟨by decide +kernel, by decide⟩)
  · exact hinvalid _ _ (read_eq_invalid_iff.2 ⟨rfl, "(a".toList, by decide +kernel⟩)

end ExprText.Grammar
