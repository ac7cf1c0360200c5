/-
  ExprText.Proofs.Lexemes
  ───────────────────────
  **WHAT THE LEXICAL RULES READ.**

  Every lexical rule reads the longest run of its class, so its reply is known
  as soon as the run and the character behind it are:

      blanks, digits, names     all of the run, up to where it `Stops`
      numbers                   a numeral, up to where its digits stop
      symbols                   the operator whose symbol stands there

  A number is the one lexeme that may fall back: where a fraction is refused the
  integer in front of its point is read alone.  The fallback still reads a whole
  numeral (`numeral_of_unsignedNumber`), and in front of a text that does not go
  on with a point it never happens (`run_unsignedNumber_cases`).

  A symbol yields its operator at once.  To read the spelling and look the operator
  up afterwards is the same (`symbolAmong_eq_filterMap`), and the lookup never fails
  (`ofSymbol?_of_choice`).
-/
import ExprText.Grammar.Equations
import ExprText.Proofs.Derivation

namespace ExprText.Grammar

open ExprText.Parser

/-! ## §1. Runs of a class. -/

/-- The text does not go on with a member of the class. -/
def Stops (isMember : Char → Bool) (r : List Char) : Prop :=
  ∀ c ∈ r.head?, isMember c = false

theorem stops_nil (isMember : Char → Bool) : Stops isMember [] := by
  intro c hc
  cases hc

theorem stops_cons {isMember : Char → Bool} {c : Char} {r : List Char} :
    Stops isMember (c :: r) ↔ isMember c = false := by
  apply Iff.intro
  · intro h
    exact h c rfl
  · intro h d hd
    cases hd
    exact h

theorem Stops.append {isMember : Char → Bool} {s r : List Char} (hs : Stops isMember s)
    (hr : Stops isMember r) : Stops isMember (s ++ r) := by
  cases s with
  | nil => exact hr
  | cons c s => exact stops_cons.2 (stops_cons.1 hs)

theorem stops_dropWhile (isMember : Char → Bool) (s : List Char) :
    Stops isMember (s.dropWhile isMember) := by
  induction s with
  | nil => exact stops_nil isMember
  | cons c s ih =>
    by_cases hc : isMember c = true
    · rw [List.dropWhile_cons_of_pos hc]
      exact ih
    · rw [List.dropWhile_cons_of_neg hc, stops_cons]
      simpa using hc

theorem takeWhile_of_stops {isMember : Char → Bool} {r : List Char} (h : Stops isMember r) :
    r.takeWhile isMember = [] := by
  cases r with
  | nil => rfl
  | cons c r =>
    rw [stops_cons] at h
    simp [h]

theorem dropWhile_of_stops {isMember : Char → Bool} {r : List Char} (h : Stops isMember r) :
    r.dropWhile isMember = r := by
  cases r with
  | nil => rfl
  | cons c r =>
    rw [stops_cons] at h
    simp [h]

/-- **A text splits in one way only** into a run of the class and a text that stops it. -/
theorem eq_append_iff {isMember : Char → Bool} {s w r : List Char} :
    (s = w ++ r ∧ (∀ c ∈ w, isMember c = true) ∧ Stops isMember r) ↔
      w = s.takeWhile isMember ∧ r = s.dropWhile isMember := by
  apply Iff.intro
  · intro ⟨hs, hw, hr⟩
    -- the whole of `w` is taken, and `r` stops the taking at once
    subst hs
    rw [List.takeWhile_append_of_pos hw, List.dropWhile_append_of_pos hw,
      takeWhile_of_stops hr, dropWhile_of_stops hr]
    simp
  · intro ⟨hw, hr⟩
    subst hw hr
    refine ⟨List.takeWhile_append_dropWhile.symm, ?_, stops_dropWhile isMember s⟩
    exact List.all_eq_true.1 List.all_takeWhile

theorem many_satisfy_eq_ok_iff {isMember : Char → Bool} {s w r : List Char} :
    (satisfy isMember).many.run s = .ok w r ↔
      s = w ++ r ∧ (∀ c ∈ w, isMember c = true) ∧ Stops isMember r := by
  rw [run_many_satisfy, eq_append_iff, Reply.ok.injEq]
  exact ⟨fun h => ⟨h.1.symm, h.2.symm⟩, fun h => ⟨h.1.symm, h.2.symm⟩⟩

theorem many1_satisfy_eq_ok_iff {isMember : Char → Bool} {s w r : List Char} :
    (satisfy isMember).many1.run s = .ok w r ↔
      s = w ++ r ∧ w ≠ [] ∧ (∀ c ∈ w, isMember c = true) ∧ Stops isMember r := by
  rw [many1, bindWith_eq_ok_iff]
  apply Iff.intro
  · intro ⟨c, t, cs, hc, hcs, hw⟩
    obtain ⟨hs, hmem⟩ := satisfy_eq_ok_iff.1 hc
    obtain ⟨ht, hall, hr⟩ := many_satisfy_eq_ok_iff.1 hcs
    subst hs ht hw
    exact ⟨rfl, List.cons_ne_nil c cs, List.forall_mem_cons.2 ⟨hmem, hall⟩, hr⟩
  · intro ⟨hs, hne, hall, hr⟩
    cases w with
    | nil => exact absurd rfl hne
    | cons c cs =>
      obtain ⟨hmem, hall⟩ := List.forall_mem_cons.1 hall
      exact ⟨c, cs ++ r, cs, satisfy_eq_ok_iff.2 ⟨hs, hmem⟩,
        many_satisfy_eq_ok_iff.2 ⟨rfl, hall, hr⟩, rfl⟩

/-! ## §2. Blanks and names. -/

theorem spaces_eq_ok_iff {s r : List Char} {x : String} :
    spaces.run s = .ok x r ↔ s = x.toList ++ r ∧ Blanks x.toList ∧ Stops Text.isBlank r := by
  rw [run_spaces, Reply.ok.injEq]
  apply Iff.intro
  · intro ⟨hx, hr⟩
    subst hx hr
    rw [String.toList_ofList]
    exact eq_append_iff.2 ⟨rfl, rfl⟩
  · intro h
    obtain ⟨hx, hr⟩ := eq_append_iff.1 h
    exact ⟨by rw [← hx, String.ofList_toList], hr.symm⟩

theorem run_spaces_append {w r : List Char} (hw : Blanks w) (hr : Stops Text.isBlank r) :
    spaces.run (w ++ r) = .ok (String.ofList w) r := by
  rw [spaces_eq_ok_iff, String.toList_ofList]
  exact ⟨rfl, hw, hr⟩

/-- The characters behind the first one of a name form one class. -/
theorem digit_orElse_letter : digit.orElse letter = satisfy Text.isWordChar := by
  ext s
  cases s with
  | nil => rfl
  | cons c s =>
    cases hd : c.isDigit <;> cases hl : Text.isLetter c <;>
      simp [Parser.orElse, digit, letter, satisfy, Text.isWordChar, hd, hl]

theorem identifier_eq_ok_iff {s r : List Char} {x : String} :
    identifier.run s = .ok x r ↔
      s = x.toList ++ r ∧ Text.IsIdentifier x.toList ∧ Stops Text.isWordChar r := by
  rw [identifier, orElse_eq, digit_orElse_letter, bindWith_eq_ok_iff]
  apply Iff.intro
  · intro ⟨c, t, cs, hc, hcs, hx⟩
    obtain ⟨hs, hletter⟩ := satisfy_eq_ok_iff.1 hc
    obtain ⟨ht, hall, hr⟩ := many_satisfy_eq_ok_iff.1 hcs
    subst hs ht hx
    rw [String.toList_ofList]
    exact ⟨rfl, ⟨hletter, hall⟩, hr⟩
  · intro ⟨hs, hx, hr⟩
    cases hcs : x.toList with
    | nil =>
      rw [hcs] at hx
      exact hx.elim
    | cons c cs =>
      rw [hcs] at hs hx
      refine ⟨c, cs ++ r, cs, satisfy_eq_ok_iff.2 ⟨hs, hx.1⟩,
        many_satisfy_eq_ok_iff.2 ⟨rfl, hx.2, hr⟩, ?_⟩
      rw [← hcs, String.ofList_toList]

/-- Behind its first character a name takes all that can be part of it. -/
theorem run_identifier_cons {c : Char} (hc : Text.isLetter c = true) (t : List Char) :
    identifier.run (c :: t) =
      .ok (String.ofList (c :: t.takeWhile Text.isWordChar)) (t.dropWhile Text.isWordChar) := by
  obtain ⟨ht, hall, hstop⟩ := eq_append_iff.2 ⟨rfl, rfl⟩
  rw [identifier_eq_ok_iff, String.toList_ofList, List.cons_append, ← ht]
  exact ⟨rfl, ⟨hc, hall⟩, hstop⟩

/-! ## §3. Numbers. -/

theorem unsignedInteger_eq_ok_iff {s r : List Char} {d : Decimal} :
    unsignedInteger.run s = .ok d r ↔
      ∃ w, s = w ++ r ∧ w ≠ [] ∧ Digits w ∧ Stops Char.isDigit r ∧
        Decimal.ofInteger? w = some d := by
  rw [unsignedInteger, filterMap_eq_ok_iff]
  apply Iff.intro
  · intro ⟨w, hw, hvalue⟩
    obtain ⟨hs, hne, hdigits, hr⟩ := many1_satisfy_eq_ok_iff.1 hw
    exact ⟨w, hs, hne, hdigits, hr, hvalue⟩
  · intro ⟨w, hs, hne, hdigits, hr, hvalue⟩
    exact ⟨w, many1_satisfy_eq_ok_iff.2 ⟨hs, hne, hdigits, hr⟩, hvalue⟩

theorem unsignedFraction_eq_ok_iff {s r : List Char} {d : Decimal} :
    unsignedFraction.run s = .ok d r ↔
      ∃ w w', s = w ++ '.' :: (w' ++ r) ∧ Digits w ∧ w' ≠ [] ∧ Digits w' ∧
        Stops Char.isDigit r ∧ Decimal.ofFraction? w w' = some d := by
  rw [unsignedFraction, filterMap_eq_ok_iff]
  apply Iff.intro
  · intro ⟨⟨w, w'⟩, hpair, hvalue⟩
    -- digits, the point, digits: taken apart from the outside in
    obtain ⟨t, hfront, hback⟩ := seq_eq_ok_iff.1 hpair
    obtain ⟨t', c, hw, hpoint⟩ := seqLeft_eq_ok_iff.1 hfront
    obtain ⟨hs, hdigits, _⟩ := many_satisfy_eq_ok_iff.1 hw
    obtain ⟨ht', _⟩ := char_eq_ok_iff.1 hpoint
    obtain ⟨ht, hne, hplaces, hr⟩ := many1_satisfy_eq_ok_iff.1 hback
    subst hs ht' ht
    exact ⟨w, w', rfl, hdigits, hne, hplaces, hr, hvalue⟩
  · intro ⟨w, w', hs, hdigits, hne, hplaces, hr, hvalue⟩
    have hpoint : Stops Char.isDigit ('.' :: (w' ++ r)) := stops_cons.2 (by decide)
    have hfront : (digit.many.seqLeft (char '.')).run s = .ok w (w' ++ r) :=
      seqLeft_eq_ok_iff.2 ⟨'.' :: (w' ++ r), '.', many_satisfy_eq_ok_iff.2 ⟨hs, hdigits, hpoint⟩,
        char_eq_ok_iff.2 ⟨rfl, rfl⟩⟩
    exact ⟨(w, w'), seq_eq_ok_iff.2 ⟨w' ++ r, hfront,
      many1_satisfy_eq_ok_iff.2 ⟨rfl, hne, hplaces, hr⟩⟩, hvalue⟩

/-- What is read as a number without a sign is a numeral, and all of its digits are read. -/
theorem numeral_of_unsignedNumber {s r : List Char} {d : Decimal}
    (h : unsignedNumber.run s = .ok d r) :
    ∃ u, s = u ++ r ∧ Numeral u d ∧ Stops Char.isDigit r := by
  -- whether the fraction was refused does not matter: either way all digits are read
  rcases orElse_eq_ok_iff.1 h with hfraction | ⟨_, hinteger⟩
  · obtain ⟨w, w', hs, hw, hne, hw', hr, hvalue⟩ := unsignedFraction_eq_ok_iff.1 hfraction
    exact ⟨w ++ '.' :: w', by rw [hs]; simp, .fraction hw hw' hne hvalue, hr⟩
  · obtain ⟨w, hs, hne, hw, hr, hvalue⟩ := unsignedInteger_eq_ok_iff.1 hinteger
    exact ⟨w, hs, .integer hne hw hvalue, hr⟩

/-- A numeral in front of a text that does not go on with a digit is read back, unless the text
goes on with a point and places: then more is read. -/
theorem run_unsignedNumber_cases {u r : List Char} {d : Decimal} (h : Numeral u d)
    (hr : Stops Char.isDigit r) :
    unsignedNumber.run (u ++ r) = .ok d r ∨
      ∃ d' w r', unsignedNumber.run (u ++ r) = .ok d' r' ∧ r = '.' :: (w ++ r') := by
  cases h with
  | @fraction w w' _ hw hw' hne hvalue =>
    have hrun : unsignedFraction.run (w ++ '.' :: w' ++ r) = .ok d r :=
      unsignedFraction_eq_ok_iff.2 ⟨w, w', by simp, hw, hne, hw', hr, hvalue⟩
    exact .inl (run_orElse_of_ok hrun)
  | integer hne hw hvalue =>
    cases hrun : unsignedFraction.run (u ++ r) with
    | ok d' r' =>
      -- both readings stop at the end of the same run of digits
      obtain ⟨w, w', hs, hdigits, _, _, _, _⟩ := unsignedFraction_eq_ok_iff.1 hrun
      have hpoint : Stops Char.isDigit ('.' :: (w' ++ r')) := stops_cons.2 (by decide)
      have hu := eq_append_iff.1 ⟨rfl, hw, hr⟩
      have hw := eq_append_iff.1 ⟨hs, hdigits, hpoint⟩
      exact .inr ⟨d', w', r', run_orElse_of_ok hrun, hu.2.trans hw.2.symm⟩
    | fail t =>
      have hinteger : unsignedInteger.run (u ++ r) = .ok d r :=
        unsignedInteger_eq_ok_iff.2 ⟨u, rfl, hne, hw, hr, hvalue⟩
      exact .inl ((run_orElse_of_fail hrun).trans hinteger)

/-- A sign that may be missing is read where it stands. -/
theorem optional_char_seqRight_eq_ok_iff {α : Type} {c : Char} {p : Parser α} {s r : List Char}
    {a : α} :
    ((char c).optional.seqRight p).run s = .ok a r ↔
      (∃ t, s = c :: t ∧ p.run t = .ok a r) ∨ s.head? ≠ some c ∧ p.run s = .ok a r := by
  rw [seqRight_eq_ok_iff]
  cases hc : (char c).run s with
  | ok d t =>
    obtain ⟨hs, _⟩ := char_eq_ok_iff.1 hc
    subst hs
    simp [run_optional_of_ok hc]
  | fail t =>
    have hhead : s.head? ≠ some c := by
      intro h
      obtain ⟨t', ht'⟩ := List.head?_eq_some_iff.1 h
      rw [char_eq_ok_iff.2 ⟨ht', rfl⟩] at hc
      cases hc
    rw [run_optional_of_fail hc]
    apply Iff.intro
    · intro ⟨t', d, ht, hp⟩
      cases ht
      exact .inr ⟨hhead, hp⟩
    · intro h
      rcases h with ⟨t', ht', _⟩ | ⟨_, hp⟩
      · rw [ht'] at hhead
        exact absurd rfl hhead
      · exact ⟨s, none, rfl, hp⟩

/-- A number without a sign starts with a digit or with the point. -/
theorem opens_of_unsignedNumber {s r : List Char} {d : Decimal}
    (h : unsignedNumber.run s = .ok d r) : ∃ c t, s = c :: t ∧ (c.isDigit = true ∨ c = '.') := by
  obtain ⟨u, hs, hu, _⟩ := numeral_of_unsignedNumber h
  obtain ⟨c, v, hv, hc⟩ := hu.opens
  exact ⟨c, v ++ r, by rw [hs, hv, List.cons_append], hc⟩

/-- A number without a sign starts with no sign. -/
theorem head_ne_sign_of_unsignedNumber {s r : List Char} {d : Decimal}
    (h : unsignedNumber.run s = .ok d r) : s.head? ≠ some '+' ∧ s.head? ≠ some '-' := by
  obtain ⟨c, t, hs, hc⟩ := opens_of_unsignedNumber h
  have hhead : s.head? = some c := by
    rw [hs]
    rfl
  rw [hhead]
  refine ⟨?_, ?_⟩
  · intro hplus
    cases hplus
    exact absurd hc (by decide)
  · intro hminus
    cases hminus
    exact absurd hc (by decide)

theorem number_eq_ok_iff {s r : List Char} {d : Decimal} :
    number.run s = .ok d r ↔
      unsignedNumber.run s = .ok d r ∨
      (∃ t, s = '+' :: t ∧ unsignedNumber.run t = .ok d r) ∨
      (∃ t d', s = '-' :: t ∧ unsignedNumber.run t = .ok d' r ∧ -d' = d) := by
  apply Iff.intro
  · intro h
    rcases orElse_eq_ok_iff.1 h with hplus | ⟨_, hminus⟩
    · rcases optional_char_seqRight_eq_ok_iff.1 hplus with ⟨t, ht, hrun⟩ | ⟨_, hrun⟩
      · exact .inr (.inl ⟨t, ht, hrun⟩)
      · exact .inl hrun
    · obtain ⟨d', hd', hneg⟩ := map_eq_ok_iff.1 hminus
      obtain ⟨t, c, hc, hrun⟩ := seqRight_eq_ok_iff.1 hd'
      exact .inr (.inr ⟨t, d', (char_eq_ok_iff.1 hc).1, hrun, hneg⟩)
  · intro h
    -- the two alternatives start with different characters, so the first one never hides the second
    rcases h with hrun | ⟨t, ht, hrun⟩ | ⟨t, d', ht, hrun, hneg⟩
    · obtain ⟨hplus, _⟩ := head_ne_sign_of_unsignedNumber hrun
      exact run_orElse_of_ok (optional_char_seqRight_eq_ok_iff.2 (.inr ⟨hplus, hrun⟩))
    · exact run_orElse_of_ok (optional_char_seqRight_eq_ok_iff.2 (.inl ⟨t, ht, hrun⟩))
    · have hminus : (((char '-').seqRight unsignedNumber).map Neg.neg).run s = .ok d r :=
        map_eq_ok_iff.2 ⟨d', seqRight_eq_ok_iff.2 ⟨t, '-', char_eq_ok_iff.2 ⟨ht, rfl⟩, hrun⟩, hneg⟩
      cases hplus : ((char '+').optional.seqRight unsignedNumber).run s with
      | fail u => exact (run_orElse_of_fail hplus).trans hminus
      | ok d'' u =>
        -- without its minus sign the text would have to start with a digit
        rcases optional_char_seqRight_eq_ok_iff.1 hplus with ⟨t', ht', _⟩ | ⟨_, hplain⟩
        · rw [ht] at ht'
          cases ht'
        · rw [ht] at hplain
          exact absurd rfl (head_ne_sign_of_unsignedNumber hplain).2

/-! ## §4. Names and numbers as operands. -/

theorem derives_of_variableRef {s r : List Char} {e : Expr} (h : variableRef.run s = .ok e r) :
    ∃ u, s = u ++ r ∧ Derives .variableRef u e := by
  obtain ⟨x, hx, he⟩ := map_eq_ok_iff.1 h
  obtain ⟨hs, hname, _⟩ := identifier_eq_ok_iff.1 hx
  refine ⟨x.toList, hs, ?_⟩
  have hderives := Derives.name hname
  rw [String.ofList_toList, he] at hderives
  exact hderives

/-- A name is read with all the word characters that follow it. -/
theorem run_variableRef_append {u : List Char} {e : Expr} (h : Derives .variableRef u e)
    (r : List Char) :
    variableRef.run (u ++ r) = .ok (.var (String.ofList (u ++ r.takeWhile Text.isWordChar)))
      (r.dropWhile Text.isWordChar) := by
  cases h with
  | name hname =>
    cases u with
    | nil => exact hname.elim
    | cons c cs =>
      -- the run behind the name goes into its tail
      have hrun := run_identifier_cons hname.1 (cs ++ r)
      rw [List.takeWhile_append_of_pos hname.2, List.dropWhile_append_of_pos hname.2] at hrun
      exact map_eq_ok_iff.2 ⟨_, hrun, rfl⟩
  | operand level _ => cases level
  | link level => cases level

theorem run_variableRef {u r : List Char} {e : Expr} (h : Derives .variableRef u e)
    (hr : Stops Text.isWordChar r) : variableRef.run (u ++ r) = .ok e r := by
  rw [run_variableRef_append h, takeWhile_of_stops hr, dropWhile_of_stops hr, List.append_nil]
  cases h with
  | name _ => rfl
  | operand level _ => cases level
  | link level => cases level

theorem derives_of_literal {s r : List Char} {e : Expr} (h : literal.run s = .ok e r) :
    ∃ u, s = u ++ r ∧ Derives .literal u e := by
  obtain ⟨d, hd, he⟩ := map_eq_ok_iff.1 h
  subst he
  rcases number_eq_ok_iff.1 hd with hrun | ⟨t, ht, hrun⟩ | ⟨t, d', ht, hrun, hneg⟩
  · obtain ⟨u, hs, hu, _⟩ := numeral_of_unsignedNumber hrun
    exact ⟨u, hs, .number hu⟩
  · obtain ⟨u, hs, hu, _⟩ := numeral_of_unsignedNumber hrun
    exact ⟨'+' :: u, by rw [ht, hs]; rfl, .plusNumber hu⟩
  · obtain ⟨u, hs, hu, _⟩ := numeral_of_unsignedNumber hrun
    subst hneg
    exact ⟨'-' :: u, by rw [ht, hs]; rfl, .minusNumber hu⟩

/-- As `run_unsignedNumber_cases`, with a sign or without one. -/
theorem run_literal_cases {u r : List Char} {e : Expr} (h : Derives .literal u e)
    (hr : Stops Char.isDigit r) :
    literal.run (u ++ r) = .ok e r ∨
      ∃ e' w r', literal.run (u ++ r) = .ok e' r' ∧ r = '.' :: (w ++ r') := by
  cases h with
  | number hu =>
    rcases run_unsignedNumber_cases hu hr with hrun | ⟨d', w, r', hrun, hw⟩
    · exact .inl (map_eq_ok_iff.2 ⟨_, number_eq_ok_iff.2 (.inl hrun), rfl⟩)
    · exact .inr ⟨_, w, r', map_eq_ok_iff.2 ⟨d', number_eq_ok_iff.2 (.inl hrun), rfl⟩, hw⟩
  | @plusNumber u d hu =>
    rcases run_unsignedNumber_cases hu hr with hrun | ⟨d', w, r', hrun, hw⟩
    · have hnumber := number_eq_ok_iff.2 (.inr (.inl ⟨u ++ r, rfl, hrun⟩))
      exact .inl (map_eq_ok_iff.2 ⟨_, hnumber, rfl⟩)
    · have hnumber := number_eq_ok_iff.2 (.inr (.inl ⟨u ++ r, rfl, hrun⟩))
      exact .inr ⟨_, w, r', map_eq_ok_iff.2 ⟨d', hnumber, rfl⟩, hw⟩
  | @minusNumber u d hu =>
    rcases run_unsignedNumber_cases hu hr with hrun | ⟨d', w, r', hrun, hw⟩
    · have hnumber := number_eq_ok_iff.2 (.inr (.inr ⟨u ++ r, d, rfl, hrun, rfl⟩))
      exact .inl (map_eq_ok_iff.2 ⟨_, hnumber, rfl⟩)
    · have hnumber := number_eq_ok_iff.2 (.inr (.inr ⟨u ++ r, d', rfl, hrun, rfl⟩))
      exact .inr ⟨_, w, r', map_eq_ok_iff.2 ⟨-d', hnumber, rfl⟩, hw⟩
  | operand level _ => cases level
  | link level => cases level

/-! ## §5. Symbols. -/

theorem symbol_eq_ok_iff {op o : Operator} {s r : List Char} :
    (symbol op).run s = .ok o r ↔ s = op.symbol.toList ++ r ∧ o = op := by
  unfold symbol
  rw [map_eq, map_eq_ok_iff]
  apply Iff.intro
  · intro ⟨x, hx, ho⟩
    exact ⟨(text_eq_ok_iff.1 hx).1, ho.symm⟩
  · intro ⟨hs, ho⟩
    exact ⟨op.symbol, text_eq_ok_iff.2 ⟨hs, rfl⟩, ho.symm⟩

/-- The operator is looked up from the text that was read. -/
theorem ofSymbol?_of_text {op : Operator} {x : String} {s r : List Char}
    (h : (text op.symbol).run s = .ok x r) : Operator.ofSymbol? x = some op := by
  obtain ⟨_, hx⟩ := text_eq_ok_iff.1 h
  rw [hx, Operator.ofSymbol?_symbol]

/-- **Reading a symbol is reading its text and looking the operator up.** -/
theorem symbol_eq_filterMap (op : Operator) :
    symbol op = (text op.symbol).filterMap Operator.ofSymbol? := by
  ext s
  cases hs : (text op.symbol).run s with
  | ok x t => simp [symbol, Parser.filterMap, hs, ofSymbol?_of_text hs]
  | fail t => simp [symbol, Parser.filterMap, hs]

/-- The operators of a level may be looked up behind the choice of their spellings: the lookup
rejects none of these, so it never makes a later spelling be tried. -/
theorem symbolAmong_eq_filterMap (ops : List Operator) :
    symbolAmong ops =
      (choice (ops.map fun op => text op.symbol)).filterMap Operator.ofSymbol? := by
  induction ops with
  | nil => rfl
  | cons op ops ih =>
    show (symbol op).orElse (symbolAmong ops) = _
    rw [symbol_eq_filterMap, ih]
    exact (filterMap_orElse fun _ _ _ hx => ⟨op, ofSymbol?_of_text hx⟩).symm

/-- **The lookup never fails**: a spelling that is read has an operator, and it is one of the
level. -/
theorem ofSymbol?_of_choice {ops : List Operator} {x : String} {s r : List Char}
    (h : (choice (ops.map fun op => text op.symbol)).run s = .ok x r) :
    ∃ op ∈ ops, Operator.ofSymbol? x = some op := by
  obtain ⟨p, hp, hread⟩ := exists_of_choice h
  obtain ⟨op, hmem, htext⟩ := List.mem_map.1 hp
  subst htext
  exact ⟨op, hmem, ofSymbol?_of_text hread⟩

/-- A symbol that is read belongs to one of the operators, and stands at the front. -/
theorem mem_of_symbolAmong {ops : List Operator} {op : Operator} {s r : List Char}
    (h : (symbolAmong ops).run s = .ok op r) : op ∈ ops ∧ s = op.symbol.toList ++ r := by
  obtain ⟨p, hp, hread⟩ := exists_of_choice h
  obtain ⟨op', hmem, hsymbol⟩ := List.mem_map.1 hp
  subst hsymbol
  obtain ⟨hs, hop⟩ := symbol_eq_ok_iff.1 hread
  subst hop
  exact ⟨hmem, hs⟩

theorem symbolAmong_cons_self {ops : List Operator} {op : Operator} {r : List Char} :
    (symbolAmong (op :: ops)).run (op.symbol.toList ++ r) = .ok op r :=
  run_orElse_of_ok (symbol_eq_ok_iff.2 ⟨rfl, rfl⟩)

theorem symbolAmong_cons_of_not_at_front {ops : List Operator} {op : Operator} {s : List Char}
    (h : ¬ op.symbol.toList <+: s) : (symbolAmong (op :: ops)).run s = (symbolAmong ops).run s := by
  cases hop : (symbol op).run s with
  | fail t => exact run_orElse_of_fail hop
  | ok o t =>
    obtain ⟨hs, _⟩ := symbol_eq_ok_iff.1 hop
    exact absurd ⟨t, hs.symm⟩ h

/-- The characters that turn a symbol of one character into a symbol of two. -/
def extendsSymbol (c : Char) : Bool :=
  c == '=' || c == '*'

/-- The symbols, character by character. -/
theorem toList_symbol (op : Operator) :
    op.symbol.toList =
      match op with
      | .add => ['+'] | .sub => ['-'] | .mul => ['*'] | .div => ['/'] | .mod => ['%']
      | .pow => ['*', '*'] | .eq => ['=', '='] | .ne => ['!', '='] | .lt => ['<'] | .gt => ['>']
      | .le => ['<', '='] | .ge => ['>', '='] := by
  cases op <;> rfl

/-- The characters of a symbol are no word characters and no blanks. -/
theorem symbol_spec (op : Operator) :
    ∀ c ∈ op.symbol.toList, Text.isWordChar c = false ∧ Text.isBlank c = false := by
  have hall : (op.symbol.toList.all fun c => !Text.isWordChar c && !Text.isBlank c) = true := by
    rw [toList_symbol]
    cases op <;> decide
  intro c hc
  simpa using List.all_eq_true.1 hall c hc

theorem Spaced.length_pos {op : Operator} {o : List Char} (ho : Spaced op o) : 0 < o.length := by
  obtain ⟨_, _⟩ := ho
  have hsymbol := List.length_pos_iff.2 (symbol_ne_empty op)
  simp only [List.length_append]
  omega

theorem Spaced.not_word {op : Operator} {o : List Char} (ho : Spaced op o) :
    ∀ c ∈ o, Text.isWordChar c = false := by
  obtain ⟨hw, hw'⟩ := ho
  intro c hc
  rcases List.mem_append.1 hc with hc | hc
  · rcases List.mem_append.1 hc with hc | hc
    · exact isWordChar_of_isBlank (hw c hc)
    · exact (symbol_spec op c hc).1
  · exact isWordChar_of_isBlank (hw' c hc)

/-- A word ends in front of an operator. -/
theorem Spaced.stops_isWordChar {op : Operator} {o : List Char} (ho : Spaced op o)
    (r : List Char) : Stops Text.isWordChar (o ++ r) := by
  obtain ⟨c, o', hcons⟩ := List.exists_cons_of_length_pos ho.length_pos
  have hword := ho.not_word c (by rw [hcons]; exact List.mem_cons_self)
  rw [hcons]
  exact stops_cons.2 hword

/-- **Only `<`, `>` and `*` start another symbol.**  In front of a text that does not extend a
symbol, another operator whose symbol stands there too has a shorter symbol, and binds no
tighter. -/
theorem shorter_of_symbol_at_front {op op' : Operator} {r : List Char} (hr : Stops extendsSymbol r)
    (hne : op' ≠ op) (h : op'.symbol.toList <+: op.symbol.toList ++ r) :
    op'.symbol.toList.length < op.symbol.toList.length ∧ op'.precedence ≤ op.precedence := by
  obtain ⟨t, ht⟩ := h
  rw [toList_symbol, toList_symbol] at *
  cases op <;> cases op' <;> simp_all [Operator.precedence]
  -- the second character of `**`, `<=` or `>=` would stand at the front of `r`
  all_goals
    subst ht
    exact absurd (stops_cons.1 hr) (by decide)

/-- Where longer symbols come first, the operator whose symbol stands there is found. -/
theorem run_symbolAmong_of_pairwise {ops : List Operator} {op : Operator} {r : List Char}
    (hlonger : ops.Pairwise fun a b => b.symbol.toList.length ≤ a.symbol.toList.length)
    (hop : op ∈ ops) (hr : Stops extendsSymbol r) :
    (symbolAmong ops).run (op.symbol.toList ++ r) = .ok op r := by
  induction ops with
  | nil => cases hop
  | cons op' ops ih =>
    obtain ⟨hfirst, hrest⟩ := List.pairwise_cons.1 hlonger
    by_cases hne : op' = op
    · subst hne
      exact symbolAmong_cons_self
    · have hmem : op ∈ ops := (List.mem_cons.1 hop).resolve_left (Ne.symm hne)
      -- an earlier symbol that stood there too would be shorter
      have hprefix : ¬ op'.symbol.toList <+: op.symbol.toList ++ r := by
        intro h
        have hlt := (shorter_of_symbol_at_front hr hne h).1
        have hle := hfirst op hmem
        omega
      rw [symbolAmong_cons_of_not_at_front hprefix]
      exact ih hrest hmem

/-- Each level finds its operators. -/
theorem run_symbolAmong {rule operand : Rule} {ops : List Operator} {op : Operator}
    {r : List Char} (level : Level rule ops operand) (hop : op ∈ ops)
    (hr : Stops extendsSymbol r) :
    (symbolAmong ops).run (op.symbol.toList ++ r) = .ok op r := by
  refine run_symbolAmong_of_pairwise ?_ hop hr
  cases level <;> decide

end ExprText.Grammar
