/-
  ExprText.Proofs.Completeness
  ────────────────────────────
  **WHAT IS DERIVED IS READ.**

  A derived text is read back, whole and with its tree, wherever nothing behind
  it can be taken for a part of it:

      Derives rule u e  and  Closed rule.place r
        →  rule.parser.run (u ++ r) = .ok e r              (`run_of_derives`)

  `Closed place r` says that `r` neither goes on with a character of a token nor,
  behind blanks, with an operator of precedence `place` or more.  Looser
  operators may follow: they close every operand on the way to their own level
  (`closed_of_spaced`).

  A level derives its text from the right, and reads it from the left.  The
  induction therefore carries, for every level, what the level makes of the rest
  of a text once the derived part of it is read (`Complete.resumes`).
-/
import ExprText.Proofs.Places
import ExprText.Proofs.Soundness

namespace ExprText.Grammar

open ExprText.Parser

/-! ## §1. Texts that end an operand. -/

/-- The characters that a name or a number may go on with. -/
def continuesToken (c : Char) : Bool :=
  Text.isWordChar c || c == '.'

/-- The text goes on neither with a character of a token nor, behind blanks, with an operator of
precedence `place` or more. -/
structure Closed (place : Nat) (r : List Char) : Prop where
  token : Stops continuesToken r
  operator : ∀ op : Operator, place ≤ op.precedence →
    ¬ op.symbol.toList <+: r.dropWhile Text.isBlank

theorem Closed.mono {place place' : Nat} {r : List Char} (h : Closed place r)
    (hle : place ≤ place') : Closed place' r where
  token := h.token
  operator op hop := h.operator op (Nat.le_trans hle hop)

theorem Stops.mono {isMember isMember' : Char → Bool} {r : List Char} (h : Stops isMember r)
    (himp : ∀ c, isMember' c = true → isMember c = true) : Stops isMember' r := by
  intro c hc
  apply Bool.eq_false_iff.2
  intro hm
  have hfalse := h c hc
  rw [himp c hm] at hfalse
  cases hfalse

theorem Closed.stops_isWordChar {place : Nat} {r : List Char} (h : Closed place r) :
    Stops Text.isWordChar r :=
  h.token.mono fun c hc => by simp [continuesToken, hc]

theorem Closed.stops_isDigit {place : Nat} {r : List Char} (h : Closed place r) :
    Stops Char.isDigit r :=
  h.stops_isWordChar.mono fun _ hc => isWordChar_of_isDigit hc

/-- An operator between blanks leaves what stands in front of it open. -/
theorem Closed.not_spaced {place : Nat} {o t : List Char} {op : Operator}
    (h : Closed place (o ++ t)) (hop : place ≤ op.precedence) : ¬ Spaced op o := by
  intro ho
  obtain ⟨hw, _⟩ := ho
  refine h.operator op hop ?_
  rw [List.append_assoc, List.append_assoc, List.dropWhile_append_of_pos hw,
    dropWhile_of_stops (stops_isBlank_symbol op _)]
  exact List.prefix_append _ _

/-- Blanks neither continue a token nor hide what stands behind them. -/
theorem closed_append {place : Nat} {w r : List Char} (hw : Blanks w) (h : Closed place r) :
    Closed place (w ++ r) where
  token := by
    cases w with
    | nil => exact h.token
    | cons c w =>
      refine stops_cons.2 ?_
      have hblank := hw c List.mem_cons_self
      apply Bool.eq_false_iff.2
      intro hc
      simp only [continuesToken, Bool.or_eq_true, beq_iff_eq] at hc
      rcases hc with hc | hc
      · rw [isBlank_of_isWordChar hc] at hblank
        cases hblank
      · subst hc
        exact absurd hblank (by decide)
  operator op hop := by
    rw [List.dropWhile_append_of_pos hw]
    exact h.operator op hop

theorem closed_nil (place : Nat) : Closed place [] where
  token := stops_nil _
  operator op _ h := symbol_ne_empty op (List.prefix_nil.1 h)

theorem closed_blanks {place : Nat} {w : List Char} (hw : Blanks w) : Closed place w := by
  have h : Closed place (w ++ []) := closed_append hw (closed_nil place)
  rw [List.append_nil] at h
  exact h

theorem closed_parenthesis (place : Nat) (r : List Char) : Closed place (')' :: r) where
  token := stops_cons.2 (by decide)
  operator op _ h := by
    rw [dropWhile_of_stops (stops_cons.2 (by decide)), toList_symbol] at h
    obtain ⟨t, ht⟩ := h
    cases op <;> cases ht

/-- **A looser operator closes its left operand**, if an operand follows it. -/
theorem closed_of_spaced {place : Nat} {op : Operator} {rule : Rule} {o v : List Char} {e : Expr}
    (ho : Spaced op o) (hv : Derives rule v e) (hop : op.precedence < place) (r : List Char) :
    Closed place (o ++ (v ++ r)) := by
  obtain ⟨hw, hw'⟩ := ho
  rw [List.append_assoc, List.append_assoc]
  refine closed_append hw ⟨?_, fun op' hop' h => ?_⟩
  · -- no symbol starts with a character of a token
    rw [toList_symbol]
    cases op <;> exact stops_cons.2 (by decide)
  · -- another operator that could be read there binds no tighter than this one
    rw [dropWhile_of_stops (stops_isBlank_symbol op _)] at h
    have hne : op' ≠ op := by
      intro heq
      subst heq
      omega
    have hle := (shorter_of_symbol_at_front (hv.stops_extendsSymbol hw' r) hne h).2
    omega

/-- A closed text starts with no point, so no number falls back to its integer in front of it. -/
theorem run_literal {place : Nat} {u r : List Char} {e : Expr} (h : Derives .literal u e)
    (hr : Closed place r) : literal.run (u ++ r) = .ok e r := by
  rcases run_literal_cases h hr.stops_isDigit with hrun | ⟨e', w, r', _, hpoint⟩
  · exact hrun
  · have htoken := hr.token
    rw [hpoint, stops_cons] at htoken
    cases htoken

/-! ## §2. The places of the rules. -/

/-- The least precedence of the operators that a text of the rule goes on with.  From the place of
negations on there are no operators, so tighter rules need no place of their own. -/
def Rule.place (rule : Rule) : Nat :=
  min rule.printPlace Expr.negPrecedence

theorem Level.place_eq {rule operand : Rule} {ops : List Operator}
    (level : Level rule ops operand) : operand.place = rule.place + 1 := by
  cases level <;> rfl

/-- The operators of a level have one precedence. -/
theorem Level.precedence_eq {rule operand : Rule} {ops : List Operator} {op : Operator}
    (level : Level rule ops operand) (hop : op ∈ ops) : op.precedence = rule.place := by
  obtain ⟨hprecedence, _, _⟩ := level.printPlace_eq hop
  have hle := op.precedence_le
  unfold Rule.place Expr.negPrecedence
  omega

theorem resume_of_closed {rule operand : Rule} {ops : List Operator} {e : Expr} {r : List Char}
    (level : Level rule ops operand) (hr : Closed rule.place r) :
    resume ops operand e r = .ok e r := by
  cases hlink : (levelLink ops operand).run r with
  | fail t => exact resume_of_fail hlink
  | ok link t =>
    obtain ⟨op, right⟩ := link
    obtain ⟨o, t', hs, hop, ho, _⟩ := spaced_of_link hlink
    subst hs
    have hprecedence := level.precedence_eq hop
    exact absurd ho (hr.not_spaced (by omega))

/-! ## §3. Completeness. -/

/-- The rule reads the text `u` as `e`. -/
structure Complete (rule : Rule) (u : List Char) (e : Expr) : Prop where
  /-- Behind a closed text, this is all that it reads. -/
  exact : ∀ r, Closed rule.place r → rule.parser.run (u ++ r) = .ok e r
  /-- A level goes on with the links that follow, once its last operand is closed. -/
  resumes : ∀ ops operand, Level rule ops operand → ∀ r, Closed operand.place r →
    rule.parser.run (u ++ r) = resume ops operand e r

theorem Complete.of_exact {rule : Rule} {u : List Char} {e : Expr}
    (hrule : ∀ ops operand, ¬ Level rule ops operand)
    (h : ∀ r, Closed rule.place r → rule.parser.run (u ++ r) = .ok e r) : Complete rule u e where
  exact := h
  resumes ops operand level := absurd level (hrule ops operand)

theorem Complete.of_level {rule operand : Rule} {ops : List Operator} {u : List Char} {e : Expr}
    (level : Level rule ops operand)
    (h : ∀ r, Closed operand.place r → rule.parser.run (u ++ r) = resume ops operand e r) :
    Complete rule u e where
  exact r hr := by
    have hplace := level.place_eq
    rw [h r (hr.mono (by omega))]
    exact resume_of_closed level hr
  resumes ops' operand' level' := by
    cases level <;> cases level' <;> exact h

/-- Parentheses are read with all that stands between them, whatever follows. -/
theorem run_primary_of_inner {w u w' r : List Char} {e : Expr} (hw : Blanks w)
    (hu : Derives .relational u e) (hw' : Blanks w')
    (hinner : Rule.relational.parser.run (u ++ (w' ++ ')' :: r)) = .ok e (w' ++ ')' :: r)) :
    Rule.primary.parser.run ('(' :: w ++ u ++ w' ++ [')'] ++ r) = .ok e r := by
  apply primary_eq_ok_iff.2
  refine .inr (.inr (parenthesized_eq_ok_iff.2 ⟨w, _, w', ?_, hw, hu.stops_isBlank _, hinner, hw'⟩))
  simp

theorem complete_of_derives {rule : Rule} {u : List Char} {e : Expr} (h : Derives rule u e) :
    Complete rule u e := by
  induction h with
  | name hname =>
    exact .of_exact nofun fun r hr => run_variableRef (.name hname) hr.stops_isWordChar
  | number hu => exact .of_exact nofun fun r hr => run_literal (.number hu) hr
  | plusNumber hu => exact .of_exact nofun fun r hr => run_literal (.plusNumber hu) hr
  | minusNumber hu => exact .of_exact nofun fun r hr => run_literal (.minusNumber hu) hr
  | variableRef _ ih =>
    exact .of_exact nofun fun r hr => primary_eq_ok_iff.2 (.inl (ih.exact r hr))
  | literal _ ih =>
    exact .of_exact nofun fun r hr => primary_eq_ok_iff.2 (.inr (.inl (ih.exact r hr)))
  | @parens w u w' e hw hu hw' ih =>
    refine .of_exact nofun fun r _ => run_primary_of_inner hw hu hw' ?_
    -- the closing parenthesis closes what stands inside
    exact ih.exact _ (closed_append hw' (closed_parenthesis _ r))
  | @neg u e _ ih =>
    refine .of_exact nofun fun r hr => ?_
    exact unary_eq_ok_iff.2 (.inl ⟨u ++ r, e, rfl, ih.exact r hr, rfl⟩)
  | @plus u e _ ih =>
    refine .of_exact nofun fun r hr => ?_
    exact unary_eq_ok_iff.2 (.inr (.inl ⟨u ++ r, rfl, ih.exact r hr⟩))
  | plain hu hminus ih =>
    exact .of_exact nofun fun r hr => run_unary_of_primary hu.ne_nil hminus (ih.exact r hr)
  | @base u e _ ih =>
    refine .of_exact nofun fun r hr => ?_
    refine exponential_eq_ok_iff.2 ⟨e, r, ih.exact r (hr.mono (by decide)), .inr ⟨?_, rfl, rfl⟩⟩
    -- no exponent follows, since the text behind is closed
    intro exponent r' hlink
    obtain ⟨o, t, hs, ho, _⟩ := spaced_of_powerLink hlink
    subst hs
    exact absurd ho (hr.not_spaced (by decide))
  | @power u o v base exponent _ ho hv ihbase ihexponent =>
    refine .of_exact nofun fun r hr => ?_
    have hbase := ihbase.exact (o ++ (v ++ r)) (closed_of_spaced ho hv (by decide) r)
    have hlink := powerLink_of_spaced ho hv (ihexponent.exact r hr)
    have hrun := exponential_eq_ok_iff.2 ⟨base, _, hbase, .inl ⟨exponent, hlink, rfl⟩⟩
    simpa using hrun
  | operand level _ ih => exact .of_level level fun r hr => run_level level (ih.exact r hr)
  | @link rule operand ops op u o v left right level hop _ ho hv ihleft ihright =>
    refine .of_level level fun r hr => ?_
    have hprecedence := level.precedence_eq hop
    have hplace := level.place_eq
    -- the left operand is read up to its operator, and the level goes on with the link
    have hleft := ihleft.resumes ops operand level (o ++ (v ++ r))
      (closed_of_spaced ho hv (by omega) r)
    rw [resume_of_link (link_of_spaced level hop ho hv (ihright.exact r hr))] at hleft
    simpa using hleft
  | expression _ ih =>
    refine .of_exact nofun fun r hr => ?_
    rw [parser_expression_eq]
    exact ih.exact r hr

/-- **What the grammar derives is read back**, with its tree, up to a text that closes it. -/
theorem run_of_derives {rule : Rule} {u r : List Char} {e : Expr} (h : Derives rule u e)
    (hr : Closed rule.place r) : rule.parser.run (u ++ r) = .ok e r :=
  (complete_of_derives h).exact r hr

theorem run_eq_ok_nil_iff {rule : Rule} {u : List Char} {e : Expr} :
    rule.parser.run u = .ok e [] ↔ Derives rule u e := by
  apply Iff.intro
  · intro h
    obtain ⟨u', hu', hderives⟩ := derives_of_run h
    rw [List.append_nil] at hu'
    rw [hu']
    exact hderives
  · intro h
    have hrun := run_of_derives h (closed_nil rule.place)
    rw [List.append_nil] at hrun
    exact hrun

/-- A text in parentheses is read back in front of any text at all. -/
theorem run_primary_parens {w u w' : List Char} {e : Expr} (hw : Blanks w)
    (hu : Derives .relational u e) (hw' : Blanks w') (r : List Char) :
    Rule.primary.parser.run ('(' :: w ++ u ++ w' ++ [')'] ++ r) = .ok e r :=
  run_primary_of_inner hw hu hw'
    (run_of_derives hu (closed_append hw' (closed_parenthesis _ r)))

/-- **The grammar is unambiguous.** -/
theorem Derives.unique {rule : Rule} {u : List Char} {e e' : Expr} (h : Derives rule u e)
    (h' : Derives rule u e') : e = e' := by
  have hrun := run_eq_ok_nil_iff.2 h
  rw [run_eq_ok_nil_iff.2 h'] at hrun
  cases hrun
  rfl

end ExprText.Grammar
