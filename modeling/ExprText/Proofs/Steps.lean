/-
  ExprText.Proofs.Steps
  ─────────────────────
  **ONE STEP OF EACH RULE.**

  What a rule of expressions replies, in terms of the rules that it is made of.
  The recursion is gone from these statements: a level is an operand and the
  repetition of its links, a power is a base and perhaps an exponent.

      level        =  operand, then as many links as there are   (`run_level`)
      link         =  a spaced symbol, then an operand           (`link_eq_ok_iff`)
      exponential  =  unary, then perhaps `**` and an exponent   (`exponential_eq_ok_iff`)
      primary      =  a name, a number, or parentheses           (`primary_eq_ok_iff`)
      unary        =  one of three forms, by the first character (`unary_eq_ok_iff`)
-/
import ExprText.Grammar.SinglePass
import ExprText.Parser.Exclusive
import ExprText.Proofs.Lexemes

namespace ExprText.Grammar

open ExprText.Parser

/-! ## §1. Levels. -/

theorem Level.parser_eq {rule operand : Rule} {ops : List Operator}
    (level : Level rule ops operand) :
    rule.parser = SinglePass.leftAssoc (symbolAmong ops) operand.parser := by
  have hleft := SinglePass.leftAssoc_eq (regular_symbolAmong ops) (consuming_symbolAmong ops)
    operand.regular_parser
  rw [hleft]
  cases level <;> rfl

/-- The links that a level repeats. -/
def levelLink (ops : List Operator) (operand : Rule) : Parser (Operator × Expr) :=
  link (symbolAmong ops) operand.parser

/-- What a level makes of a first operand `e` in front of the text `t`. -/
def resume (ops : List Operator) (operand : Rule) (e : Expr) (t : List Char) : Reply Expr :=
  .ok (foldLinks e ((levelLink ops operand).repeated t).1) ((levelLink ops operand).repeated t).2

/-- A level reads an operand and goes on with links. -/
theorem run_level {rule operand : Rule} {ops : List Operator} (level : Level rule ops operand)
    {s t : List Char} {e : Expr} (h : operand.parser.run s = .ok e t) :
    rule.parser.run s = resume ops operand e t := by
  rw [level.parser_eq]
  exact bindWith_eq_ok_iff.2 ⟨e, t, _, h, rfl, rfl⟩

theorem exists_of_run_level {rule operand : Rule} {ops : List Operator}
    (level : Level rule ops operand) {s r : List Char} {e : Expr}
    (h : rule.parser.run s = .ok e r) :
    ∃ first t, operand.parser.run s = .ok first t ∧ resume ops operand first t = .ok e r := by
  cases hfirst : operand.parser.run s with
  | ok first t => exact ⟨first, t, rfl, (run_level level hfirst).symm.trans h⟩
  | fail t =>
    rw [level.parser_eq] at h
    obtain ⟨first, t', _, hrun, _⟩ := bindWith_eq_ok_iff.1 h
    rw [hfirst] at hrun
    cases hrun

/-- One link more: it goes into the tree, and the level goes on behind it. -/
theorem resume_of_link {ops : List Operator} {operand : Rule} {op : Operator}
    {e right : Expr} {s t : List Char} (h : (levelLink ops operand).run s = .ok (op, right) t) :
    resume ops operand e s = resume ops operand (.bin op e right) t := by
  have hconsuming := consuming_link (consuming_symbolAmong ops) operand.regular_parser
  have hlt := hconsuming s (op, right) t h
  unfold resume
  rw [repeated_of_progress h hlt]
  rfl

/-- No link: the level ends. -/
theorem resume_of_fail {ops : List Operator} {operand : Rule} {e : Expr} {s t : List Char}
    (h : (levelLink ops operand).run s = .fail t) : resume ops operand e s = .ok e s := by
  unfold resume
  rw [repeated_of_fail h]
  rfl

/-- However many links follow, a level leaves a suffix. -/
theorem exists_resume {ops : List Operator} (operand : Rule) (e : Expr) (t : List Char) :
    ∃ e' r, resume ops operand e t = .ok e' r ∧ r <:+ t :=
  ⟨_, _, rfl, repeated_suffix (regular_link (regular_symbolAmong ops) operand.regular_parser) t⟩

/-! ## §2. Links. -/

theorem link_eq_ok_iff {operator : Parser Operator} {operand : Parser Expr} {s r : List Char}
    {op : Operator} {e : Expr} :
    (link operator operand).run s = .ok (op, e) r ↔
      ∃ w t w' t', s = w ++ t ∧ Blanks w ∧ Stops Text.isBlank t ∧
        operator.run t = .ok op (w' ++ t') ∧ Blanks w' ∧ Stops Text.isBlank t' ∧
        operand.run t' = .ok e r := by
  unfold link
  rw [seq_eq_ok_iff]
  apply Iff.intro
  · intro ⟨t', hfront, hoperand⟩
    -- blanks, the symbol, blanks and the operand: taken apart from the outside in
    obtain ⟨u, x', hop, hx'⟩ := seqLeft_eq_ok_iff.1 hfront
    obtain ⟨t, x, hx, hop⟩ := seqRight_eq_ok_iff.1 hop
    obtain ⟨hs, hw, ht⟩ := spaces_eq_ok_iff.1 hx
    obtain ⟨hu, hw', ht'⟩ := spaces_eq_ok_iff.1 hx'
    rw [hu] at hop
    exact ⟨x.toList, t, x'.toList, t', hs, hw, ht, hop, hw', ht', hoperand⟩
  · intro ⟨w, t, w', t', hs, hw, ht, hop, hw', ht', hoperand⟩
    subst hs
    have hfront := seqRight_eq_ok_iff.2 ⟨t, _, run_spaces_append hw ht, hop⟩
    exact ⟨t', seqLeft_eq_ok_iff.2 ⟨w' ++ t', _, hfront, run_spaces_append hw' ht'⟩, hoperand⟩

/-- What a link reads is a spaced symbol of its level and an operand. -/
theorem spaced_of_link {ops : List Operator} {operand : Rule} {s r : List Char} {op : Operator}
    {e : Expr} (h : (levelLink ops operand).run s = .ok (op, e) r) :
    ∃ o t, s = o ++ t ∧ op ∈ ops ∧ Spaced op o ∧ operand.parser.run t = .ok e r := by
  obtain ⟨w, t, w', t', hs, hw, _, hop, hw', _, hoperand⟩ := link_eq_ok_iff.1 h
  obtain ⟨hmem, ht⟩ := mem_of_symbolAmong hop
  subst hs ht
  exact ⟨w ++ op.symbol.toList ++ w', t', by simp, hmem, .intro hw hw', hoperand⟩

/-- A symbol is not extended by what is derived behind it, with blanks in between or not. -/
theorem Derives.stops_extendsSymbol {rule : Rule} {w v : List Char} {e : Expr}
    (h : Derives rule v e) (hw : Blanks w) (r : List Char) :
    Stops extendsSymbol (w ++ (v ++ r)) := by
  cases w with
  | nil =>
    obtain ⟨c, v', hv, hc⟩ := h.opens
    have hspec := opensOperand_spec hc
    subst hv
    rw [List.nil_append, List.cons_append, stops_cons]
    simp [extendsSymbol, hspec.2.1, hspec.2.2]
  | cons d w =>
    rw [List.cons_append, stops_cons]
    have hblank := hw d List.mem_cons_self
    apply Bool.eq_false_iff.2
    intro hd
    -- neither character is a blank
    simp only [extendsSymbol, Bool.or_eq_true, beq_iff_eq] at hd
    rcases hd with hd | hd <;>
    · subst hd
      exact absurd hblank (by decide)

/-- A derived text is where the blanks in front of it stop. -/
theorem Derives.stops_isBlank {rule : Rule} {u : List Char} {e : Expr} (h : Derives rule u e)
    (r : List Char) : Stops Text.isBlank (u ++ r) := by
  obtain ⟨c, v, hv, hc⟩ := h.opens
  subst hv
  exact stops_cons.2 (opensOperand_spec hc).1

theorem stops_isBlank_symbol (op : Operator) (r : List Char) :
    Stops Text.isBlank (op.symbol.toList ++ r) := by
  rw [toList_symbol]
  cases op <;> exact stops_cons.2 (by decide)

/-- A spaced symbol of the level and a derived operand are read as a link, however much of the
text is read as the operand. -/
theorem link_of_spaced {rule operand : Rule} {ops : List Operator} {op : Operator}
    {o v r t : List Char} {e e' : Expr} (level : Level rule ops operand) (hop : op ∈ ops)
    (ho : Spaced op o) (hv : Derives operand v e) (hrun : operand.parser.run (v ++ r) = .ok e' t) :
    (levelLink ops operand).run (o ++ (v ++ r)) = .ok (op, e') t := by
  obtain ⟨hw, hw'⟩ := ho
  refine link_eq_ok_iff.2 ⟨_, _, _, v ++ r, ?_, hw, stops_isBlank_symbol op _,
    run_symbolAmong level hop (hv.stops_extendsSymbol hw' r), hw', hv.stops_isBlank r, hrun⟩
  simp

/-! ## §3. Powers. -/

theorem exponential_eq :
    Rule.exponential.parser =
      Rule.unary.parser.bindWith (fun _ => (SinglePass.exponent Rule.exponential.parser).optional)
        SinglePass.joinPower := by
  have hback : Rule.exponential.parser =
      (power Rule.unary.parser Rule.exponential.parser).orElse Rule.unary.parser :=
    rightAssoc_eq Rule.unary.regular_parser
  exact hback.trans
    (SinglePass.power_orElse_eq (SinglePass.backtracking_unaryOf _) Rule.exponential.parser)

/-- The symbol of the power and the exponent behind it. -/
def powerLink : Parser (Operator × Expr) :=
  link (symbol .pow) Rule.exponential.parser

/-- An exponent is read as a link whose only operator is the power. -/
theorem exponent_eq_ok_iff {s r : List Char} {e : Expr} :
    (SinglePass.exponent Rule.exponential.parser).run s = .ok e r ↔
      powerLink.run s = .ok (.pow, e) r := by
  unfold SinglePass.exponent powerLink link
  rw [seq_eq_ok_iff, seqRight_eq, seqRight_eq_ok_iff]
  apply Iff.intro
  · intro ⟨t, x', hfront, hself⟩
    obtain ⟨u, op, hop, hx'⟩ := seqRight_eq_ok_iff.1 hfront
    obtain ⟨t', x, hx, hop⟩ := seqRight_eq_ok_iff.1 hop
    have hpow := (symbol_eq_ok_iff.1 hop).2
    subst hpow
    exact ⟨t, seqLeft_eq_ok_iff.2 ⟨u, x', seqRight_eq_ok_iff.2 ⟨t', x, hx, hop⟩, hx'⟩, hself⟩
  · intro ⟨t, hfront, hself⟩
    obtain ⟨u, x', hop, hx'⟩ := seqLeft_eq_ok_iff.1 hfront
    exact ⟨t, x', seqRight_eq_ok_iff.2 ⟨u, .pow, hop, hx'⟩, hself⟩

/-- A power is a base, and an exponent if one follows. -/
theorem exponential_eq_ok_iff {s r : List Char} {e : Expr} :
    Rule.exponential.parser.run s = .ok e r ↔
      ∃ base t, Rule.unary.parser.run s = .ok base t ∧
        ((∃ exponent, powerLink.run t = .ok (.pow, exponent) r ∧ .bin .pow base exponent = e) ∨
          (∀ exponent r', powerLink.run t ≠ .ok (.pow, exponent) r') ∧ base = e ∧ t = r) := by
  have hrun := congrArg (fun p => p.run s = .ok e r) exponential_eq
  rw [hrun, bindWith_eq_ok_iff]
  apply Iff.intro
  · intro ⟨base, t, exponent, hbase, hexponent, he⟩
    refine ⟨base, t, hbase, ?_⟩
    -- the exponent is optional: it is there exactly if a link is read
    cases hlink : (SinglePass.exponent Rule.exponential.parser).run t with
    | ok e' r' =>
      rw [run_optional_of_ok hlink] at hexponent
      cases hexponent
      exact .inl ⟨e', exponent_eq_ok_iff.1 hlink, he⟩
    | fail r' =>
      rw [run_optional_of_fail hlink] at hexponent
      cases hexponent
      refine .inr ⟨fun e' r'' h => ?_, he, rfl⟩
      rw [← exponent_eq_ok_iff, hlink] at h
      cases h
  · intro ⟨base, t, hbase, h⟩
    rcases h with ⟨exponent, hlink, he⟩ | ⟨hnone, he, ht⟩
    · exact ⟨base, t, some exponent, hbase,
        run_optional_of_ok (exponent_eq_ok_iff.2 hlink), he⟩
    · subst ht
      cases hlink : (SinglePass.exponent Rule.exponential.parser).run t with
      | ok e' r' => exact absurd (exponent_eq_ok_iff.1 hlink) (hnone e' r')
      | fail r' => exact ⟨base, t, none, hbase, run_optional_of_fail hlink, he⟩

/-- Whatever follows its base, a power is read, and leaves a suffix. -/
theorem exists_run_exponential {s t : List Char} {base : Expr}
    (h : Rule.unary.parser.run s = .ok base t) :
    ∃ e r, Rule.exponential.parser.run s = .ok e r ∧ r <:+ t := by
  by_cases hlink : ∃ exponent r, powerLink.run t = .ok (.pow, exponent) r
  · obtain ⟨exponent, r, hlink⟩ := hlink
    have hregular := regular_link (regular_symbol .pow) Rule.exponential.regular_parser
    exact ⟨.bin .pow base exponent, r,
      exponential_eq_ok_iff.2 ⟨base, t, h, .inl ⟨exponent, hlink, rfl⟩⟩, hregular.suffix hlink⟩
  · refine ⟨base, t, exponential_eq_ok_iff.2 ⟨base, t, h, .inr ⟨?_, rfl, rfl⟩⟩, List.suffix_refl t⟩
    intro exponent r hrun
    exact hlink ⟨exponent, r, hrun⟩

/-- What a power link reads is a spaced `**` and an exponent. -/
theorem spaced_of_powerLink {s r : List Char} {e : Expr} (h : powerLink.run s = .ok (.pow, e) r) :
    ∃ o t, s = o ++ t ∧ Spaced .pow o ∧ Rule.exponential.parser.run t = .ok e r := by
  obtain ⟨w, t, w', t', hs, hw, _, hop, hw', _, hoperand⟩ := link_eq_ok_iff.1 h
  obtain ⟨ht, _⟩ := symbol_eq_ok_iff.1 hop
  subst hs ht
  exact ⟨w ++ Operator.pow.symbol.toList ++ w', t', by simp, .intro hw hw', hoperand⟩

theorem powerLink_of_spaced {o v r t : List Char} {e e' : Expr} (ho : Spaced .pow o)
    (hv : Derives .exponential v e) (hrun : Rule.exponential.parser.run (v ++ r) = .ok e' t) :
    powerLink.run (o ++ (v ++ r)) = .ok (.pow, e') t := by
  obtain ⟨hw, hw'⟩ := ho
  refine link_eq_ok_iff.2 ⟨_, _, _, v ++ r, ?_, hw, stops_isBlank_symbol .pow _,
    symbol_eq_ok_iff.2 ⟨rfl, rfl⟩, hw', hv.stops_isBlank r, hrun⟩
  simp

/-! ## §4. Primaries. -/

theorem parenthesized_eq_ok_iff {nested : Parser Expr} {s r : List Char} {e : Expr} :
    (parenthesized nested).run s = .ok e r ↔
      ∃ w t w', s = '(' :: (w ++ t) ∧ Blanks w ∧ Stops Text.isBlank t ∧
        nested.run t = .ok e (w' ++ ')' :: r) ∧ Blanks w' := by
  have hstop : Stops Text.isBlank (')' :: r) := stops_cons.2 (by decide)
  unfold parenthesized
  apply Iff.intro
  · intro h
    obtain ⟨t4, c', h4, hclose⟩ := seqLeft_eq_ok_iff.1 h
    obtain ⟨t3, x', h3, hx'⟩ := seqLeft_eq_ok_iff.1 h4
    obtain ⟨t2, x, h2, hnested⟩ := seqRight_eq_ok_iff.1 h3
    obtain ⟨t1, c, hopen, hx⟩ := seqRight_eq_ok_iff.1 h2
    obtain ⟨hs, _⟩ := char_eq_ok_iff.1 hopen
    obtain ⟨ht1, hw, ht2⟩ := spaces_eq_ok_iff.1 hx
    obtain ⟨ht3, hw', _⟩ := spaces_eq_ok_iff.1 hx'
    obtain ⟨ht4, _⟩ := char_eq_ok_iff.1 hclose
    subst hs ht1 ht4
    rw [ht3] at hnested
    exact ⟨x.toList, t2, x'.toList, rfl, hw, ht2, hnested, hw'⟩
  · intro ⟨w, t, w', hs, hw, ht, hnested, hw'⟩
    subst hs
    have hopen := seqRight_eq_ok_iff.2 ⟨w ++ t, '(', char_eq_ok_iff.2 ⟨rfl, rfl⟩,
      run_spaces_append hw ht⟩
    have hinner := seqRight_eq_ok_iff.2 ⟨t, _, hopen, hnested⟩
    have hblank := seqLeft_eq_ok_iff.2 ⟨_, _, hinner, run_spaces_append hw' hstop⟩
    exact seqLeft_eq_ok_iff.2 ⟨')' :: r, ')', hblank, char_eq_ok_iff.2 ⟨rfl, rfl⟩⟩

/-- The expressions inside parentheses are relational texts. -/
theorem parser_expression_eq : Rule.expression.parser = Rule.relational.parser :=
  expression_eq

/-- The characters that a number can start with. -/
def opensNumber (c : Char) : Bool :=
  c.isDigit || c == '.' || c == '+' || c == '-'

theorem isLetter_of_variableRef {s r : List Char} {e : Expr} (h : variableRef.run s = .ok e r) :
    ∃ c t, s = c :: t ∧ Text.isLetter c = true := by
  obtain ⟨x, hx, _⟩ := map_eq_ok_iff.1 h
  obtain ⟨hs, hname, _⟩ := identifier_eq_ok_iff.1 hx
  cases hcs : x.toList with
  | nil =>
    rw [hcs] at hname
    exact hname.elim
  | cons c cs =>
    rw [hcs] at hs hname
    exact ⟨c, cs ++ r, hs, hname.1⟩

theorem opensNumber_of_literal {s r : List Char} {e : Expr} (h : literal.run s = .ok e r) :
    ∃ c t, s = c :: t ∧ opensNumber c = true := by
  obtain ⟨d, hd, _⟩ := map_eq_ok_iff.1 h
  rcases number_eq_ok_iff.1 hd with hrun | ⟨t, ht, _⟩ | ⟨t, _, ht, _⟩
  · obtain ⟨c, t, hs, hc⟩ := opens_of_unsignedNumber hrun
    refine ⟨c, t, hs, ?_⟩
    rcases hc with hc | hc <;> simp [opensNumber, hc]
  · exact ⟨'+', t, ht, by decide⟩
  · exact ⟨'-', t, ht, by decide⟩

theorem opensNumber_of_isLetter {c : Char} (h : Text.isLetter c = true) :
    opensNumber c = false := by
  obtain ⟨hlow, _⟩ := toNat_of_isLetter h
  apply Bool.eq_false_iff.2
  intro hn
  -- digits, the point and the signs stand in front of the letters
  simp only [opensNumber, Bool.or_eq_true, beq_iff_eq] at hn
  rcases hn with ((hdigit | rfl) | rfl) | rfl
  · obtain ⟨_, hhigh⟩ := Char.isDigit_iff_toNat.1 hdigit
    have h9 : '9'.toNat = 57 := rfl
    omega
  all_goals exact absurd hlow (by decide)

/-- The alternatives of a primary text, in the order in which they are tried. -/
def primaryAlternatives (nested : Parser Expr) : List (Parser Expr) :=
  [variableRef, literal, parenthesized nested]

theorem primaryOf_eq_choice (nested : Parser Expr) :
    primaryOf nested = choice (primaryAlternatives nested) := by
  have hlast : Backtracking (parenthesized nested) := backtracking_seqLeft _ _
  show _ = variableRef.orElse (literal.orElse ((parenthesized nested).orElse Parser.failure))
  rw [hlast.orElse_failure]
  rfl

/-- **The alternatives of a primary text exclude each other**: their first characters differ. -/
theorem exclusive_primaryAlternatives (nested : Parser Expr) :
    (primaryAlternatives nested).Pairwise Exclusive := by
  have hname : variableRef.OpensWith Text.isLetter :=
    fun _ _ _ h => isLetter_of_variableRef h
  have hnumber : literal.OpensWith opensNumber :=
    fun _ _ _ h => opensNumber_of_literal h
  have hparens : (parenthesized nested).OpensWith (· == '(') := by
    intro s e r h
    obtain ⟨w, t, _, hs, _⟩ := parenthesized_eq_ok_iff.1 h
    exact ⟨'(', w ++ t, hs, by decide⟩
  simp only [primaryAlternatives, List.pairwise_cons, List.forall_mem_cons]
  refine ⟨⟨?_, ?_, List.forall_mem_nil _⟩, ⟨?_, List.forall_mem_nil _⟩, List.forall_mem_nil _, .nil⟩
  · exact hname.exclusive hnumber fun _ hc => opensNumber_of_isLetter hc
  -- a parenthesis is no letter, and no number starts with one
  · exact hname.exclusive_of_char hparens (by decide)
  · exact hnumber.exclusive_of_char hparens (by decide)

/-- A primary text is read by one of its alternatives. -/
theorem primary_eq_ok_iff {s r : List Char} {e : Expr} :
    Rule.primary.parser.run s = .ok e r ↔
      variableRef.run s = .ok e r ∨ literal.run s = .ok e r ∨
        (parenthesized Rule.relational.parser).run s = .ok e r := by
  have hnested : Rule.primary.parser = choice (primaryAlternatives Rule.relational.parser) := by
    rw [← parser_expression_eq, ← primaryOf_eq_choice]
    rfl
  rw [hnested, choice_eq_ok_iff (exclusive_primaryAlternatives _)]
  simp [primaryAlternatives]

/-! ## §5. Signs. -/

/-- A number that starts with a minus sign goes on with a number. -/
theorem primary_of_minus {t r : List Char} {e : Expr}
    (h : Rule.primary.parser.run ('-' :: t) = .ok e r) :
    ∃ operand, Rule.primary.parser.run t = .ok operand r := by
  rcases primary_eq_ok_iff.1 h with hname | hliteral | hparens
  · obtain ⟨c, t', hs, hc⟩ := isLetter_of_variableRef hname
    cases hs
    exact absurd hc (by decide)
  · obtain ⟨d, hd, _⟩ := map_eq_ok_iff.1 hliteral
    rcases number_eq_ok_iff.1 hd with hrun | ⟨t', ht', _⟩ | ⟨t', d', ht', hrun, _⟩
    · exact absurd rfl (head_ne_sign_of_unsignedNumber hrun).2
    · cases ht'
    · cases ht'
      have hnumber : literal.run t = .ok (.const d') r :=
        map_eq_ok_iff.2 ⟨d', number_eq_ok_iff.2 (.inl hrun), rfl⟩
      exact ⟨.const d', primary_eq_ok_iff.2 (.inr (.inl hnumber))⟩
  · obtain ⟨_, _, _, hs, _⟩ := parenthesized_eq_ok_iff.1 hparens
    cases hs

/-- A number that starts with a plus sign is the number behind the sign. -/
theorem primary_of_plus {t r : List Char} {e : Expr}
    (h : Rule.primary.parser.run ('+' :: t) = .ok e r) : Rule.primary.parser.run t = .ok e r := by
  rcases primary_eq_ok_iff.1 h with hname | hliteral | hparens
  · obtain ⟨c, t', hs, hc⟩ := isLetter_of_variableRef hname
    cases hs
    exact absurd hc (by decide)
  · obtain ⟨d, hd, he⟩ := map_eq_ok_iff.1 hliteral
    rcases number_eq_ok_iff.1 hd with hrun | ⟨t', ht', hrun⟩ | ⟨t', _, ht', _⟩
    · exact absurd rfl (head_ne_sign_of_unsignedNumber hrun).1
    · cases ht'
      have hnumber : literal.run t = .ok e r :=
        map_eq_ok_iff.2 ⟨d, number_eq_ok_iff.2 (.inl hrun), he⟩
      exact primary_eq_ok_iff.2 (.inr (.inl hnumber))
    · cases ht'
  · obtain ⟨_, _, _, hs, _⟩ := parenthesized_eq_ok_iff.1 hparens
    cases hs

/-- The first character says which form a unary text has. -/
theorem unary_eq_ok_iff {s r : List Char} {e : Expr} :
    Rule.unary.parser.run s = .ok e r ↔
      (∃ t operand, s = '-' :: t ∧ Rule.primary.parser.run t = .ok operand r ∧ .neg operand = e) ∨
      (∃ t, s = '+' :: t ∧ Rule.primary.parser.run t = .ok e r) ∨
      (s.head? ≠ some '-' ∧ s.head? ≠ some '+' ∧ Rule.primary.parser.run s = .ok e r) := by
  have hrun : Rule.unary.parser =
      (((char '-').seqRight Rule.primary.parser).map Expr.neg).orElse
        ((char '+').optional.seqRight Rule.primary.parser) := rfl
  have hneg : ∀ e r, (((char '-').seqRight Rule.primary.parser).map Expr.neg).run s = .ok e r ↔
      ∃ t operand, s = '-' :: t ∧ Rule.primary.parser.run t = .ok operand r ∧ .neg operand = e := by
    intro e r
    rw [map_eq_ok_iff]
    apply Iff.intro
    · intro ⟨operand, h, he⟩
      obtain ⟨t, c, hc, hoperand⟩ := seqRight_eq_ok_iff.1 h
      exact ⟨t, operand, (char_eq_ok_iff.1 hc).1, hoperand, he⟩
    · intro ⟨t, operand, hs, hoperand, he⟩
      exact ⟨operand, seqRight_eq_ok_iff.2 ⟨t, '-', char_eq_ok_iff.2 ⟨hs, rfl⟩, hoperand⟩, he⟩
  rw [hrun, orElse_eq_ok_iff, hneg, optional_char_seqRight_eq_ok_iff]
  refine or_congr_right ?_
  apply Iff.intro
  · intro ⟨⟨u, hfail⟩, h⟩
    rcases h with hplus | ⟨hhead, hplain⟩
    · exact .inl hplus
    · refine .inr ⟨fun hminus => ?_, hhead, hplain⟩
      -- behind the minus sign a primary text would follow, and the first form would succeed
      obtain ⟨t, hs⟩ := List.head?_eq_some_iff.1 hminus
      rw [hs] at hplain
      obtain ⟨operand, hoperand⟩ := primary_of_minus hplain
      have hok := (hneg (.neg operand) r).2 ⟨t, operand, hs, hoperand, rfl⟩
      rw [hfail] at hok
      cases hok
  · intro h
    -- a text that starts otherwise is not read by the first form
    have hminus : s.head? ≠ some '-' := by
      rcases h with ⟨t, hs, _⟩ | ⟨hminus, _⟩
      · rw [hs]
        simp
      · exact hminus
    refine ⟨?_, h.imp_right fun h => h.2⟩
    cases hfirst : (((char '-').seqRight Rule.primary.parser).map Expr.neg).run s with
    | fail u => exact ⟨u, rfl⟩
    | ok e' r' =>
      obtain ⟨t, _, hs, _⟩ := (hneg e' r').1 hfirst
      rw [hs] at hminus
      exact absurd rfl hminus

/-- Without a minus sign a primary text is read as a unary text, be it with a plus sign or not. -/
theorem run_unary_of_primary {u r r' : List Char} {e : Expr} (hne : u ≠ [])
    (hminus : u.head? ≠ some '-') (h : Rule.primary.parser.run (u ++ r) = .ok e r') :
    Rule.unary.parser.run (u ++ r) = .ok e r' := by
  cases u with
  | nil => exact absurd rfl hne
  | cons c v =>
    by_cases hplus : c = '+'
    · -- the plus sign of a number is taken for the sign of the operand
      subst hplus
      exact unary_eq_ok_iff.2 (.inr (.inl ⟨v ++ r, rfl, primary_of_plus h⟩))
    · refine unary_eq_ok_iff.2 (.inr (.inr ⟨hminus, ?_, h⟩))
      simpa using hplus

end ExprText.Grammar
