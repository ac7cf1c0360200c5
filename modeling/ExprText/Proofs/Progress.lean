/-
  ExprText.Proofs.Progress
  ────────────────────────
  **EVERY EVALUATION COMES TO AN END.**

  A rule that is being evaluated may be called again, from inside parentheses, from
  its exponent, or as the tail of a chain.  Every call is given a suffix of the text
  of its caller, and falls in one of two ways:

      the text gets shorter          behind `(`, behind `**`, and in a chain
      the rank of the rule falls     relational → additive → … → primary → name

  Both together fall along all calls (`Call.Enters.descends`).  Hence a rule is called
  again on a shorter text only, no calls go on without end, and the evaluation of
  `Evaluates` has a reply for every rule and every text (`evaluates_call`).

  What the rule has read then is more than nothing, and there is no blank at either
  end of it (`evaluation_progresses`).
-/
import ExprText.Proofs.Evaluation
import ExprText.Proofs.Places
import ExprText.Proofs.Soundness

namespace ExprText.Grammar

open ExprText.Parser

/-! ## §1. Calls are given suffixes. -/

/-- The parts of a body run on what the parts in front of them have left. -/
theorem Body.calls_suffix {α : Type} {t : Body α} {s : List Char} {c : Call}
    (h : c ∈ t.calls s) : c.text <:+ s := by
  induction t generalizing s with
  | lexical => cases h
  | call p =>
    obtain rfl := List.mem_singleton.1 h
    exact List.suffix_refl s
  | map _ _ ih => exact ih h
  | seq t u _ iht ihu =>
    rcases Body.mem_calls_seq.1 h with hfirst | ⟨a, r, hrun, hsecond⟩
    · exact iht hfirst
    · exact (ihu hsecond).trans (t.regular.suffix hrun)
  | orElse t u iht ihu =>
    rcases Body.mem_calls_orElse.1 h with hfirst | ⟨_, hsecond⟩
    · exact iht hfirst
    · exact ihu hsecond
  | optional _ ih => exact ih h

/-! ## §2. Calls on the whole text go to lower ranks. -/

/-- How far the procedure is above the names and numbers: the tighter its place, the lower its rank.
A chain comes back to the level it belongs to on shorter texts only, so it ranks with these. -/
def Procedure.rank : Procedure → Nat
  | .rule .expression => 7
  | .rule .variableRef | .rule .literal | .chain _ _ => 0
  | .rule r => 7 - r.printPlace

/-- Each call of the body has a shorter text or a rank below `n`. -/
def Body.Within (n : Nat) {α : Type} (t : Body α) : Prop :=
  ∀ s, ∀ c ∈ t.calls s, c.text.length < s.length ∨ c.procedure.rank < n

section Within

variable {α β γ : Type} {n : Nat}

theorem Body.within_lexical (p : Parser α) (regular : Regular p) :
    (Body.lexical p regular).Within n := by
  intro s c hc
  cases hc

theorem Body.within_call {p : Procedure} (h : p.rank < n) : (Body.call p).Within n := by
  intro s c hc
  obtain rfl := List.mem_singleton.1 hc
  exact .inr h

theorem Body.Within.map {t : Body α} (h : t.Within n) (f : α → β) : (Body.map f t).Within n :=
  h

theorem Body.Within.seq {t : Body α} {u : Body β} (ht : t.Within n) (hu : u.Within n)
    (combine : α → β → γ) : (Body.seq t u combine).Within n := by
  intro s c hc
  rcases Body.mem_calls_seq.1 hc with hfirst | ⟨a, r, hrun, hsecond⟩
  · exact ht s c hfirst
  · have hread := t.regular.length_le hrun
    have hfalls := hu r c hsecond
    omega

/-- Behind a part that reads something, anything may be called. -/
theorem Body.Within.seq_of_consuming {t : Body α} (ht : t.Within n)
    (hconsuming : Consuming t.parser) (u : Body β) (combine : α → β → γ) :
    (Body.seq t u combine).Within n := by
  intro s c hc
  rcases Body.mem_calls_seq.1 hc with hfirst | ⟨a, r, hrun, hsecond⟩
  · exact ht s c hfirst
  · have hread := hconsuming s a r hrun
    have hcalled := (Body.calls_suffix hsecond).length_le
    omega

theorem Body.Within.orElse {t u : Body α} (ht : t.Within n) (hu : u.Within n) :
    (Body.orElse t u).Within n := by
  intro s c hc
  rcases Body.mem_calls_orElse.1 hc with hfirst | ⟨_, hsecond⟩
  · exact ht s c hfirst
  · exact hu s c hsecond

theorem Body.Within.optional {t : Body α} (h : t.Within n) : (Body.optional t).Within n :=
  h

end Within

theorem Body.within_level {n : Nat} (ops : List Operator) {operand : Rule}
    (h : (Procedure.rule operand).rank < n) : (Body.level ops operand).Within n :=
  (within_call h).seq (within_call (p := .chain ops operand) (Nat.zero_lt_of_lt h)) foldLinks

theorem Body.within_base {n : Nat} (h : (Procedure.rule .unary).rank < n) :
    Body.base.Within n :=
  (((within_call h).seq (within_lexical _ _) _).seq (within_lexical _ _) _).seq
    (within_lexical _ _) _

/-- The relational text in parentheses is shorter than the text with them. -/
theorem Body.within_parenthesized (n : Nat) : Body.parenthesized.Within n := by
  have hfront : ((char '(').seqRight spaces).Within n :=
    (within_lexical _ _).seq (within_lexical _ _) _
  have hnested : (((char '(').seqRight spaces).seqRight (rule .relational)).Within n :=
    hfront.seq_of_consuming consuming_opening _ _
  exact (hnested.seq (within_lexical _ _) _).seq (within_lexical _ _) _

/-- The operand of a link stands behind an operator. -/
theorem Body.within_link (n : Nat) (ops : List Operator) (operand : Rule) :
    (Body.link ops operand).Within n := by
  have hfront : (spaces.seqRight (symbolAmong ops)).Within n :=
    (within_lexical _ _).seq (within_lexical _ _) _
  have hblank : ((spaces.seqRight (symbolAmong ops)).seqLeft spaces).Within n :=
    hfront.seq (within_lexical _ _) _
  exact hblank.seq_of_consuming (consuming_between_blanks (consuming_symbolAmong ops)) _ _

/-- **Every call of a procedure has a shorter text or a lower rank.** -/
theorem Procedure.within_body (p : Procedure) : p.body.Within p.rank := by
  cases p with
  | rule r =>
    cases r with
    | expression => exact Body.within_call (by decide)
    | relational | additive | multiplicative => exact Body.within_level _ (by decide)
    | exponential =>
      have hpower := (Body.within_base (n := 3) (by decide)).seq_of_consuming
        (consuming_base Rule.unary.regular_parser) (.rule .exponential) (Expr.bin .pow)
      exact hpower.orElse (Body.within_call (by decide))
    | unary =>
      have hprimary := Body.within_call (p := .rule .primary) (n := 2) (by decide)
      have hnegated := (Body.within_lexical _ (regular_char '-')).seq hprimary fun _ e => e
      have hsigned := (Body.within_lexical _ (regular_char '+')).optional.seq hprimary fun _ e => e
      exact (hnegated.map Expr.neg).orElse hsigned
    | primary =>
      have hname := Body.within_call (p := .rule .variableRef) (n := 1) (by decide)
      have hnumber := Body.within_call (p := .rule .literal) (n := 1) (by decide)
      exact hname.orElse (hnumber.orElse (Body.within_parenthesized 1))
    | variableRef | literal => exact Body.within_lexical _ _
  | chain ops operand =>
    -- the link in front of the tail has read an operator
    have hlink := (Body.within_link 0 ops operand).seq_of_consuming
      (consuming_link (consuming_symbolAmong ops) operand.regular_parser)
      (.call (.chain ops operand)) List.cons
    exact hlink.optional.map _

/-! ## §3. All calls descend. -/

/-- Evaluating the call makes the other call. -/
def Call.Enters (c c' : Call) : Prop :=
  c' ∈ c.procedure.body.calls c.text

instance (c c' : Call) : Decidable (c.Enters c') :=
  inferInstanceAs (Decidable (c' ∈ c.procedure.body.calls c.text))

/-- The second call has a suffix of the text of the first, and it is shorter or the rank is lower. -/
structure Call.Descends (c c' : Call) : Prop where
  suffix : c'.text <:+ c.text
  falls : c'.text.length < c.text.length ∨ c'.procedure.rank < c.procedure.rank

theorem Call.Enters.descends {c c' : Call} (h : c.Enters c') : c.Descends c' where
  suffix := Body.calls_suffix h
  falls := c.procedure.within_body c.text c' h

theorem Call.Descends.trans {c c' c'' : Call} (h : c.Descends c') (h' : c'.Descends c'') :
    c.Descends c'' where
  suffix := h'.suffix.trans h.suffix
  falls := by
    have hle := h.suffix.length_le
    have hle' := h'.suffix.length_le
    have hfalls := h.falls
    have hfalls' := h'.falls
    omega

/-- Calls within calls descend, however deep they are. -/
theorem Call.descends_of_transGen {c c' : Call} (h : Relation.TransGen Call.Enters c c') :
    c.Descends c' := by
  induction h with
  | single h => exact h.descends
  | tail _ h ih => exact ih.trans h.descends

/-- **A procedure is called again on a shorter suffix only.** -/
theorem shorter_of_reentered {p : Procedure} {s s' : List Char}
    (h : Relation.TransGen Call.Enters ⟨p, s⟩ ⟨p, s'⟩) : s' <:+ s ∧ s'.length < s.length := by
  have hdescends := Call.descends_of_transGen h
  refine ⟨hdescends.suffix, ?_⟩
  rcases hdescends.falls with hshorter | hrank
  · exact hshorter
  · exact absurd hrank (Nat.lt_irrefl _)

/-- No calls within calls go on without end: the lengths of the texts and then the ranks fall. -/
theorem wellFounded_enters : WellFounded fun c' c : Call => c.Enters c' := by
  have hlex := InvImage.wf (fun c : Call => (c.text.length, c.procedure.rank))
    (Prod.lex Nat.lt_wfRel Nat.lt_wfRel).wf
  refine Subrelation.wf ?_ hlex
  intro c' c h
  have hdescends := h.descends
  rcases hdescends.falls with hshorter | hrank
  · exact Prod.Lex.left _ _ hshorter
  · exact Prod.Lex.right' (· < ·) hdescends.suffix.length_le hrank

/-- **Every procedure ends on every text**, with the reply of its parser. -/
theorem evaluates_call (c : Call) :
    Evaluates (.call c.procedure) c.text (c.procedure.parser.run c.text) := by
  induction c using wellFounded_enters.induction with
  | _ c ih =>
    have hbody := evaluates_of_calls fun c' hc' => ih c' hc'
    rw [← c.procedure.parser_eq] at hbody
    exact .call hbody

theorem evaluates_iff {p : Procedure} {s : List Char} {reply : Reply p.Value} :
    Evaluates (.call p) s reply ↔ p.parser.run s = reply := by
  refine ⟨Evaluates.run_eq, ?_⟩
  rintro rfl
  exact evaluates_call ⟨p, s⟩

/-! ## §4. What has been read. -/

/-- There is something, and no blank at either end of it. -/
structure Trimmed (u : List Char) : Prop where
  ne_nil : u ≠ []
  head : ∀ c ∈ u.head?, Text.isBlank c = false
  last : ∀ c ∈ u.getLast?, Text.isBlank c = false

theorem Derives.trimmed {rule : Rule} {u : List Char} {e : Expr} (h : Derives rule u e) :
    Trimmed u where
  ne_nil := h.ne_nil
  head := by
    obtain ⟨c, v, rfl, hc⟩ := h.opens
    intro d hd
    obtain rfl : c = d := Option.some.inj hd
    exact (opensOperand_spec hc).1
  last := by
    obtain ⟨v, c, rfl, hc⟩ := h.closes
    intro d hd
    rw [List.getLast?_concat] at hd
    obtain rfl : c = d := Option.some.inj hd
    exact isBlank_of_closesOperand hc

/-- Blanks at the end of a text are behind everything that ends without a blank. -/
theorem Trimmed.suffix_of_blanks {u r v w : List Char} (h : Trimmed u) (hsplit : u ++ r = v ++ w)
    (hblank : ∀ c ∈ w, Text.isBlank c = true) : w <:+ r := by
  rcases List.append_eq_append_iff.1 hsplit with ⟨t, _, hr⟩ | ⟨t, hu, hw⟩
  · exact ⟨t, hr.symm⟩
  · -- what is left of `u` behind `v` would be blank
    rcases List.eq_nil_or_concat t with rfl | ⟨t', c, rfl⟩
    · rw [hw]
      exact List.suffix_refl _
    · have hlast : Text.isBlank c = false := h.last c (by rw [hu]; simp)
      have hc : Text.isBlank c = true := hblank c (by rw [hw]; simp)
      rw [hlast] at hc
      cases hc

/-- **EVERY RULE MAKES PROGRESS AND ENDS, ON EVERY TEXT.**  The parsers read what the bodies say,
and evaluating a rule by the bodies ends with one reply, that of its parser.  A rule or a chain that
is called again while it is being evaluated is called on a suffix that is shorter, and no calls
within calls go on without end.  What a rule reads is not empty and has no blank at its ends, so the
blanks at the end of a text are all left. -/
theorem evaluation_progresses :
    (∀ p : Procedure, p.parser = p.body.parser) ∧
    (∀ (rule : Rule) (s : List Char) (reply : Reply Expr),
      Evaluates (.call (.rule rule)) s reply ↔ rule.parser.run s = reply) ∧
    (∀ (p : Procedure) (s s' : List Char), Relation.TransGen Call.Enters ⟨p, s⟩ ⟨p, s'⟩ →
      s' <:+ s ∧ s'.length < s.length) ∧
    (WellFounded fun c' c : Call => c.Enters c') ∧
    (∀ (rule : Rule) (s r : List Char) (e : Expr), rule.parser.run s = .ok e r →
      (∃ u, s = u ++ r ∧ Trimmed u) ∧
      ∀ v w, s = v ++ w → (∀ c ∈ w, Text.isBlank c = true) → w <:+ r) := by
  refine ⟨Procedure.parser_eq, fun _ _ _ => evaluates_iff, fun _ _ _ => shorter_of_reentered,
    wellFounded_enters, ?_⟩
  intro rule s r e hrun
  obtain ⟨u, hs, hderives⟩ := derives_of_run hrun
  refine ⟨⟨u, hs, hderives.trimmed⟩, ?_⟩
  intro v w hsplit hblank
  exact hderives.trimmed.suffix_of_blanks (hs.symm.trans hsplit) hblank

/-- The comparison inside `(a)` is entered from the comparison outside, through all levels, and the
blank behind the parenthesis is left. -/
theorem evaluation_progresses_nested :
    Relation.TransGen Call.Enters ⟨.rule .relational, "(a) ".toList⟩
      ⟨.rule .relational, "a) ".toList⟩ ∧
    "a) ".toList <:+ "(a) ".toList ∧ "a) ".toList.length < "(a) ".toList.length ∧
    Rule.relational.parser.run "(a) ".toList = .ok (.var "a") " ".toList ∧
    (∃ u, "(a) ".toList = u ++ " ".toList ∧ Trimmed u) ∧
    Evaluates (.call (.rule .relational)) "* a".toList (.fail "* a".toList) := by
  have hadditive : Call.Enters ⟨.rule .relational, "(a) ".toList⟩
      ⟨.rule .additive, "(a) ".toList⟩ := by decide +kernel
  have hmultiplicative : Call.Enters ⟨.rule .additive, "(a) ".toList⟩
      ⟨.rule .multiplicative, "(a) ".toList⟩ := by decide +kernel
  have hexponential : Call.Enters ⟨.rule .multiplicative, "(a) ".toList⟩
      ⟨.rule .exponential, "(a) ".toList⟩ := by decide +kernel
  have hunary : Call.Enters ⟨.rule .exponential, "(a) ".toList⟩
      ⟨.rule .unary, "(a) ".toList⟩ := by decide +kernel
  have hprimary : Call.Enters ⟨.rule .unary, "(a) ".toList⟩
      ⟨.rule .primary, "(a) ".toList⟩ := by decide +kernel
  have hrelational : Call.Enters ⟨.rule .primary, "(a) ".toList⟩
      ⟨.rule .relational, "a) ".toList⟩ := by decide +kernel
  have hentered : Relation.TransGen Call.Enters ⟨.rule .relational, "(a) ".toList⟩
      ⟨.rule .relational, "a) ".toList⟩ :=
    (((((Relation.TransGen.single hadditive).tail hmultiplicative).tail hexponential).tail
      hunary).tail hprimary).tail hrelational
  have hrun : Rule.relational.parser.run "(a) ".toList = .ok (.var "a") " ".toList := by
    decide +kernel
  obtain ⟨_, hends, hreentered, _, hread⟩ := evaluation_progresses
  obtain ⟨hsuffix, hshorter⟩ := hreentered _ _ _ hentered
  exact ⟨hentered, hsuffix, hshorter, hrun, (hread _ _ _ _ hrun).1,
    (hends _ _ _).2 (by decide +kernel)⟩

end ExprText.Grammar
