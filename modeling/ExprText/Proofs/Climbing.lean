/-
  ExprText.Proofs.Climbing
  ────────────────────────
  **READING IS PRECEDENCE CLIMBING.**

  The grammar spells out one rule for each level.  `climb` knows no levels: it
  takes operands and operators from left to right and asks the operator table,
  and nothing else, how far a right operand goes.

      climb a [(-, b), (*, c), (-, d)]  =  (a - b * c) - d

  On operands that are read as unary texts, joined by any operators between any
  blanks, both make the same tree (`read_join_eq_climb`).

  The invariant of the climb is that the tree so far is derived by the rule of
  its place, so the next operator may take it as its left operand
  (`derives_climbFrom`).
-/
import ExprText.Proofs.Acceptance
import ExprText.Proofs.Places

namespace ExprText.Grammar

/-! ## §1. The climb. -/

/-- Extends `left` by the operators that bind at `least` or tighter.  A right operand is a climb of
its own: it takes what binds tighter than its operator, and what binds alike if the operator groups
to the right.  The links that are left begin with a looser operator. -/
def climbFrom (least : Nat) (left : Expr) :
    (links : List (Operator × Expr)) →
      Expr × { rest : List (Operator × Expr) // rest.length ≤ links.length }
  | [] => (left, ⟨[], Nat.le_refl 0⟩)
  | (op, operand) :: links =>
    if least ≤ op.precedence then
      match climbFrom op.rightPlace operand links with
      | (right, ⟨rest, hrest⟩) =>
        match climbFrom least (.bin op left right) rest with
        | (whole, ⟨rest', hrest'⟩) => (whole, ⟨rest', by simp; omega⟩)
    else (left, ⟨(op, operand) :: links, Nat.le_refl _⟩)
termination_by links => links.length

/-- The tree of an operand and the operators and operands behind it. -/
def climb (first : Expr) (links : List (Operator × Expr)) : Expr :=
  (climbFrom 0 first links).1

/-- The table decides: products bind tighter, differences group to the left, powers to the
right. -/
example : climb (.var "a") [(.sub, .var "b"), (.mul, .var "c"), (.pow, .var "d"),
    (.pow, .var "e"), (.sub, .var "f")] =
    .bin .sub (.bin .sub (.var "a") (.bin .mul (.var "b")
      (.bin .pow (.var "c") (.bin .pow (.var "d") (.var "e"))))) (.var "f") := by
  decide +kernel

/-! ## §2. What a climb makes is derived. -/

/-- The text of operators, between blanks, and of the unary texts behind them. -/
inductive Joins : List (Operator × Expr) → List Char → Prop where
  | nil : Joins [] []
  | cons {op : Operator} {e : Expr} {links : List (Operator × Expr)} {o v t : List Char}
      (ho : Spaced op o) (hv : Derives .unary v e) (h : Joins links t) :
      Joins ((op, e) :: links) (o ++ v ++ t)

/-- **The tree so far is always derived.**  A climb that starts from a text in a place from which
the next operator can take it reads on to a text in the place `least`, and stops at the end or in
front of a looser operator. -/
theorem derives_climbFrom {least place : Nat} {left e : Expr} {links rest : List (Operator × Expr)}
    {u t : List Char} {hrest : rest.length ≤ links.length} (hleft : Derives (ruleAt place) u left)
    (hlinks : Joins links t) (hleast : least ≤ place) (hplace : place ≤ 5)
    (hnext : ∀ link ∈ links.head?, link.1.leftPlace ≤ place)
    (h : climbFrom least left links = (e, ⟨rest, hrest⟩)) :
    ∃ v r, t = v ++ r ∧ Derives (ruleAt least) (u ++ v) e ∧ Joins rest r ∧
      ∀ link ∈ rest.head?, link.1.precedence < least := by
  fun_induction climbFrom least left links generalizing place u t e rest with
  | case1 least left =>
    cases h
    refine ⟨[], t, rfl, ?_, hlinks, ?_⟩
    · rw [List.append_nil]
      exact hleft.loosen hleast hplace
    · intro link hlink
      cases hlink
  | case2 least left op operand links hop right rest₁ _ hright _ rest₂ _ hwhole ihright ihwhole =>
    cases h
    cases hlinks with
    | @cons _ _ _ o v _ ho hv htail =>
      -- the right operand starts from a unary text, which every operator takes
      have hunary : Derives (ruleAt 5) v operand := hv
      obtain ⟨v₁, t₁, ht, hderives, hjoins, hstop⟩ :=
        ihright hunary htail op.rightPlace_le (Nat.le_refl 5)
          (fun link _ => link.1.leftPlace_le) hright
      have hbin := derives_bin (hleft.loosen (hnext _ rfl) hplace) ho hderives
      -- what it leaves over takes the whole of the operator's text
      obtain ⟨v₂, r, ht', hwhole', hjoins', hstop'⟩ :=
        ihwhole hbin hjoins hop (Nat.le_trans op.precedence_le (by omega))
          (fun link hlink => Operator.leftPlace_le_of_lt_rightPlace (hstop link hlink)) hwhole
      refine ⟨o ++ v ++ v₁ ++ v₂, r, ?_, ?_, hjoins', hstop'⟩
      · rw [ht, ht']
        simp
      · simpa using hwhole'
  | case3 least left op operand links hop =>
    cases h
    refine ⟨[], t, rfl, ?_, hlinks, ?_⟩
    · rw [List.append_nil]
      exact hleft.loosen hleast hplace
    · intro link hlink
      cases hlink
      exact Nat.lt_of_not_le hop

/-- A climb from the loosest place takes all operators. -/
theorem derives_climb {first : Expr} {links : List (Operator × Expr)} {u t : List Char}
    (hfirst : Derives .unary u first) (hlinks : Joins links t) :
    Derives .relational (u ++ t) (climb first links) := by
  have hunary : Derives (ruleAt 5) u first := hfirst
  unfold climb
  rcases hclimb : climbFrom 0 first links with ⟨e, rest, hrest⟩
  obtain ⟨v, r, ht, hderives, hjoins, hstop⟩ :=
    derives_climbFrom hunary hlinks (Nat.zero_le 5) (Nat.le_refl 5)
      (fun link _ => link.1.leftPlace_le) hclimb
  cases hjoins with
  | nil =>
    rw [ht, List.append_nil]
    exact hderives
  | cons _ _ _ =>
    -- no operator is looser than the loosest place
    exact absurd (hstop _ rfl) (Nat.not_lt_zero _)

/-! ## §3. Reading climbs. -/

/-- A text that is read as a unary expression, and its tree. -/
structure Operand where
  text : List Char
  tree : Expr
  reads : Rule.unary.parser.run text = .ok tree []

/-- An operator between blanks, and the operand behind it. -/
structure Link where
  op : Operator
  before : List Char
  after : List Char
  operand : Operand
  hbefore : Blanks before
  hafter : Blanks after

namespace Link

/-- The text of the link. -/
def text (link : Link) : List Char :=
  link.before ++ link.op.symbol.toList ++ link.after ++ link.operand.text

/-- The link without its spelling. -/
def pair (link : Link) : Operator × Expr :=
  (link.op, link.operand.tree)

end Link

theorem joins_links (links : List Link) :
    Joins (links.map Link.pair) (links.flatMap Link.text) := by
  induction links with
  | nil => exact .nil
  | cons link links ih =>
    have ho : Spaced link.op (link.before ++ link.op.symbol.toList ++ link.after) :=
      .intro link.hbefore link.hafter
    exact .cons ho (run_eq_ok_nil_iff.1 link.operand.reads) ih

/-- **READING IS PRECEDENCE CLIMBING.**  Operands that are read as unary texts, joined by any
operators between any blanks, are read as the tree that the operator table alone makes of them. -/
theorem read_join_eq_climb (first : Operand) (links : List Link) :
    read (String.ofList (first.text ++ links.flatMap Link.text)) =
      .ok (climb first.tree (links.map Link.pair)) := by
  have hfirst : Derives .unary first.text first.tree := run_eq_ok_nil_iff.1 first.reads
  have hderives := derives_climb hfirst (joins_links links)
  rw [read_eq_ok_iff_padded]
  refine ⟨[], _, [], ?_, ?_, hderives, ?_⟩
  · rw [String.toList_ofList]
    simp
  · intro c hc
    cases hc
  · intro c hc
    cases hc

/-- Operands with signs, with and without blanks around the operators. -/
theorem read_join_eq_climb_signs :
    read "a- -b ** 2*+c" = .ok (.bin .sub (.var "a")
      (.bin .mul (.bin .pow (.neg (.var "b")) (.const ⟨false, 2, 0⟩)) (.var "c"))) := by
  have hread := read_join_eq_climb ⟨['a'], .var "a", by decide +kernel⟩
    [⟨.sub, [], [' '], ⟨['-', 'b'], .neg (.var "b"), by decide +kernel⟩, by decide, by decide⟩,
      ⟨.pow, [' '], [' '], ⟨['2'], .const ⟨false, 2, 0⟩, by decide +kernel⟩, by decide, by decide⟩,
      ⟨.mul, [], [], ⟨['+', 'c'], .var "c", by decide +kernel⟩, by decide, by decide⟩]
  refine Eq.trans ?_ (hread.trans ?_)
  · apply congrArg read
    decide +kernel
  · apply congrArg Except.ok
    decide +kernel

end ExprText.Grammar
