/-
  ExprText.Proofs.Nesting
  ───────────────────────
  **A LOOSER LEVEL READS ON WHERE A TIGHTER ONE STOPS.**

  The five rules with a precedence, started on one text, differ only in how far
  they go on behind the same first operand:

      unary            -a
      exponential      -a ** 2
      multiplicative   -a ** 2 * b
      additive         -a ** 2 * b
      relational       -a ** 2 * b <= c

  Going on means to read an operator and its right operand, and to make the tree
  read so far the left operand (`Extends`).  So the tree of a tighter level is
  found in the tree of a looser one by going to the left (`Expr.LeftPart`), and
  it is the whole of it exactly if nothing more has been read.  Where the first
  operand is missing, all of them fail.

  One level goes on behind the next by `extended_level` and
  `extended_exponential`; from level to level this adds up (`extended_of_le`).

  Main statement: `levels_nest`.
-/
import ExprText.Proofs.Places
import ExprText.Proofs.Steps

namespace ExprText

/-! ## §1. Left parts of a tree. -/

namespace Expr

/-- The first tree is reached from the second by going from an operator to its left operand, any
number of times. -/
inductive LeftPart (e : Expr) : Expr → Prop where
  | self : LeftPart e e
  | left {op : Operator} {left right : Expr} (h : LeftPart e left) :
      LeftPart e (.bin op left right)

/-- A left operand of a left part is a left part. -/
theorem LeftPart.of_bin {op : Operator} {e right e' : Expr} (h : LeftPart (.bin op e right) e') :
    LeftPart e e' := by
  induction h with
  | self => exact .left .self
  | left _ ih => exact .left ih

theorem LeftPart.sizeOf_le {e e' : Expr} (h : LeftPart e e') : sizeOf e ≤ sizeOf e' := by
  induction h with
  | self => exact Nat.le_refl _
  | left _ ih =>
    rw [bin.sizeOf_spec]
    omega

end Expr

namespace Grammar

open ExprText.Parser

/-! ## §2. Reading on behind a tree. -/

/-- Reading goes on, from the tree `e` in front of the text `t` to the tree `e'` in front of the
text `r`: again and again an operator and a right operand are read, and the tree so far is the left
operand. -/
inductive Extends : Expr → List Char → Expr → List Char → Prop where
  | done (e : Expr) (t : List Char) : Extends e t e t
  | step {op : Operator} {e right e' : Expr} {t u r : List Char} (hsuffix : u <:+ t)
      (hlt : u.length < t.length) (h : Extends (.bin op e right) u e' r) : Extends e t e' r

namespace Extends

variable {e e' e'' : Expr} {t u r : List Char}

theorem trans (h : Extends e t e' u) (h' : Extends e' u e'' r) : Extends e t e'' r := by
  induction h with
  | done => exact h'
  | step hsuffix hlt _ ih => exact .step hsuffix hlt (ih h')

theorem suffix (h : Extends e t e' r) : r <:+ t := by
  induction h with
  | done e t => exact List.suffix_refl t
  | step hsuffix _ _ ih => exact ih.trans hsuffix

theorem leftPart (h : Extends e t e' r) : e.LeftPart e' := by
  induction h with
  | done => exact .self
  | step _ _ _ ih => exact ih.of_bin

/-- **Nothing more is read exactly if the tree stays the same**: every step makes the tree larger
and the rest shorter. -/
theorem eq_iff (h : Extends e t e' r) : e = e' ↔ t = r := by
  cases h with
  | done => exact iff_of_true rfl rfl
  | @step op _ right _ _ u _ _ hlt hrest =>
    have hsize := hrest.leftPart.sizeOf_le
    have hlen := hrest.suffix.length_le
    rw [Expr.bin.sizeOf_spec] at hsize
    refine iff_of_false ?_ ?_
    · intro he
      rw [he] at hsize
      omega
    · intro ht
      rw [ht] at hlt
      omega

end Extends

/-- Both replies are failures, or the second is a success that reads on where the first one stops. -/
inductive Extended : Reply Expr → Reply Expr → Prop where
  | ok {e e' : Expr} {t r : List Char} (h : Extends e t e' r) : Extended (.ok e t) (.ok e' r)
  | fail (t r : List Char) : Extended (.fail t) (.fail r)

theorem Extended.refl (reply : Reply Expr) : Extended reply reply := by
  cases reply with
  | ok e t => exact .ok (.done e t)
  | fail t => exact .fail t t

theorem Extended.of_ok {e : Expr} {t : List Char} {reply : Reply Expr}
    (h : Extended (.ok e t) reply) : ∃ e' r, reply = .ok e' r ∧ Extends e t e' r := by
  cases h with
  | ok h => exact ⟨_, _, rfl, h⟩

theorem Extended.of_fail {t : List Char} {reply : Reply Expr} (h : Extended (.fail t) reply) :
    ∃ r, reply = .fail r := by
  cases h with
  | fail _ r => exact ⟨r, rfl⟩

theorem Extended.trans {first second third : Reply Expr} (h : Extended first second)
    (h' : Extended second third) : Extended first third := by
  cases h with
  | ok h =>
    obtain ⟨e', r, hthird, hextends⟩ := h'.of_ok
    rw [hthird]
    exact .ok (h.trans hextends)
  | fail t _ =>
    obtain ⟨r, hthird⟩ := h'.of_fail
    rw [hthird]
    exact .fail t r

/-! ## §3. From one level to the next. -/

theorem extends_of_resume {ops : List Operator} {operand : Rule} {e e' : Expr}
    {t r : List Char} (h : resume ops operand e t = .ok e' r) : Extends e t e' r := by
  induction hn : t.length using Nat.strongRecOn generalizing t e with
  | ind n ih =>
    cases hlink : (levelLink ops operand).run t with
    | fail u =>
      rw [resume_of_fail hlink] at h
      cases h
      exact .done _ _
    | ok link u =>
      obtain ⟨op, right⟩ := link
      rw [resume_of_link hlink] at h
      have hregular := regular_link (regular_symbolAmong ops) operand.regular_parser
      have hlt := consuming_link (consuming_symbolAmong ops) operand.regular_parser t _ u hlink
      exact .step (hregular.suffix hlink) hlt (ih u.length (by omega) h rfl)

/-- A level goes on behind its first operand. -/
theorem extended_level {rule operand : Rule} {ops : List Operator}
    (level : Level rule ops operand) (s : List Char) :
    Extended (operand.parser.run s) (rule.parser.run s) := by
  cases hoperand : operand.parser.run s with
  | ok e t =>
    rw [run_level level hoperand]
    exact .ok (extends_of_resume rfl)
  | fail t =>
    cases hrule : rule.parser.run s with
    | fail r => exact .fail t r
    | ok e r =>
      obtain ⟨first, u, hfirst, _⟩ := exists_of_run_level level hrule
      rw [hoperand] at hfirst
      cases hfirst

/-- A power goes on behind its base, by one step at most. -/
theorem extended_exponential (s : List Char) :
    Extended (Rule.unary.parser.run s) (Rule.exponential.parser.run s) := by
  cases hpower : Rule.exponential.parser.run s with
  | ok e r =>
    obtain ⟨base, t, hbase, hcases⟩ := exponential_eq_ok_iff.1 hpower
    rw [hbase]
    rcases hcases with ⟨exponent, hlink, he⟩ | ⟨_, he, ht⟩
    · have hregular := regular_link (regular_symbol .pow) Rule.exponential.regular_parser
      have hlt := consuming_link (consuming_symbol .pow) Rule.exponential.regular_parser t _ r hlink
      subst he
      exact .ok (.step (hregular.suffix hlink) hlt (.done _ r))
    · subst he ht
      exact .ok (.done base t)
  | fail r =>
    cases hbase : Rule.unary.parser.run s with
    | fail t => exact .fail t r
    | ok base t =>
      obtain ⟨e, r', hrun, _⟩ := exists_run_exponential hbase
      rw [hpower] at hrun
      cases hrun

/-! ## §4. From any level to any looser one. -/

theorem extended_one {place : Nat} (hplace : place < 5) (s : List Char) :
    Extended ((ruleAt (place + 1)).parser.run s) ((ruleAt place).parser.run s) := by
  have hcases : place = 0 ∨ place = 1 ∨ place = 2 ∨ place = 3 ∨ place = 4 := by omega
  rcases hcases with rfl | rfl | rfl | rfl | rfl
  · exact .refl _
  · exact extended_level .relational s
  · exact extended_level .additive s
  · exact extended_level .multiplicative s
  · exact extended_exponential s

/-- **What asks for less precedence reads on.** -/
theorem extended_of_le {place place' : Nat} (hle : place ≤ place') (hplace : place' ≤ 5)
    (s : List Char) :
    Extended ((ruleAt place').parser.run s) ((ruleAt place).parser.run s) := by
  induction hle with
  | refl => exact .refl _
  | @step place' _ ih => exact (extended_one (by omega) s).trans (ih (by omega))

/-! ## §5. The levels. -/

/-- The rules with a precedence, from the tightest to the loosest. -/
def levels : List Rule :=
  [.unary, .exponential, .multiplicative, .additive, .relational]

theorem levels_eq_map : levels = [5, 4, 3, 2, 1].map ruleAt := rfl

/-- Every level reads on behind the tightest one, or fails with it. -/
theorem extended_unary {rule : Rule} (hrule : rule ∈ levels) (s : List Char) :
    Extended (Rule.unary.parser.run s) (rule.parser.run s) := by
  rw [levels_eq_map, List.mem_map] at hrule
  obtain ⟨place, hplace, rfl⟩ := hrule
  have hle : ∀ place ∈ [5, 4, 3, 2, 1], place ≤ 5 := by decide
  exact extended_of_le (hle place hplace) (Nat.le_refl 5) s

/-- **THE LEVELS NEST.**  On every text all five levels succeed, or all of them fail.  Where they
succeed, and one of two levels is looser, what it leaves is a suffix of what the tighter one leaves;
the tree of the tighter one is a left part of the tree of the looser one; and the trees are the same
exactly if the rests are. -/
theorem levels_nest (s : List Char) :
    ((∀ rule ∈ levels, ∃ e t, rule.parser.run s = .ok e t) ∨
      ∀ rule ∈ levels, ∃ t, rule.parser.run s = .fail t) ∧
    levels.Pairwise fun tight loose => ∀ e t e' r,
      tight.parser.run s = .ok e t → loose.parser.run s = .ok e' r →
        r <:+ t ∧ e.LeftPart e' ∧ (e = e' ↔ t = r) := by
  constructor
  · cases hunary : Rule.unary.parser.run s with
    | ok e t =>
      refine .inl fun rule hrule => ?_
      have hextended := extended_unary hrule s
      rw [hunary] at hextended
      obtain ⟨e', r, hrun, _⟩ := hextended.of_ok
      exact ⟨e', r, hrun⟩
    | fail t =>
      refine .inr fun rule hrule => ?_
      have hextended := extended_unary hrule s
      rw [hunary] at hextended
      exact hextended.of_fail
  · -- in the list of levels, places fall
    have hplaces : [5, 4, 3, 2, 1].Pairwise fun place' place => place ≤ place' ∧ place' ≤ 5 := by
      decide
    rw [levels_eq_map, List.pairwise_map]
    refine hplaces.imp ?_
    intro place' place hle e t e' r htight hloose
    have hextended := extended_of_le hle.1 hle.2 s
    rw [htight, hloose] at hextended
    obtain ⟨e'', r', hreply, hextends⟩ := hextended.of_ok
    cases hreply
    exact ⟨hextends.suffix, hextends.leftPart, hextends.eq_iff⟩

/-- From the power to the comparison, past a product; the sum behind it is not finished. -/
theorem levels_nest_comparison :
    (∀ rule ∈ levels, ∃ e t, rule.parser.run "-a ** 2 * b <= c +".toList = .ok e t) ∧
    Rule.exponential.parser.run "-a ** 2 * b <= c +".toList =
      .ok (.bin .pow (.neg (.var "a")) (.const ⟨false, 2, 0⟩)) " * b <= c +".toList ∧
    Rule.relational.parser.run "-a ** 2 * b <= c +".toList =
      .ok (.bin .le
        (.bin .mul (.bin .pow (.neg (.var "a")) (.const ⟨false, 2, 0⟩)) (.var "b")) (.var "c"))
        " +".toList ∧
    (Expr.bin .pow (.neg (.var "a")) (.const ⟨false, 2, 0⟩)).LeftPart
      (.bin .le
        (.bin .mul (.bin .pow (.neg (.var "a")) (.const ⟨false, 2, 0⟩)) (.var "b"))
        (.var "c")) := by
  have hpower : Rule.exponential.parser.run "-a ** 2 * b <= c +".toList =
      .ok (.bin .pow (.neg (.var "a")) (.const ⟨false, 2, 0⟩)) " * b <= c +".toList := by
    decide +kernel
  have hcomparison : Rule.relational.parser.run "-a ** 2 * b <= c +".toList =
      .ok (.bin .le
        (.bin .mul (.bin .pow (.neg (.var "a")) (.const ⟨false, 2, 0⟩)) (.var "b")) (.var "c"))
        " +".toList := by
    decide +kernel
  obtain ⟨hall, hnest⟩ := levels_nest "-a ** 2 * b <= c +".toList
  refine ⟨?_, hpower, hcomparison, ?_⟩
  · rcases hall with hsucceed | hfail
    · exact hsucceed
    · obtain ⟨t, ht⟩ := hfail .exponential (by decide)
      rw [hpower] at ht
      cases ht
  · obtain ⟨_, hbehind⟩ := List.pairwise_cons.1 hnest
    obtain ⟨hexponential, _⟩ := List.pairwise_cons.1 hbehind
    exact (hexponential .relational (by decide) _ _ _ _ hpower hcomparison).2.1

end Grammar

end ExprText
