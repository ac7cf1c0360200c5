/-
  ExprText.Proofs.RoundTrip
  ─────────────────────────
  **WHAT IS WRITTEN IS READ BACK.**

  Reading the text of a tree gives the tree back, up to one change: the sign of
  a constant is read as a negation,

      norm (-5)  =  negation of 5        written  -5
      norm (negation of -5) = itself     written  --5

  except behind a negation, where the sign must belong to the constant.  The
  normal form is written like the tree itself (`write_normUnder`), so two trees
  are written alike if and only if their normal forms are equal.

  The printer asks every operand for a precedence, and the grammar derives the
  text of the operand from the rule at that place (`derives_write`).
-/
import ExprText.Proofs.Acceptance
import ExprText.Proofs.Numerals
import ExprText.Proofs.Places

namespace ExprText

namespace Expr

/-! ## §1. The normal form. -/

/-- Reads signs as negations, except the sign of a constant that is `negated` already: that is the
direct operand of a negation. -/
def normUnder (negated : Bool) : Expr → Expr
  | const value =>
    if value.negative && !negated then neg (const { value with negative := false })
    else const value
  | var name => var name
  | neg operand => neg (operand.normUnder true)
  | bin op left right => bin op (left.normUnder false) (right.normUnder false)

/-- The normal form of a tree. -/
def norm (e : Expr) : Expr :=
  e.normUnder false

/-- Does every constant with a sign stand directly behind a negation?  The tree itself does if it
is `negated`. -/
def SignsUnder (negated : Bool) : Expr → Prop
  | const value => value.negative = true → negated = true
  | var _ => True
  | neg operand => operand.SignsUnder true
  | bin _ left right => left.SignsUnder false ∧ right.SignsUnder false

/-- No constant has a sign, except directly behind a negation. -/
def NoLooseSign (e : Expr) : Prop :=
  e.SignsUnder false

theorem normUnder_eq_self_iff {negated : Bool} {e : Expr} :
    e.normUnder negated = e ↔ e.SignsUnder negated := by
  induction e generalizing negated with
  | const value =>
    cases hsign : value.negative <;> cases negated <;> simp [normUnder, SignsUnder, hsign]
  | var name => simp [normUnder, SignsUnder]
  | neg operand ih => simp [normUnder, SignsUnder, ih]
  | bin op left right ihleft ihright => simp [normUnder, SignsUnder, ihleft, ihright]

/-- **The normal form is written alike.** -/
theorem write_normUnder {negated : Bool} {place : Nat} {e : Expr}
    (hplace : negated = false → place ≤ negPrecedence) :
    (e.normUnder negated).write place = e.write place := by
  induction e generalizing negated place with
  | const value =>
    unfold normUnder
    by_cases h : (value.negative && !negated) = true
    · -- the sign is written by the negation instead of the constant
      rw [if_pos h]
      simp only [Bool.and_eq_true, Bool.not_eq_true'] at h
      obtain ⟨hsign, hnegated⟩ := h
      have hle := hplace hnegated
      show parenthesizeIf (negPrecedence < place) ('-' :: value.unsignedNumeral) = value.numeral
      unfold parenthesizeIf Decimal.numeral
      rw [if_pos hsign, if_neg]
      simpa using hle
    · rw [if_neg h]
  | var name => rfl
  | neg operand ih =>
    show parenthesizeIf _ ('-' :: (operand.normUnder true).write primaryPrecedence) = _
    rw [ih (by decide)]
    rfl
  | bin op left right ihleft ihright =>
    show parenthesizeIf _ ((left.normUnder false).write op.leftPlace ++
      ' ' :: op.symbol.toList ++ ' ' :: (right.normUnder false).write op.rightPlace) = _
    rw [ihleft fun _ => op.leftPlace_le, ihright fun _ => op.rightPlace_le]
    rfl

end Expr

namespace Grammar

/-! ## §2. What is written is derived. -/

/-- A primary text may stand everywhere, unless it starts with a minus sign. -/
theorem derives_of_primary {place : Nat} {u : List Char} {e : Expr} (hplace : place ≤ 6)
    (h : Derives .primary u e) (hminus : u.head? ≠ some '-') : Derives (ruleAt place) u e := by
  by_cases hsix : place = 6
  · rw [hsix]
    exact h
  · have hunary : Derives (ruleAt 5) u e := .plain h hminus
    exact hunary.loosen (by omega) (Nat.le_refl 5)

/-- **Parentheses where they are needed.**  A text of the precedence `own` may stand everywhere,
in parentheses if it binds looser than the place asks for. -/
theorem derives_parenthesizeIf {own place : Nat} {u : List Char} {e : Expr} (hown : own ≤ 5)
    (hplace : place ≤ 6) (h : Derives (ruleAt own) u e) :
    Derives (ruleAt place) (Expr.parenthesizeIf (own < place) u) e := by
  unfold Expr.parenthesizeIf
  by_cases hlt : own < place
  · rw [if_pos (by simpa using hlt)]
    have hblanks : Blanks [] := by decide
    have hprimary : Derives .primary ('(' :: [] ++ u ++ [] ++ [')']) e :=
      .parens hblanks (h.loosen (Nat.zero_le own) hown) hblanks
    rw [List.append_nil] at hprimary
    exact derives_of_primary hplace hprimary (by simp)
  · rw [if_neg (by simpa using hlt)]
    exact h.loosen (by omega) hown

/-- Behind a negation the sign of a constant is a part of the number. -/
theorem derives_const_primary {d : Decimal} (h : d.Representable) :
    Derives .primary d.numeral (.const d) := by
  have hnumeral := numeral_unsignedNumeral h
  unfold Decimal.numeral
  by_cases hsign : d.negative = true
  · rw [if_pos hsign]
    have hd : -{ d with negative := false } = d := by
      show { d with negative := true } = d
      rw [← hsign]
    have hliteral := Derives.minusNumber hnumeral
    rw [hd] at hliteral
    exact .literal hliteral
  · rw [if_neg hsign]
    have hd : { d with negative := false } = d := by
      rw [Bool.not_eq_true] at hsign
      rw [← hsign]
    rw [hd] at hnumeral
    exact .literal (.number hnumeral)

/-- Everywhere else it is a negation. -/
theorem derives_const {d : Decimal} {place : Nat} (h : d.Representable) (hplace : place ≤ 5) :
    Derives (ruleAt place) d.numeral ((Expr.const d).normUnder false) := by
  have hnumeral := numeral_unsignedNumeral h
  by_cases hsign : d.negative = true
  · have hunary : Derives (ruleAt 5) ('-' :: d.unsignedNumeral)
        (.neg (.const { d with negative := false })) := .neg (.literal (.number hnumeral))
    unfold Decimal.numeral Expr.normUnder
    rw [if_pos hsign, if_pos (by simp [hsign])]
    exact hunary.loosen hplace (Nat.le_refl 5)
  · have hprimary := derives_const_primary h
    have hnorm : (Expr.const d).normUnder false = .const d :=
      Expr.normUnder_eq_self_iff.2 fun hnegative => absurd hnegative hsign
    rw [hnorm]
    apply derives_of_primary (by omega) hprimary
    -- a numeral starts with a digit or with the point
    obtain ⟨c, v, hv, hc⟩ := hnumeral.opens
    unfold Decimal.numeral
    rw [if_neg hsign, hv]
    intro hhead
    cases hhead
    exact absurd hc (by decide)

/-- A name may stand everywhere. -/
theorem derives_var {name : String} {place : Nat} (h : Text.IsIdentifier name.toList)
    (hplace : place ≤ 6) : Derives (ruleAt place) name.toList (.var name) := by
  have hname := Derives.name h
  rw [String.ofList_toList] at hname
  apply derives_of_primary hplace (.variableRef hname)
  intro hhead
  obtain ⟨v, hv⟩ := List.head?_eq_some_iff.1 hhead
  rw [hv] at h
  exact absurd h.1 (by decide)

/-- A negation is written with a primary text behind its sign. -/
theorem derives_neg {place : Nat} {u : List Char} {e : Expr} (hplace : place ≤ 6)
    (h : Derives .primary u e) :
    Derives (ruleAt place) (Expr.parenthesizeIf (Expr.negPrecedence < place) ('-' :: u))
      (.neg e) := by
  have hneg : Derives (ruleAt Expr.negPrecedence) ('-' :: u) (.neg e) := .neg h
  exact derives_parenthesizeIf (Nat.le_refl 5) hplace hneg

/-- An operator is written between texts for the places beside it. -/
theorem derives_spaced_bin {op : Operator} {place : Nat} {u v : List Char} {left right : Expr}
    (hplace : place ≤ 6) (hleft : Derives (ruleAt op.leftPlace) u left)
    (hright : Derives (ruleAt op.rightPlace) v right) :
    Derives (ruleAt place)
      (Expr.parenthesizeIf (op.precedence < place) (u ++ ' ' :: op.symbol.toList ++ ' ' :: v))
      (.bin op left right) := by
  have hspaced : Spaced op ([' '] ++ op.symbol.toList ++ [' ']) := .intro (by decide) (by decide)
  have hbin := derives_bin hleft hspaced hright
  have hparens := derives_parenthesizeIf (Nat.le_trans op.precedence_le (by omega)) hplace hbin
  simpa using hparens

/-- **What is written is derived**, with its normal form, from the rule of the place that it is
written for. -/
theorem derives_write {e : Expr} (h : e.WellFormed) :
    (∀ place, place ≤ 5 → Derives (ruleAt place) (e.write place) (e.normUnder false)) ∧
      Derives .primary (e.write Expr.primaryPrecedence) (e.normUnder true) := by
  induction e with
  | const value =>
    refine ⟨fun place hplace => derives_const h hplace, ?_⟩
    have hnorm : (Expr.const value).normUnder true = .const value :=
      Expr.normUnder_eq_self_iff.2 fun _ => rfl
    rw [hnorm]
    exact derives_const_primary h
  | var name =>
    exact ⟨fun place hplace => derives_var h (by omega), derives_var h (Nat.le_refl 6)⟩
  | neg operand ih =>
    obtain ⟨_, hoperand⟩ := ih h
    exact ⟨fun place hplace => derives_neg (by omega) hoperand,
      derives_neg (Nat.le_refl 6) hoperand⟩
  | bin op left right ihleft ihright =>
    obtain ⟨hleft, hright⟩ := h
    -- the operands were written for the places beside this operator
    have hall : ∀ place, place ≤ 6 → Derives (ruleAt place) ((Expr.bin op left right).write place)
        (.bin op (left.normUnder false) (right.normUnder false)) :=
      fun place hplace => derives_spaced_bin hplace ((ihleft hleft).1 _ op.leftPlace_le)
        ((ihright hright).1 _ op.rightPlace_le)
    exact ⟨fun place hplace => hall place (by omega), hall 6 (Nat.le_refl 6)⟩

end Grammar

/-! ## §3. The round trip. -/

theorem read_text_eq_norm {e : Expr} (h : e.WellFormed) : read e.text = .ok e.norm :=
  Grammar.read_of_derives ((Grammar.derives_write h).1 0 (Nat.zero_le 5))

theorem Expr.text_norm (e : Expr) : e.norm.text = e.text := by
  unfold Expr.text Expr.norm
  rw [Expr.write_normUnder fun _ => Nat.zero_le _]

theorem Expr.text_inj {e e' : Expr} (h : e.WellFormed) (h' : e'.WellFormed) :
    e.text = e'.text ↔ e.norm = e'.norm := by
  apply Iff.intro
  · intro htext
    -- one text has one reading
    have hread := read_text_eq_norm h
    rw [htext, read_text_eq_norm h', Except.ok.injEq] at hread
    exact hread.symm
  · intro hnorm
    rw [← e.text_norm, hnorm, e'.text_norm]

/-- **WHAT IS WRITTEN IS READ BACK.**  The text of a tree is read as its normal form, which is
written alike; trees are written alike if and only if they have one normal form; and a tree comes
back unchanged if and only if it has no constant with a sign but directly behind a negation. -/
theorem read_text {e : Expr} (h : e.WellFormed) :
    read e.text = .ok e.norm ∧ e.norm.text = e.text ∧
      (∀ e' : Expr, e'.WellFormed → (e.text = e'.text ↔ e.norm = e'.norm)) ∧
      (read e.text = .ok e ↔ e.NoLooseSign) := by
  have hread := read_text_eq_norm h
  refine ⟨hread, e.text_norm, fun e' h' => Expr.text_inj h h', ?_⟩
  rw [hread, Except.ok.injEq]
  exact Expr.normUnder_eq_self_iff

/-- A constant with a loose sign, and a negative zero behind a negation. -/
theorem read_text_signs :
    (Expr.bin .pow (.const ⟨true, 50, 1⟩) (.neg (.const ⟨true, 0, 0⟩))).text = "-5.0 ** --0" ∧
    read "-5.0 ** --0" =
      .ok (.bin .pow (.neg (.const ⟨false, 50, 1⟩)) (.neg (.const ⟨true, 0, 0⟩))) ∧
    (Expr.bin .pow (.neg (.const ⟨false, 50, 1⟩)) (.neg (.const ⟨true, 0, 0⟩))).text =
      "-5.0 ** --0" ∧
    read "-5.0 ** --0" ≠ .ok (.bin .pow (.const ⟨true, 50, 1⟩) (.neg (.const ⟨true, 0, 0⟩))) := by
  have hfive : Decimal.Representable ⟨true, 50, 1⟩ := by decide
  have hfive' : Decimal.Representable ⟨false, 50, 1⟩ := by decide
  have hzero : Decimal.Representable ⟨true, 0, 0⟩ := by decide
  have htext : (Expr.bin .pow (.const ⟨true, 50, 1⟩) (.neg (.const ⟨true, 0, 0⟩))).text =
      "-5.0 ** --0" := by decide +kernel
  obtain ⟨hread, _, halike, hback⟩ :=
    read_text (e := .bin .pow (.const ⟨true, 50, 1⟩) (.neg (.const ⟨true, 0, 0⟩))) ⟨hfive, hzero⟩
  have halike' := (halike (.bin .pow (.neg (.const ⟨false, 50, 1⟩)) (.neg (.const ⟨true, 0, 0⟩)))
    ⟨hfive', hzero⟩).2 (by decide)
  rw [htext] at hread halike' hback
  refine ⟨htext, hread, halike'.symm, fun hsame => ?_⟩
  -- the sign of the base is loose
  obtain ⟨hsign, _⟩ := hback.1 hsame
  exact absurd (hsign rfl) (by decide)

end ExprText
