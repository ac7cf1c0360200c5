/-
  ExprText.Decimal.Basic
  ──────────────────────
  **DECIMAL NUMBERS.**

  A decimal is a sign, a natural mantissa and a scale; it stands for
  ± mantissa / 10 ^ scale.  The three parts are kept as they were written, so
  1 and 1.00 are different decimals of equal value, and zero has two signs.

  The numbers of the language are those with a 96-bit mantissa and at most 28
  places (`Decimal.Representable`).
-/

namespace ExprText

/-- The number `± mantissa / 10 ^ scale`. -/
structure Decimal where
  /-- Is the sign bit set?  Zero may have it too. -/
  negative : Bool
  /-- All digits, read as one natural number. -/
  mantissa : Nat
  /-- How many of the digits stand after the point. -/
  scale : Nat
  deriving DecidableEq, Repr, Inhabited

namespace Decimal

/-- Mantissas are 96-bit words: they stay below this bound, which is 2 to the power of 96. -/
def mantissaBound : Nat := 79228162514264337593543950336

/-- The largest number of places. -/
def maxScale : Nat := 28

/-- A decimal that the language can hold. -/
def Representable (d : Decimal) : Prop :=
  d.mantissa < mantissaBound ∧ d.scale ≤ maxScale

instance (d : Decimal) : Decidable d.Representable :=
  inferInstanceAs (Decidable (_ ∧ _))

/-- Negation flips the sign bit and nothing else, so it turns 0 into -0. -/
def neg (d : Decimal) : Decimal :=
  { d with negative := !d.negative }

instance : Neg Decimal := ⟨neg⟩

@[simp] theorem mantissa_neg (d : Decimal) : (-d).mantissa = d.mantissa := rfl

@[simp] theorem scale_neg (d : Decimal) : (-d).scale = d.scale := rfl

@[simp] theorem negative_neg (d : Decimal) : (-d).negative = !d.negative := rfl

/-- How many units of the last place make one. -/
def unitsPerOne (d : Decimal) : Nat :=
  Nat.pow 10 d.scale

/-- Do the two decimals stand for the same number?  The scales do not matter, nor does the sign
of zero. -/
def sameValue (a b : Decimal) : Bool :=
  a.mantissa * b.unitsPerOne == b.mantissa * a.unitsPerOne &&
    (a.negative == b.negative || a.mantissa == 0)

end Decimal

end ExprText
