/-
  ExprText.Proofs.Numerals
  ────────────────────────
  **A WRITTEN DECIMAL IS READ BACK EXACTLY.**

  The digits of a representable decimal make a numeral of the same decimal, but
  for the sign, which is no part of the digits (`numeral_unsignedNumeral`).

  Reading rounds where the places or the mantissa run out.  Neither happens to a
  written decimal: it has as many places as its scale says, and while its digits
  are read the mantissa only grows towards its own (`appendPlaces_eq_some`).
-/
import ExprText.Proofs.Derivation

namespace ExprText

namespace Decimal

/-! ## §1. Digits that fit. -/

/-- Further digits only make a number larger. -/
theorem le_ofDigitChars (digits : List Char) (n : Nat) : n ≤ Nat.ofDigitChars 10 digits n := by
  rw [Nat.ofDigitChars_eq_ofDigitChars_zero]
  have hpos : 0 < 10 ^ digits.length := Nat.pow_pos (by decide)
  have hle : n ≤ 10 ^ digits.length * n := Nat.le_mul_of_pos_left n hpos
  omega

/-- **Places that fit are all read.** -/
theorem appendPlaces_eq_some {mantissa scale : Nat} {places : List Char}
    (hscale : scale + places.length ≤ maxScale)
    (hvalue : Nat.ofDigitChars 10 places mantissa < mantissaBound) :
    appendPlaces mantissa scale places =
      some (Nat.ofDigitChars 10 places mantissa, scale + places.length) := by
  induction places generalizing mantissa scale with
  | nil => rfl
  | cons c places ih =>
    have hcons : Nat.ofDigitChars 10 (c :: places) mantissa =
        Nat.ofDigitChars 10 places (10 * mantissa + digitValue c) := Nat.ofDigitChars_cons
    rw [hcons] at hvalue ⊢
    rw [List.length_cons] at hscale ⊢
    -- what is read so far is no larger than what is read in the end
    have hgrows := le_ofDigitChars places (10 * mantissa + digitValue c)
    have hfits : scale < maxScale ∧ 10 * mantissa + digitValue c < mantissaBound := by
      refine ⟨by omega, ?_⟩
      exact Nat.lt_of_le_of_lt hgrows hvalue
    unfold appendPlaces
    rw [if_pos hfits, ih (by omega) hvalue]
    congr 2
    omega

/-! ## §2. The digits of a decimal. -/

/-- The digits behind the point. -/
def placeDigits (d : Decimal) : List Char :=
  (Nat.toDigits 10 (d.mantissa % d.unitsPerOne)).leftpad d.scale '0'

/-- There are as many digits behind the point as the scale says. -/
theorem length_placeDigits {d : Decimal} (hscale : 0 < d.scale) :
    d.placeDigits.length = d.scale := by
  have hunits : 0 < d.unitsPerOne := Nat.pow_pos (by decide)
  have hlt : d.mantissa % d.unitsPerOne < 10 ^ d.scale := Nat.mod_lt _ hunits
  have hle := (Nat.length_toDigits_le_iff (by decide) hscale).2 hlt
  unfold placeDigits
  rw [List.length_leftpad]
  omega

/-- All digits together denote the mantissa. -/
theorem ofDigitChars_placeDigits {d : Decimal} (hscale : 0 < d.scale) :
    Nat.ofDigitChars 10 d.placeDigits (d.mantissa / d.unitsPerOne) = d.mantissa := by
  have hzero : Nat.ofDigitChars 10 d.placeDigits 0 = d.mantissa % d.unitsPerOne := by
    unfold placeDigits List.leftpad
    rw [Nat.ofDigitChars_append, Nat.ofDigitChars_replicate_zero, Nat.mul_zero,
      Nat.ofDigitChars_ten_toDigits]
  rw [Nat.ofDigitChars_eq_ofDigitChars_zero, hzero, length_placeDigits hscale]
  exact Nat.div_add_mod d.mantissa d.unitsPerOne

end Decimal

namespace Grammar

theorem digits_toDigits (n : Nat) : Digits (Nat.toDigits 10 n) :=
  fun _ hc => Nat.isDigit_of_mem_toDigits (by decide) (by decide) hc

theorem digits_placeDigits (d : Decimal) : Digits d.placeDigits := by
  intro c hc
  unfold Decimal.placeDigits List.leftpad at hc
  rcases List.mem_append.1 hc with hzero | hdigit
  · rw [(List.mem_replicate.1 hzero).2]
    decide
  · exact digits_toDigits _ c hdigit

/-- **The digits of a decimal are a numeral of it**, without its sign. -/
theorem numeral_unsignedNumeral {d : Decimal} (h : d.Representable) :
    Numeral d.unsignedNumeral { d with negative := false } := by
  obtain ⟨hmantissa, hscale⟩ := h
  have hinteger : d.mantissa / d.unitsPerOne < Decimal.mantissaBound :=
    Nat.lt_of_le_of_lt (Nat.div_le_self _ _) hmantissa
  have hvalue : Decimal.digitsValue (Nat.toDigits 10 (d.mantissa / d.unitsPerOne)) =
      d.mantissa / d.unitsPerOne :=
    Nat.ofDigitChars_ten_toDigits
  by_cases hzero : d.scale = 0
  · -- no places: the mantissa is written without a point
    have hunits : d.unitsPerOne = 1 := by
      unfold Decimal.unitsPerOne
      rw [hzero]
    rw [hunits, Nat.div_one] at hvalue
    have htext : d.unsignedNumeral = Nat.toDigits 10 d.mantissa := by
      unfold Decimal.unsignedNumeral
      rw [if_pos hzero, hunits, Nat.div_one, List.append_nil]
    rw [htext]
    apply Numeral.integer
    · exact Nat.toDigits_ne_nil
    · exact digits_toDigits d.mantissa
    · unfold Decimal.ofInteger?
      rw [hvalue, if_pos hmantissa, ← hzero]
  · -- the places fit, because the mantissa and the scale do
    have hpos : 0 < d.scale := Nat.pos_of_ne_zero hzero
    have hlength := Decimal.length_placeDigits hpos
    have hplaces := Decimal.ofDigitChars_placeDigits hpos
    have htext : d.unsignedNumeral =
        Nat.toDigits 10 (d.mantissa / d.unitsPerOne) ++ '.' :: d.placeDigits := by
      unfold Decimal.unsignedNumeral
      rw [if_neg hzero]
      rfl
    rw [htext]
    apply Numeral.fraction
    · exact digits_toDigits _
    · exact digits_placeDigits d
    · intro hnil
      rw [hnil] at hlength
      exact hzero hlength.symm
    · unfold Decimal.ofFraction?
      rw [hvalue, if_pos hinteger, Decimal.appendPlaces_eq_some (by omega) (by omega), hplaces,
        hlength, Nat.zero_add]
      rfl

end Grammar

end ExprText
