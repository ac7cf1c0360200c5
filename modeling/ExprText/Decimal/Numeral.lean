/-
  ExprText.Decimal.Numeral
  ────────────────────────
  **DECIMALS AS DIGITS.**

  Reading digits into a decimal, and writing a decimal as digits.

      ofInteger?   — a run of digits, exact or refused
      ofFraction?  — digits before and after a point, rounded where the places
                     or the mantissa run out
      numeral      — the digits of a decimal, as many places as its scale says

  All functions take the digits apart from sign and layout: who calls them has
  already found the runs of digits in the text.
-/
import ExprText.Decimal.Basic

namespace ExprText.Decimal

/-! ## §1. Reading. -/

/-- The value of an ASCII digit. -/
def digitValue (c : Char) : Nat :=
  c.toNat - '0'.toNat

/-- The natural number that a run of digits denotes. -/
def digitsValue (digits : List Char) : Nat :=
  digits.foldl (fun n c => 10 * n + digitValue c) 0

/-- The integer that the digits denote, unless it is out of range.  Leading zeros are free. -/
def ofInteger? (digits : List Char) : Option Decimal :=
  if digitsValue digits < mantissaBound then
    some { negative := false, mantissa := digitsValue digits, scale := 0 }
  else none

/-- Ends a reading at `mantissa / 10 ^ scale`, where `digit` is the first one that no longer fits.
It alone decides the rounding: from five on the last place goes up.  Where that overflows the
mantissa, a place is given up, and where there is none to give up, the reading is refused. -/
def roundAt (mantissa scale digit : Nat) : Option (Nat × Nat) :=
  if digit < 5 then some (mantissa, scale)
  else if mantissa + 1 < mantissaBound then some (mantissa + 1, scale)
  else if scale = 0 then none
  else some ((mantissa + 1 + 4) / 10, scale - 1)

/-- Extends `mantissa / 10 ^ scale` by further places, as long as they fit. -/
def appendPlaces (mantissa scale : Nat) : List Char → Option (Nat × Nat)
  | [] => some (mantissa, scale)
  | c :: places =>
    if scale < maxScale ∧ 10 * mantissa + digitValue c < mantissaBound then
      appendPlaces (10 * mantissa + digitValue c) (scale + 1) places
    else roundAt mantissa scale (digitValue c)

/-- The decimal with the given digits before and after the point.  An integer part out of range is
refused; places that do not fit are rounded away. -/
def ofFraction? (integer places : List Char) : Option Decimal :=
  if digitsValue integer < mantissaBound then
    (appendPlaces (digitsValue integer) 0 places).map fun (mantissa, scale) =>
      { negative := false, mantissa, scale }
  else none

/-! ## §2. Writing. -/

/-- The digits of the mantissa with the point in its place: at least one digit before it, and
exactly `scale` after it, or no point at all if the scale is zero. -/
def unsignedNumeral (d : Decimal) : List Char :=
  Nat.toDigits 10 (d.mantissa / d.unitsPerOne) ++
    if d.scale = 0 then []
    else '.' :: (Nat.toDigits 10 (d.mantissa % d.unitsPerOne)).leftpad d.scale '0'

/-- The text of a decimal.  The sign is written whenever the sign bit is set, for zero too. -/
def numeral (d : Decimal) : List Char :=
  if d.negative then '-' :: d.unsignedNumeral else d.unsignedNumeral

instance : ToString Decimal where
  toString d := String.ofList d.numeral

/-! ## §3. What is read is representable. -/

theorem ofInteger?_eq_some_iff {digits : List Char} {d : Decimal} :
    ofInteger? digits = some d ↔
      digitsValue digits < mantissaBound ∧ d = ⟨false, digitsValue digits, 0⟩ := by
  unfold ofInteger?
  by_cases hlt : digitsValue digits < mantissaBound
  · rw [if_pos hlt, Option.some.injEq]
    exact ⟨fun h => ⟨hlt, h.symm⟩, fun h => h.2.symm⟩
  · rw [if_neg hlt]
    constructor
    · intro h
      cases h
    · intro ⟨h, _⟩
      exact absurd h hlt

theorem ofFraction?_eq_some_iff {integer places : List Char} {d : Decimal} :
    ofFraction? integer places = some d ↔
      digitsValue integer < mantissaBound ∧
        ∃ m k, appendPlaces (digitsValue integer) 0 places = some (m, k) ∧ d = ⟨false, m, k⟩ := by
  unfold ofFraction?
  by_cases hlt : digitsValue integer < mantissaBound
  · rw [if_pos hlt, Option.map_eq_some_iff]
    constructor
    · intro ⟨⟨m, k⟩, hread, hd⟩
      exact ⟨hlt, m, k, hread, hd.symm⟩
    · intro ⟨_, m, k, hread, hd⟩
      exact ⟨(m, k), hread, hd.symm⟩
  · rw [if_neg hlt]
    constructor
    · intro h
      cases h
    · intro ⟨h, _⟩
      exact absurd h hlt

theorem representable_of_ofInteger? {digits : List Char} {d : Decimal}
    (h : ofInteger? digits = some d) : d.Representable := by
  obtain ⟨hlt, hd⟩ := ofInteger?_eq_some_iff.1 h
  subst hd
  exact ⟨hlt, Nat.zero_le _⟩

/-- Rounding keeps the mantissa in bounds and adds no place. -/
theorem roundAt_bounds {mantissa scale digit m k : Nat} (hm : mantissa < mantissaBound)
    (h : roundAt mantissa scale digit = some (m, k)) : m < mantissaBound ∧ k ≤ scale := by
  unfold roundAt at h
  split at h
  · cases h
    exact ⟨hm, Nat.le_refl _⟩
  · split at h
    · next hlt =>
      cases h
      exact ⟨hlt, Nat.le_refl _⟩
    · split at h
      · cases h
      · -- a place is given up, and the mantissa is about a tenth of what it was
        cases h
        unfold mantissaBound at *
        omega

theorem appendPlaces_bounds {mantissa scale m k : Nat} {places : List Char}
    (hm : mantissa < mantissaBound) (hs : scale ≤ maxScale)
    (h : appendPlaces mantissa scale places = some (m, k)) :
    m < mantissaBound ∧ k ≤ maxScale := by
  induction places generalizing mantissa scale with
  | nil =>
    cases h
    exact ⟨hm, hs⟩
  | cons c places ih =>
    unfold appendPlaces at h
    split at h
    · next hfits => exact ih hfits.2 (by omega) h
    · have hround := roundAt_bounds hm h
      exact ⟨hround.1, by omega⟩

theorem representable_of_ofFraction? {integer places : List Char} {d : Decimal}
    (h : ofFraction? integer places = some d) : d.Representable := by
  obtain ⟨hlt, m, k, hread, hd⟩ := ofFraction?_eq_some_iff.1 h
  subst hd
  exact appendPlaces_bounds hlt (Nat.zero_le _) hread

end ExprText.Decimal
