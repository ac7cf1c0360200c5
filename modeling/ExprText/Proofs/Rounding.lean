/-
  ExprText.Proofs.Rounding
  ────────────────────────
  **A NUMBER IS READ TO HALF A UNIT OF ITS LAST PLACE.**

  Digits around a point denote a rational number, however many they are.  The
  decimal that is read from them keeps as many places as fit, and differs from
  that number by half a unit of its last place at most.  Where all digits fit,
  nothing is lost.

  While places are read, the mantissa is what is left of the denoted number when
  the places behind are cut off (`Truncates`).  The digit at the cut decides the
  rounding, and all digits behind it together are worth less than one unit of its
  place, so it alone tells on which side of a half the rest is.  This bounds the
  error however the reading ends (`roundAt_error`), also where it gives up a place.

  Main statement: which texts `number` refuses, and how far the decimal is from
  what the text denotes (`number_faithful`).
-/
import Mathlib.Algebra.Order.Field.Rat
import Mathlib.Algebra.Order.Field.Basic
import Mathlib.Tactic.Linarith
import Mathlib.Tactic.Positivity
import Mathlib.Tactic.Ring
import ExprText.Proofs.Lexemes
import ExprText.Proofs.Numerals

namespace ExprText

namespace Decimal

/-! ## §1. The numbers that digits denote. -/

/-- One unit of the last of so many places. -/
def unit (scale : ℕ) : ℚ :=
  1 / 10 ^ scale

/-- The rational number that a decimal stands for, without its sign. -/
def magnitude (d : Decimal) : ℚ :=
  d.mantissa / 10 ^ d.scale

/-- The rational number that digits before and after a point denote.  All of them count. -/
def exactValue (integer places : List Char) : ℚ :=
  digitsValue (integer ++ places) / 10 ^ places.length

theorem unit_pos (scale : ℕ) : 0 < unit scale := by
  unfold unit
  positivity

/-- Each place is worth ten of the next one. -/
theorem unit_eq_ten_mul (scale : ℕ) : unit scale = 10 * unit (scale + 1) := by
  unfold unit
  rw [pow_succ, one_div, one_div, mul_inv]
  ring

theorem magnitude_eq (d : Decimal) : d.magnitude = d.mantissa * unit d.scale := by
  unfold magnitude unit
  rw [mul_one_div]

/-- The number `mantissa / 10 ^ scale`, followed by further places. -/
def extended (mantissa scale : ℕ) (places : List Char) : ℚ :=
  (Nat.ofDigitChars 10 places mantissa : ℕ) * unit (scale + places.length)

theorem extended_nil (mantissa scale : ℕ) : extended mantissa scale [] = mantissa * unit scale :=
  rfl

theorem extended_cons (mantissa scale : ℕ) (c : Char) (places : List Char) :
    extended mantissa scale (c :: places) =
      extended (10 * mantissa + digitValue c) (scale + 1) places := by
  have hcons : Nat.ofDigitChars 10 (c :: places) mantissa =
      Nat.ofDigitChars 10 places (10 * mantissa + digitValue c) := Nat.ofDigitChars_cons
  have hlength : scale + (c :: places).length = scale + 1 + places.length := by
    rw [List.length_cons]
    omega
  unfold extended
  rw [hcons, hlength]

theorem digitsValue_append (integer places : List Char) :
    digitsValue (integer ++ places) = Nat.ofDigitChars 10 places (digitsValue integer) :=
  List.foldl_append

theorem exactValue_eq (integer places : List Char) :
    exactValue integer places = extended (digitsValue integer) 0 places := by
  unfold exactValue extended unit
  rw [digitsValue_append, Nat.zero_add, mul_one_div]

theorem digitValue_lt {c : Char} (h : c.isDigit = true) : digitValue c < 10 := by
  obtain ⟨hlow, hhigh⟩ := Char.isDigit_iff_toNat.1 h
  have h0 : '0'.toNat = 48 := rfl
  have h9 : '9'.toNat = 57 := rfl
  unfold digitValue
  omega

/-! ## §2. What is left when places are cut off. -/

/-- The number `mantissa / 10 ^ scale` is what is left of `x` when all further places are cut off. -/
def Truncates (mantissa scale : ℕ) (x : ℚ) : Prop :=
  mantissa * unit scale ≤ x ∧ x < (mantissa + 1) * unit scale

/-- One place more is cut off. -/
theorem Truncates.of_digit {mantissa scale digit : ℕ} {x : ℚ} (hdigit : digit < 10)
    (h : Truncates (10 * mantissa + digit) (scale + 1) x) : Truncates mantissa scale x := by
  obtain ⟨hlow, hhigh⟩ := h
  have hpos := unit_pos (scale + 1)
  have hnonneg : (0 : ℚ) ≤ digit * unit (scale + 1) := by positivity
  have hbelow : ((digit : ℚ) + 1) * unit (scale + 1) ≤ 10 * unit (scale + 1) :=
    mul_le_mul_of_nonneg_right (by exact_mod_cast hdigit) hpos.le
  push_cast at hlow hhigh
  unfold Truncates
  rw [unit_eq_ten_mul]
  constructor
  · linarith
  · linarith

/-- What is cut off is less than half a unit if its first digit is less than five. -/
theorem Truncates.lt_half {mantissa scale digit : ℕ} {x : ℚ} (hdigit : digit < 5)
    (h : Truncates (10 * mantissa + digit) (scale + 1) x) :
    x < (mantissa + 1 / 2) * unit scale := by
  have hbelow : ((digit : ℚ) + 1) * unit (scale + 1) ≤ 5 * unit (scale + 1) :=
    mul_le_mul_of_nonneg_right (by exact_mod_cast hdigit) (unit_pos _).le
  have hhigh := h.2
  push_cast at hhigh
  rw [unit_eq_ten_mul]
  linarith

/-- What is cut off is half a unit or more if its first digit is five or more. -/
theorem Truncates.half_le {mantissa scale digit : ℕ} {x : ℚ} (hdigit : 5 ≤ digit)
    (h : Truncates (10 * mantissa + digit) (scale + 1) x) :
    (mantissa + 1 / 2) * unit scale ≤ x := by
  have habove : 5 * unit (scale + 1) ≤ digit * unit (scale + 1) :=
    mul_le_mul_of_nonneg_right (by exact_mod_cast hdigit) (unit_pos _).le
  have hlow := h.1
  push_cast at hlow
  rw [unit_eq_ten_mul]
  linarith

/-- All places together are worth less than one unit in front of them. -/
theorem truncates_extended {places : List Char} (h : Grammar.Digits places)
    (mantissa scale : ℕ) : Truncates mantissa scale (extended mantissa scale places) := by
  induction places generalizing mantissa scale with
  | nil =>
    have hpos := unit_pos scale
    rw [extended_nil]
    exact ⟨le_rfl, by linarith⟩
  | cons c places ih =>
    obtain ⟨hc, hplaces⟩ := List.forall_mem_cons.1 h
    rw [extended_cons]
    exact (ih hplaces _ _).of_digit (digitValue_lt hc)

/-! ## §3. The error of a reading. -/

/-- Only the largest mantissa overflows.  It is replaced by a number of five units more, of the place
that is given up. -/
theorem unit_of_overflow {mantissa : ℕ} (hmantissa : mantissa < mantissaBound)
    (hover : ¬ mantissa + 1 < mantissaBound) (scale : ℕ) :
    ((mantissa + 1 + 4) / 10 : ℕ) * unit scale = (mantissa + 1 + 4) * unit (scale + 1) := by
  have htenth : 10 * ((mantissa + 1 + 4) / 10) = mantissa + 1 + 4 := by
    unfold mantissaBound at *
    omega
  calc ((mantissa + 1 + 4) / 10 : ℕ) * unit scale
      = (10 * ((mantissa + 1 + 4) / 10) : ℕ) * unit (scale + 1) := by
        rw [unit_eq_ten_mul scale]
        push_cast
        ring
    _ = (mantissa + 1 + 4) * unit (scale + 1) := by
        rw [htenth]
        push_cast
        rfl

/-- **THE DIGIT AT THE CUT ROUNDS TO HALF A UNIT**, whatever follows it. -/
theorem roundAt_error {mantissa scale digit m k : ℕ} {x : ℚ} (hmantissa : mantissa < mantissaBound)
    (hdigit : digit < 10) (hx : Truncates (10 * mantissa + digit) (scale + 1) x)
    (h : roundAt mantissa scale digit = some (m, k)) :
    |m * unit k - x| ≤ 1 / 2 * unit k := by
  obtain ⟨hlow, hhigh⟩ := hx.of_digit hdigit
  have hpos := unit_pos scale
  unfold roundAt at h
  by_cases hdown : digit < 5
  · -- rounded down
    have hhalf := hx.lt_half hdown
    rw [if_pos hdown] at h
    cases h
    rw [abs_le]
    constructor
    · linarith
    · linarith
  · have hhalf := hx.half_le (Nat.le_of_not_lt hdown)
    rw [if_neg hdown] at h
    by_cases hfits : mantissa + 1 < mantissaBound
    · -- rounded up
      rw [if_pos hfits] at h
      cases h
      push_cast
      rw [abs_le]
      constructor
      · linarith
      · linarith
    · -- five units up, which are half a unit of the last place that is left
      rw [if_neg hfits] at h
      cases scale with
      | zero => cases h
      | succ scale =>
        cases h
        rw [Nat.add_sub_cancel, unit_of_overflow hmantissa hfits scale, unit_eq_ten_mul scale,
          abs_le]
        constructor
        · linarith
        · linarith

theorem appendPlaces_error {mantissa scale m k : ℕ} {places : List Char}
    (hmantissa : mantissa < mantissaBound) (hplaces : Grammar.Digits places)
    (h : appendPlaces mantissa scale places = some (m, k)) :
    |m * unit k - extended mantissa scale places| ≤ 1 / 2 * unit k := by
  induction places generalizing mantissa scale with
  | nil =>
    cases h
    have hpos := unit_pos k
    rw [extended_nil, sub_self, abs_zero]
    linarith
  | cons c places ih =>
    obtain ⟨hc, hplaces⟩ := List.forall_mem_cons.1 hplaces
    unfold appendPlaces at h
    rw [extended_cons]
    split at h
    · next hfits => exact ih hfits.2 hplaces h
    · have htruncates := truncates_extended hplaces (10 * mantissa + digitValue c) (scale + 1)
      exact roundAt_error hmantissa (digitValue_lt hc) htruncates h

/-- No place is made up. -/
theorem appendPlaces_scale_le {mantissa scale m k : ℕ} {places : List Char}
    (hmantissa : mantissa < mantissaBound)
    (h : appendPlaces mantissa scale places = some (m, k)) : k ≤ scale + places.length := by
  induction places generalizing mantissa scale with
  | nil =>
    cases h
    exact Nat.le_refl _
  | cons c places ih =>
    rw [List.length_cons]
    unfold appendPlaces at h
    split at h
    · next hfits =>
      have hle := ih hfits.2 h
      omega
    · have hle := (roundAt_bounds hmantissa h).2
      omega

/-! ## §4. Which readings are refused. -/

/-- Only the largest integer cannot be rounded up. -/
theorem isSome_roundAt {mantissa scale digit : ℕ}
    (h : 0 < scale ∨ mantissa + 1 < mantissaBound) : (roundAt mantissa scale digit).isSome := by
  unfold roundAt
  split
  · rfl
  · split
    · rfl
    · have hscale : scale ≠ 0 := by omega
      rw [if_neg hscale]
      rfl

/-- Once a place is read, the reading is never refused. -/
theorem isSome_appendPlaces {mantissa scale : ℕ} {places : List Char}
    (h : 0 < scale ∨ mantissa + 1 < mantissaBound) :
    (appendPlaces mantissa scale places).isSome := by
  induction places generalizing mantissa scale with
  | nil => rfl
  | cons c places ih =>
    unfold appendPlaces
    split
    · exact ih (.inl (Nat.succ_pos scale))
    · exact isSome_roundAt h

theorem isSome_ofFraction? {integer : List Char} (places : List Char)
    (h : digitsValue integer + 1 < mantissaBound) : (ofFraction? integer places).isSome := by
  have hlt : digitsValue integer < mantissaBound := by omega
  unfold ofFraction?
  rw [if_pos hlt, Option.isSome_map]
  exact isSome_appendPlaces (.inr h)

/-! ## §5. What is read from digits. -/

/-- The decimal is what the digits around a point denote, as far as a decimal can hold it. -/
structure Faithful (integer places : List Char) (d : Decimal) : Prop where
  /-- The mantissa is a 96-bit word. -/
  mantissa_lt : d.mantissa < 2 ^ 96
  /-- There are at most 28 places, and none that was not written. -/
  scale_le : d.scale ≤ min 28 places.length
  /-- The error is half a unit of the last place at most. -/
  error_le : |d.magnitude - exactValue integer places| ≤ 1 / 2 * unit d.scale
  /-- Digits that fit are all kept, zeros at the end too. -/
  exact_of_fits : places.length ≤ 28 → digitsValue (integer ++ places) < 2 ^ 96 →
    d.mantissa = digitsValue (integer ++ places) ∧ d.scale = places.length

/-- The sign has no part in it. -/
theorem Faithful.neg {integer places : List Char} {d : Decimal} (h : Faithful integer places d) :
    Faithful integer places (-d) :=
  ⟨h.mantissa_lt, h.scale_le, h.error_le, h.exact_of_fits⟩

theorem mantissaBound_eq : mantissaBound = 2 ^ 96 := rfl

theorem faithful_of_ofInteger? {digits : List Char} {d : Decimal} (h : ofInteger? digits = some d) :
    Faithful digits [] d := by
  obtain ⟨hlt, hd⟩ := ofInteger?_eq_some_iff.1 h
  have hpos := unit_pos d.scale
  refine ⟨?_, ?_, ?_, fun _ _ => ?_⟩
  · rw [hd]
    exact hlt
  · rw [hd]
    exact Nat.zero_le _
  · rw [magnitude_eq, exactValue_eq, extended_nil, hd, sub_self, abs_zero]
    rw [hd] at hpos
    linarith
  · rw [hd, List.append_nil]
    exact ⟨rfl, rfl⟩

theorem faithful_of_ofFraction? {integer places : List Char} {d : Decimal}
    (hplaces : Grammar.Digits places) (h : ofFraction? integer places = some d) :
    Faithful integer places d := by
  obtain ⟨hlt, m, k, hread, hd⟩ := ofFraction?_eq_some_iff.1 h
  subst hd
  have hbounds := appendPlaces_bounds hlt (Nat.zero_le _) hread
  have hwritten := appendPlaces_scale_le hlt hread
  rw [Nat.zero_add] at hwritten
  refine ⟨hbounds.1, le_min hbounds.2 hwritten, ?_, fun hlength hvalue => ?_⟩
  · rw [magnitude_eq, exactValue_eq]
    exact appendPlaces_error hlt hplaces hread
  · -- all places fit, so they are all read
    rw [digitsValue_append] at hvalue ⊢
    have hscale : 0 + places.length ≤ maxScale := by
      rw [Nat.zero_add]
      exact hlength
    rw [appendPlaces_eq_some hscale hvalue, Nat.zero_add] at hread
    cases hread
    exact ⟨rfl, rfl⟩

end Decimal

namespace Grammar

open ExprText.Parser

/-! ## §6. Numbers without a sign. -/

/-- `Unsigned u integer places`: the text `u` is a number without a sign, with these digits before
and after its point. -/
inductive Unsigned : List Char → List Char → List Char → Prop where
  /-- Digits without a point, at least one. -/
  | integer {digits : List Char} (hne : digits ≠ []) (hdigits : Digits digits) :
      Unsigned digits digits []
  /-- Digits around a point, at least one of them behind it. -/
  | fraction {integer places : List Char} (hinteger : Digits integer) (hplaces : Digits places)
      (hne : places ≠ []) : Unsigned (integer ++ '.' :: places) integer places

theorem Unsigned.ne_nil {u integer places : List Char} (h : Unsigned u integer places) :
    u ≠ [] := by
  cases h with
  | integer hne _ => exact hne
  | fraction _ _ _ => simp

/-- A numeral is the text of its digits, and its decimal is faithful to them. -/
theorem Numeral.faithful {u : List Char} {d : Decimal} (h : Numeral u d) :
    ∃ integer places, Unsigned u integer places ∧ Decimal.Faithful integer places d := by
  cases h with
  | integer hne hdigits hvalue =>
    exact ⟨u, [], .integer hne hdigits, Decimal.faithful_of_ofInteger? hvalue⟩
  | @fraction integer places _ hinteger hplaces hne hvalue =>
    exact ⟨integer, places, .fraction hinteger hplaces hne,
      Decimal.faithful_of_ofFraction? hplaces hvalue⟩

/-- The digits in front of a text are its integer part, wherever the reading stops. -/
theorem digitsValue_lt_of_unsignedNumber {s r : List Char} {d : Decimal}
    (h : unsignedNumber.run s = .ok d r) :
    Decimal.digitsValue (s.takeWhile Char.isDigit) < Decimal.mantissaBound := by
  rcases orElse_eq_ok_iff.1 h with hfraction | ⟨_, hinteger⟩
  · obtain ⟨w, w', hs, hw, _, _, _, hvalue⟩ := unsignedFraction_eq_ok_iff.1 hfraction
    have hpoint : Stops Char.isDigit ('.' :: (w' ++ r)) := stops_cons.2 (by decide)
    obtain ⟨htake, _⟩ := eq_append_iff.1 ⟨hs, hw, hpoint⟩
    rw [← htake]
    exact (Decimal.ofFraction?_eq_some_iff.1 hvalue).1
  · obtain ⟨w, hs, _, hw, hr, hvalue⟩ := unsignedInteger_eq_ok_iff.1 hinteger
    obtain ⟨htake, _⟩ := eq_append_iff.1 ⟨hs, hw, hr⟩
    rw [← htake]
    exact (Decimal.ofInteger?_eq_some_iff.1 hvalue).1

/-- A text is a run of digits and a text that stops it. -/
theorem digits_split (s : List Char) :
    s = s.takeWhile Char.isDigit ++ s.dropWhile Char.isDigit ∧ Digits (s.takeWhile Char.isDigit) ∧
      Stops Char.isDigit (s.dropWhile Char.isDigit) :=
  eq_append_iff.2 ⟨rfl, rfl⟩

/-- Digits in range are read where they stand in front. -/
theorem succeeded_unsignedInteger {s : List Char} (hne : s.takeWhile Char.isDigit ≠ [])
    (hlt : Decimal.digitsValue (s.takeWhile Char.isDigit) < Decimal.mantissaBound) :
    (unsignedInteger.run s).succeeded = true := by
  obtain ⟨hs, hdigits, hr⟩ := digits_split s
  have hvalue := Decimal.ofInteger?_eq_some_iff.2 ⟨hlt, rfl⟩
  have hrun := unsignedInteger_eq_ok_iff.2 ⟨_, hs, hne, hdigits, hr, hvalue⟩
  exact Reply.succeeded_eq_true_iff.2 ⟨_, _, hrun⟩

/-- Places without digits in front of them are read, however many they are. -/
theorem succeeded_unsignedFraction {places r : List Char} (hne : places ≠ [])
    (hplaces : Digits places) : (unsignedFraction.run ('.' :: (places ++ r))).succeeded = true := by
  obtain ⟨hs, hdigits, hr⟩ := digits_split (places ++ r)
  have hne' : (places ++ r).takeWhile Char.isDigit ≠ [] := by
    rw [List.takeWhile_append_of_pos hplaces]
    simp [hne]
  have hnil : Digits [] := by
    intro c hc
    cases hc
  have hzero : Decimal.digitsValue [] + 1 < Decimal.mantissaBound := by decide
  obtain ⟨d, hd⟩ := Option.isSome_iff_exists.1
    (Decimal.isSome_ofFraction? ((places ++ r).takeWhile Char.isDigit) hzero)
  have hrun : unsignedFraction.run ('.' :: (places ++ r)) =
      .ok d ((places ++ r).dropWhile Char.isDigit) :=
    unsignedFraction_eq_ok_iff.2 ⟨[], _, congrArg ('.' :: ·) hs, hnil, hne', hdigits, hr, hd⟩
  exact Reply.succeeded_eq_true_iff.2 ⟨d, _, hrun⟩

/-- **A number in front of a text is read, unless its integer part is out of range.** -/
theorem succeeded_unsignedNumber_iff {s : List Char} :
    (unsignedNumber.run s).succeeded = true ↔
      (∃ u integer places r, s = u ++ r ∧ Unsigned u integer places) ∧
        Decimal.digitsValue (s.takeWhile Char.isDigit) < Decimal.mantissaBound := by
  constructor
  · intro h
    obtain ⟨d, r, hrun⟩ := Reply.succeeded_eq_true_iff.1 h
    obtain ⟨u, hs, hu, _⟩ := numeral_of_unsignedNumber hrun
    obtain ⟨integer, places, hunsigned, _⟩ := hu.faithful
    exact ⟨⟨u, integer, places, r, hs, hunsigned⟩, digitsValue_lt_of_unsignedNumber hrun⟩
  · intro ⟨⟨u, integer, places, r, hs, hu⟩, hlt⟩
    show ((unsignedFraction.orElse unsignedInteger).run s).succeeded = true
    rw [succeeded_orElse, Bool.or_eq_true]
    by_cases hnil : s.takeWhile Char.isDigit = []
    · -- without digits in front, the text starts with the point
      left
      subst hs
      cases hu with
      | integer hne hdigits =>
        rw [List.takeWhile_append_of_pos hdigits, List.append_eq_nil_iff] at hnil
        exact absurd hnil.1 hne
      | fraction hinteger hplaces hne =>
        rw [List.append_assoc, List.takeWhile_append_of_pos hinteger, List.append_eq_nil_iff] at hnil
        rw [hnil.1]
        exact succeeded_unsignedFraction hne hplaces
    · right
      exact succeeded_unsignedInteger hnil hlt

/-! ## §7. Numbers with a sign. -/

/-- No sign, or one. -/
def AtMostOneSign (w : List Char) : Prop :=
  w = [] ∨ w = ['+'] ∨ w = ['-']

/-- The text behind its sign, or the whole text if it starts with no sign. -/
def withoutSign : List Char → List Char
  | [] => []
  | c :: s => if c = '+' ∨ c = '-' then s else c :: s

theorem withoutSign_cons (c : Char) (s : List Char) :
    withoutSign (c :: s) = if c = '+' ∨ c = '-' then s else c :: s :=
  rfl

theorem withoutSign_of_head_ne {s : List Char} (hplus : s.head? ≠ some '+')
    (hminus : s.head? ≠ some '-') : withoutSign s = s := by
  cases s with
  | nil => rfl
  | cons c s =>
    have hsign : ¬ (c = '+' ∨ c = '-') := by
      rintro (hc | hc)
      · exact hplus (congrArg some hc)
      · exact hminus (congrArg some hc)
    rw [withoutSign_cons, if_neg hsign]

/-- What `withoutSign` takes off is at most one sign. -/
theorem exists_sign (s : List Char) : ∃ sign, AtMostOneSign sign ∧ s = sign ++ withoutSign s := by
  cases s with
  | nil => exact ⟨[], .inl rfl, rfl⟩
  | cons c s =>
    rw [withoutSign_cons]
    by_cases hc : c = '+' ∨ c = '-'
    · rw [if_pos hc]
      refine ⟨[c], ?_, rfl⟩
      rcases hc with hc | hc
      · exact .inr (.inl (by rw [hc]))
      · exact .inr (.inr (by rw [hc]))
    · rw [if_neg hc]
      exact ⟨[], .inl rfl, rfl⟩

/-- **A number is read behind its sign**, and a minus sign negates it. -/
theorem number_eq_ok_iff_withoutSign {s r : List Char} {d : Decimal} :
    number.run s = .ok d r ↔
      ∃ d', unsignedNumber.run (withoutSign s) = .ok d' r ∧
        d = if s.head? = some '-' then -d' else d' := by
  rw [number_eq_ok_iff]
  constructor
  · rintro (hrun | ⟨t, rfl, hrun⟩ | ⟨t, d', rfl, hrun, rfl⟩)
    · obtain ⟨hplus, hminus⟩ := head_ne_sign_of_unsignedNumber hrun
      rw [withoutSign_of_head_ne hplus hminus]
      exact ⟨d, hrun, (if_neg hminus).symm⟩
    · exact ⟨d, hrun, rfl⟩
    · exact ⟨d', hrun, rfl⟩
  · intro ⟨d', hrun, hd⟩
    by_cases hminus : s.head? = some '-'
    · obtain ⟨t, rfl⟩ := List.head?_eq_some_iff.1 hminus
      exact .inr (.inr ⟨t, d', rfl, hrun, hd.symm⟩)
    · rw [if_neg hminus] at hd
      subst hd
      by_cases hplus : s.head? = some '+'
      · obtain ⟨t, rfl⟩ := List.head?_eq_some_iff.1 hplus
        exact .inr (.inl ⟨t, rfl, hrun⟩)
      · rw [withoutSign_of_head_ne hplus hminus] at hrun
        exact .inl hrun

theorem succeeded_number (s : List Char) :
    (number.run s).succeeded = (unsignedNumber.run (withoutSign s)).succeeded := by
  rw [Bool.eq_iff_iff, Reply.succeeded_eq_true_iff, Reply.succeeded_eq_true_iff]
  constructor
  · intro ⟨d, r, h⟩
    obtain ⟨d', hrun, _⟩ := number_eq_ok_iff_withoutSign.1 h
    exact ⟨d', r, hrun⟩
  · intro ⟨d', r, hrun⟩
    exact ⟨_, r, number_eq_ok_iff_withoutSign.2 ⟨d', hrun, rfl⟩⟩

/-- **NUMBERS ARE READ FAITHFULLY.**  A text is refused if there is no number behind its sign, or if
the digits in front of the point are out of range, and in no other case.  What is read consists of
at most one sign and a number, and the decimal has that sign, zero too, and is faithful to the
digits. -/
theorem number_faithful (s : List Char) :
    ((number.run s).succeeded = false ↔
      (¬ ∃ u integer places r, withoutSign s = u ++ r ∧ Unsigned u integer places) ∨
        2 ^ 96 ≤ Decimal.digitsValue ((withoutSign s).takeWhile Char.isDigit)) ∧
    ∀ d r, number.run s = .ok d r →
      ∃ sign u integer places, s = sign ++ u ++ r ∧ AtMostOneSign sign ∧
        Unsigned u integer places ∧ (d.negative = true ↔ (sign ++ u).head? = some '-') ∧
        Decimal.Faithful integer places d := by
  constructor
  · rw [← Bool.not_eq_true, succeeded_number, succeeded_unsignedNumber_iff, not_and_or, Nat.not_lt,
      Decimal.mantissaBound_eq]
  · intro d r h
    obtain ⟨d', hrun, hd⟩ := number_eq_ok_iff_withoutSign.1 h
    obtain ⟨u, hs, hu, _⟩ := numeral_of_unsignedNumber hrun
    obtain ⟨integer, places, hunsigned, hfaithful⟩ := hu.faithful
    obtain ⟨sign, hsign, hsplit⟩ := exists_sign s
    rw [hs, ← List.append_assoc] at hsplit
    have hne : sign ++ u ≠ [] := by simp [hunsigned.ne_nil]
    have hhead : s.head? = (sign ++ u).head? := by
      rw [hsplit, List.head?_append_of_ne_nil _ hne]
    refine ⟨sign, u, integer, places, hsplit, hsign, hunsigned, ?_, ?_⟩
    · rw [← hhead, hd]
      by_cases hminus : s.head? = some '-'
      · rw [if_pos hminus, Decimal.negative_neg, hu.negative_eq]
        exact ⟨fun _ => hminus, fun _ => rfl⟩
      · rw [if_neg hminus, hu.negative_eq]
        exact ⟨fun hfalse => absurd hfalse (by decide), fun hhead => absurd hhead hminus⟩
    · rw [hd]
      split
      · exact hfaithful.neg
      · exact hfaithful

/-- The largest mantissa, and a five behind it: the reading goes up by one unit, and has to give up
a place to hold it. -/
theorem number_faithful_at_largest_mantissa :
    number.run "-7.92281625142643375935439503355 + x".toList =
      .ok ⟨true, 7922816251426433759354395034, 27⟩ " + x".toList ∧
    ∃ sign u integer places,
      "-7.92281625142643375935439503355 + x".toList = sign ++ u ++ " + x".toList ∧
        AtMostOneSign sign ∧ Unsigned u integer places ∧ (sign ++ u).head? = some '-' ∧
        Decimal.Faithful integer places ⟨true, 7922816251426433759354395034, 27⟩ := by
  have hrun : number.run "-7.92281625142643375935439503355 + x".toList =
      .ok ⟨true, 7922816251426433759354395034, 27⟩ " + x".toList := by
    decide +kernel
  obtain ⟨sign, u, integer, places, hs, hsign, hunsigned, hnegative, hfaithful⟩ :=
    (number_faithful "-7.92281625142643375935439503355 + x".toList).2 _ _ hrun
  exact ⟨hrun, sign, u, integer, places, hs, hsign, hunsigned, hnegative.1 rfl, hfaithful⟩

end Grammar

end ExprText
