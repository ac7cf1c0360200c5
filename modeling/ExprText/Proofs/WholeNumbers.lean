/-
  ExprText.Proofs.WholeNumbers
  ────────────────────────────
  **NUMBERS ARE READ WHOLE, UP TO THE LARGEST ONE.**

  A number takes all the digits it stops at.  With a point and places behind it
  the fraction is tried first, so it is cut off in front of its point only where
  the fraction is refused and the integer alone is not:

      integer part out of range            both are refused
      integer part below the largest one   the fraction is read, rounded
      integer part the largest one         the fraction is read if its first
                                           place rounds down, and refused if not

  In the last case the integer is read and its places are left.  This happens to
  no other number (`number_cut_iff`).
-/
import ExprText.Proofs.Rounding

namespace ExprText

namespace Decimal

/-! ## §1. The fractions that are refused. -/

/-- The digits denote the largest integer, and the place behind them rounds it up. -/
def RoundsPastLargest (integer : List Char) (place : Char) : Prop :=
  digitsValue integer + 1 = mantissaBound ∧ 5 ≤ digitValue place

theorem RoundsPastLargest.lt {integer : List Char} {place : Char}
    (h : RoundsPastLargest integer place) : digitsValue integer < mantissaBound := by
  have hlargest := h.1
  omega

/-- Behind the largest integer no place fits, so the first one rounds. -/
theorem appendPlaces_largest {mantissa : ℕ} (h : mantissa + 1 = mantissaBound) (place : Char)
    (places : List Char) :
    appendPlaces mantissa 0 (place :: places) =
      if digitValue place < 5 then some (mantissa, 0) else none := by
  have hover : ¬ (0 < maxScale ∧ 10 * mantissa + digitValue place < mantissaBound) := by
    unfold mantissaBound at *
    omega
  have hfull : ¬ mantissa + 1 < mantissaBound := by omega
  show (if _ then _ else roundAt mantissa 0 (digitValue place)) = _
  rw [if_neg hover]
  unfold roundAt
  rw [if_neg hfull, if_pos rfl]

/-- **Which fractions are refused**: those whose integer part is out of range, or would be if it were
rounded. -/
theorem ofFraction?_eq_none_iff {integer places : List Char} {place : Char} :
    ofFraction? integer (place :: places) = none ↔
      mantissaBound ≤ digitsValue integer ∨ RoundsPastLargest integer place := by
  unfold ofFraction? RoundsPastLargest
  by_cases hlt : digitsValue integer < mantissaBound
  · rw [if_pos hlt, Option.map_eq_none_iff]
    by_cases hlargest : digitsValue integer + 1 = mantissaBound
    · rw [appendPlaces_largest hlargest]
      by_cases hdown : digitValue place < 5
      · rw [if_pos hdown]
        simp [hlt, hdown]
      · rw [if_neg hdown]
        simp [hlargest, Nat.le_of_not_lt hdown]
    · have hsome : (appendPlaces (digitsValue integer) 0 (place :: places)).isSome :=
        isSome_appendPlaces (.inr (by omega))
      constructor
      · intro hnone
        rw [hnone] at hsome
        cases hsome
      · rintro (hge | ⟨heq, _⟩)
        · omega
        · exact absurd heq hlargest
  · rw [if_neg hlt]
    exact ⟨fun _ => .inl (Nat.le_of_not_lt hlt), fun _ => rfl⟩

end Decimal

namespace Grammar

open ExprText.Parser

/-! ## §2. Where a number is cut. -/

/-- The text goes on with a point and a digit. -/
def OpensPlaces (r : List Char) : Prop :=
  ∃ place r', r = '.' :: place :: r' ∧ place.isDigit = true

/-- The largest integer stands at the front of the text, and the places behind it round it up. -/
def OpensPastLargest (t : List Char) : Prop :=
  ∃ integer place r, t = integer ++ '.' :: place :: r ∧ Digits integer ∧ place.isDigit = true ∧
    Decimal.RoundsPastLargest integer place

theorem not_point_mem_of_digits {w : List Char} (hw : Digits w) : '.' ∉ w := by
  intro hpoint
  exact absurd (hw '.' hpoint) (by decide)

/-- A fraction is split in one way only: all digits in front of its point, and all behind it. -/
theorem unsignedFraction_append_eq_ok_iff {integer t r : List Char} {place : Char} {d : Decimal}
    (hinteger : Digits integer) (hplace : place.isDigit = true) :
    unsignedFraction.run (integer ++ '.' :: place :: t) = .ok d r ↔
      r = t.dropWhile Char.isDigit ∧
        Decimal.ofFraction? integer (place :: t.takeWhile Char.isDigit) = some d := by
  obtain ⟨ht, hdigits, hstop⟩ := digits_split t
  rw [unsignedFraction_eq_ok_iff]
  constructor
  · intro ⟨w, w', hs, hw, hne, hw', hr, hvalue⟩
    -- the digits in front of the point are one run, and so are the digits behind it
    have hpoint : ∀ x : List Char, Stops Char.isDigit ('.' :: x) := fun _ => stops_cons.2 (by decide)
    obtain ⟨hwrun, hrest⟩ := eq_append_iff.1 ⟨hs, hw, hpoint _⟩
    obtain ⟨hirun, hrest'⟩ := eq_append_iff.1 ⟨rfl, hinteger, hpoint (place :: t)⟩
    rw [← hrest', List.cons.injEq] at hrest
    obtain ⟨hw'run, hrrun⟩ := eq_append_iff.1 ⟨hrest.2.symm, hw', hr⟩
    rw [List.takeWhile_cons_of_pos hplace] at hw'run
    rw [List.dropWhile_cons_of_pos hplace] at hrrun
    rw [hwrun, ← hirun, hw'run] at hvalue
    exact ⟨hrrun, hvalue⟩
  · intro ⟨hr, hvalue⟩
    subst hr
    refine ⟨integer, _, ?_, hinteger, List.cons_ne_nil _ _, ?_, hstop, hvalue⟩
    · rw [List.cons_append, ← ht]
    · exact List.forall_mem_cons.2 ⟨hplace, hdigits⟩

/-- Where the largest integer would be rounded up, it is read alone, and its places are left. -/
theorem run_unsignedNumber_of_roundsPast {integer r : List Char} {place : Char}
    (hinteger : Digits integer) (hplace : place.isDigit = true)
    (h : Decimal.RoundsPastLargest integer place) :
    unsignedNumber.run (integer ++ '.' :: place :: r) =
      .ok ⟨false, Decimal.digitsValue integer, 0⟩ ('.' :: place :: r) := by
  have hpoint : Stops Char.isDigit ('.' :: place :: r) := stops_cons.2 (by decide)
  have hne : integer ≠ [] := by
    intro hnil
    have hlargest := h.1
    rw [hnil] at hlargest
    exact absurd hlargest (by decide)
  have hvalue := Decimal.ofInteger?_eq_some_iff.2 ⟨h.lt, rfl⟩
  have hrun := unsignedInteger_eq_ok_iff.2 ⟨integer, rfl, hne, hinteger, hpoint, hvalue⟩
  show (unsignedFraction.orElse unsignedInteger).run _ = _
  cases hfraction : unsignedFraction.run (integer ++ '.' :: place :: r) with
  | fail t => rw [run_orElse_of_fail hfraction, hrun]
  | ok d t =>
    obtain ⟨_, hsome⟩ := (unsignedFraction_append_eq_ok_iff hinteger hplace).1 hfraction
    rw [Decimal.ofFraction?_eq_none_iff.2 (.inr h)] at hsome
    cases hsome

/-- A number without a point that leaves places has had its fraction refused. -/
theorem opensPast_of_cut {c r : List Char} {d : Decimal}
    (h : unsignedNumber.run (c ++ r) = .ok d r) (hpoint : '.' ∉ c) (hplaces : OpensPlaces r) :
    OpensPastLargest (c ++ r) := by
  obtain ⟨place, r', rfl, hplace⟩ := hplaces
  rcases orElse_eq_ok_iff.1 h with hfraction | ⟨⟨u, hfail⟩, hinteger⟩
  · -- a fraction has a point
    obtain ⟨w, w', hs, _⟩ := unsignedFraction_eq_ok_iff.1 hfraction
    have hc : c = w ++ '.' :: w' := List.append_cancel_right (hs.trans (by simp))
    rw [hc] at hpoint
    simp at hpoint
  · obtain ⟨w, hs, _, hw, _, hvalue⟩ := unsignedInteger_eq_ok_iff.1 hinteger
    have hc : c = w := List.append_cancel_right hs
    subst hc
    obtain ⟨hlt, _⟩ := Decimal.ofInteger?_eq_some_iff.1 hvalue
    refine ⟨c, place, r', rfl, hw, hplace, ?_⟩
    cases hfraction : Decimal.ofFraction? c (place :: r'.takeWhile Char.isDigit) with
    | some d' =>
      rw [(unsignedFraction_append_eq_ok_iff hw hplace).2 ⟨rfl, hfraction⟩] at hfail
      cases hfail
    | none =>
      rcases Decimal.ofFraction?_eq_none_iff.1 hfraction with hge | hpast
      · omega
      · exact hpast

/-! ## §3. With a sign or without one. -/

/-- **NUMBERS ARE READ WHOLE, UP TO THE LARGEST ONE.**  What a number leaves never starts with a
digit.  A number without a point leaves a point and places if and only if the integer behind its sign
is the largest one and the first place is five or more. -/
theorem number_cut_iff (s : List Char) :
    (∀ d r, number.run s = .ok d r → Stops Char.isDigit r) ∧
    ((∃ d c r, number.run s = .ok d r ∧ s = c ++ r ∧ '.' ∉ c ∧ OpensPlaces r) ↔
      OpensPastLargest (withoutSign s)) := by
  constructor
  · intro d r h
    obtain ⟨_, hrun, _⟩ := number_eq_ok_iff_withoutSign.1 h
    obtain ⟨_, _, _, hstop⟩ := numeral_of_unsignedNumber hrun
    exact hstop
  · obtain ⟨sign, hsign, hs⟩ := exists_sign s
    constructor
    · intro ⟨d, c, r, h, hsplit, hpoint, hplaces⟩
      obtain ⟨d', hrun, _⟩ := number_eq_ok_iff_withoutSign.1 h
      obtain ⟨u, hu, _⟩ := numeral_of_unsignedNumber hrun
      -- the number that is read is its sign and its digits
      have hc : c = sign ++ u := by
        rw [hu, ← List.append_assoc] at hs
        exact List.append_cancel_right (hsplit.symm.trans hs)
      rw [hu] at hrun ⊢
      refine opensPast_of_cut hrun (fun hmem => hpoint ?_) hplaces
      rw [hc]
      exact List.mem_append_right sign hmem
    · intro ⟨integer, place, r, ht, hinteger, hplace, hpast⟩
      have hrun := run_unsignedNumber_of_roundsPast (r := r) hinteger hplace hpast
      rw [← ht] at hrun
      refine ⟨_, sign ++ integer, _, number_eq_ok_iff_withoutSign.2 ⟨_, hrun, rfl⟩, ?_, ?_,
        place, r, rfl, hplace⟩
      · rw [List.append_assoc, ← ht]
        exact hs
      · rw [List.mem_append, not_or]
        refine ⟨?_, not_point_mem_of_digits hinteger⟩
        rcases hsign with rfl | rfl | rfl <;> decide

/-- A five behind the largest integer, and the number is cut in front of its point. -/
theorem number_cut_behind_largest :
    number.run "79228162514264337593543950335.5".toList =
      .ok ⟨false, 79228162514264337593543950335, 0⟩ ".5".toList ∧
    "79228162514264337593543950335.5".toList =
      "79228162514264337593543950335".toList ++ ".5".toList ∧
    '.' ∉ "79228162514264337593543950335".toList ∧ OpensPlaces ".5".toList :=
  ⟨by decide +kernel, by decide, by decide, '5', [], rfl, by decide⟩

/-- Rounded down, the largest integer is read with all its places. -/
theorem number_cut_iff_below_half :
    number.run "-79228162514264337593543950335.49 + 1".toList =
      .ok ⟨true, 79228162514264337593543950335, 0⟩ " + 1".toList ∧
    Stops Char.isDigit " + 1".toList := by
  have hrun : number.run "-79228162514264337593543950335.49 + 1".toList =
      .ok ⟨true, 79228162514264337593543950335, 0⟩ " + 1".toList := by
    decide +kernel
  exact ⟨hrun, (number_cut_iff _).1 _ _ hrun⟩

end Grammar

end ExprText
