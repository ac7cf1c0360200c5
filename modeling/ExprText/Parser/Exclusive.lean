/-
  ExprText.Parser.Exclusive
  ─────────────────────────
  **ALTERNATIVES THAT EXCLUDE EACH OTHER.**

  A choice tries its alternatives in order, so an early one may hide a later one
  that succeeds on the same text.  Where no text is read by two alternatives
  nothing is hidden, and the order has no effect:

      OpensWith p isMember   what `p` reads starts with a member of the class
      Exclusive p q          no text is read by both

      classes without a common member    the parsers exclude each other
      ps.Pairwise Exclusive              at most one of `ps` succeeds, and the
                                         choice succeeds exactly as it does
      ps.Perm qs                         choice ps = choice qs

  Both sides of the last line give back the whole text where all alternatives
  fail, whatever those report.

  Main statement: `choice_eq_of_perm`.
-/
import ExprText.Parser.Backtracking

namespace ExprText.Parser

variable {α : Type}

/-! ## §1. First characters. -/

/-- Every text that the parser reads starts with a member of the class. -/
def OpensWith (p : Parser α) (isMember : Char → Bool) : Prop :=
  ∀ s a t, p.run s = .ok a t → ∃ c u, s = c :: u ∧ isMember c = true

/-- No text is read by both parsers. -/
def Exclusive (p q : Parser α) : Prop :=
  ∀ s a t b u, p.run s = .ok a t → q.run s ≠ .ok b u

theorem Exclusive.symm {p q : Parser α} (h : Exclusive p q) : Exclusive q p := by
  intro s b u a t hq hp
  exact h s a t b u hp hq

/-- The first character decides between parsers that open with different classes. -/
theorem OpensWith.exclusive {p q : Parser α} {isMember isOther : Char → Bool}
    (hp : p.OpensWith isMember) (hq : q.OpensWith isOther)
    (hdisjoint : ∀ c, isMember c = true → isOther c = false) : Exclusive p q := by
  intro s a t b u hpa hqb
  obtain ⟨c, v, hs, hc⟩ := hp s a t hpa
  obtain ⟨d, w, hs', hd⟩ := hq s b u hqb
  -- both classes hold of the one first character
  rw [hs] at hs'
  cases hs'
  rw [hdisjoint c hc] at hd
  cases hd

/-- A parser that opens with one character excludes those that never do. -/
theorem OpensWith.exclusive_of_char {p q : Parser α} {isMember : Char → Bool} {d : Char}
    (hp : p.OpensWith isMember) (hq : q.OpensWith (· == d)) (hd : isMember d = false) :
    Exclusive p q := by
  refine hp.exclusive hq fun c hc => ?_
  by_cases heq : c = d
  · rw [heq, hd] at hc
    cases hc
  · simpa using heq

/-! ## §2. Which alternative succeeds. -/

/-- Where alternatives exclude each other, none is hidden by those before it. -/
theorem choice_of_mem {ps : List (Parser α)} (hps : ps.Pairwise Exclusive) {p : Parser α}
    (hp : p ∈ ps) {s t : List Char} {a : α} (h : p.run s = .ok a t) :
    (choice ps).run s = .ok a t := by
  induction hps with
  | nil => cases hp
  | @cons q qs hq _ ih =>
    rcases List.mem_cons.1 hp with rfl | hmem
    · exact run_orElse_of_ok h
    · -- `q` cannot read the text that `p` reads
      cases hrun : q.run s with
      | ok b u => exact absurd h (hq p hmem s b u a t hrun)
      | fail u => exact (run_orElse_of_fail hrun).trans (ih hmem)

theorem choice_eq_ok_iff {ps : List (Parser α)} (hps : ps.Pairwise Exclusive) {s t : List Char}
    {a : α} : (choice ps).run s = .ok a t ↔ ∃ p ∈ ps, p.run s = .ok a t := by
  constructor
  · exact exists_of_choice
  · intro ⟨p, hp, h⟩
    exact choice_of_mem hps hp h

/-- **At most one alternative succeeds.** -/
theorem countP_succeeded_le_one {ps : List (Parser α)} (hps : ps.Pairwise Exclusive)
    (s : List Char) : ps.countP (fun p => (p.run s).succeeded) ≤ 1 := by
  induction hps with
  | nil => exact Nat.zero_le 1
  | @cons p ps hp _ ih =>
    by_cases hrun : (p.run s).succeeded = true
    · obtain ⟨a, t, ha⟩ := Reply.succeeded_eq_true_iff.1 hrun
      -- the other alternatives fail on this text
      have hothers : ps.countP (fun q => (q.run s).succeeded) = 0 := by
        rw [List.countP_eq_zero]
        intro q hq hsucceeded
        obtain ⟨b, u, hb⟩ := Reply.succeeded_eq_true_iff.1 hsucceeded
        exact hp q hq s a t b u ha hb
      simp [hothers, hrun]
    · simpa [hrun] using ih

/-! ## §3. The order of alternatives. -/

/-- A failing choice has tried everything, and gives back the whole text. -/
theorem backtracking_choice (ps : List (Parser α)) : Backtracking (choice ps) := by
  induction ps with
  | nil => exact backtracking_failure
  | cons p ps ih => exact ih.orElse p

/-- Parsers whose failures give back the whole text are known by their successes. -/
theorem eq_of_backtracking {p q : Parser α} (hp : Backtracking p) (hq : Backtracking q)
    (h : ∀ s a t, p.run s = .ok a t ↔ q.run s = .ok a t) : p = q := by
  ext s
  cases hrun : p.run s with
  | ok a t => exact ((h s a t).1 hrun).symm
  | fail t =>
    cases hrun' : q.run s with
    | ok b u =>
      rw [(h s b u).2 hrun'] at hrun
      cases hrun
    | fail u => rw [hp s t hrun, hq s u hrun']

/-- **THE ORDER OF ALTERNATIVES THAT EXCLUDE EACH OTHER HAS NO EFFECT.** -/
theorem choice_eq_of_perm {ps qs : List (Parser α)} (hperm : ps.Perm qs)
    (hqs : qs.Pairwise Exclusive) : choice ps = choice qs := by
  have hps : ps.Pairwise Exclusive := (hperm.pairwise_iff Exclusive.symm).2 hqs
  refine eq_of_backtracking (backtracking_choice ps) (backtracking_choice qs) fun s a t => ?_
  rw [choice_eq_ok_iff hps, choice_eq_ok_iff hqs]
  simp only [hperm.mem_iff]

/-! ## §4. Choices written out. -/

theorem orElse_assoc (p q r : Parser α) : (p.orElse q).orElse r = p.orElse (q.orElse r) := by
  ext s
  cases hp : p.run s with
  | ok a t => simp [Parser.orElse, hp]
  | fail t => simp [Parser.orElse, hp]

/-- Behind a parser that gives back the whole text, a failing alternative changes nothing. -/
theorem Backtracking.orElse_failure {p : Parser α} (h : Backtracking p) :
    p.orElse Parser.failure = p := by
  ext s
  cases hp : p.run s with
  | ok a t => exact run_orElse_of_ok hp
  | fail t =>
    rw [run_orElse_of_fail hp, h s t hp]
    rfl

section WrittenOut

variable {ps : List (Parser α)} (hps : ps.Pairwise Exclusive)
  (hback : ∀ p ∈ ps, Backtracking p)

include hps hback

/-- Two alternatives, in either order. -/
theorem orElse_eq_choice_of_perm {p q : Parser α} (hperm : [p, q].Perm ps) :
    p.orElse q = choice ps := by
  have hlast : Backtracking q := hback q (hperm.subset (by simp))
  rw [← choice_eq_of_perm hperm hps]
  show _ = p.orElse (q.orElse Parser.failure)
  rw [hlast.orElse_failure]

/-- Three alternatives, in any order. -/
theorem orElse_orElse_eq_choice_of_perm {p q r : Parser α} (hperm : [p, q, r].Perm ps) :
    (p.orElse q).orElse r = choice ps := by
  have hlast : Backtracking r := hback r (hperm.subset (by simp))
  rw [← choice_eq_of_perm hperm hps, orElse_assoc]
  show _ = p.orElse (q.orElse (r.orElse Parser.failure))
  rw [hlast.orElse_failure]

end WrittenOut

end ExprText.Parser
