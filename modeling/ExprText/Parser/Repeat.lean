/-
  ExprText.Parser.Repeat
  ──────────────────────
  **REPETITION.**

  `p.many` runs `p` as often as it succeeds and reads something.  A success that
  reads nothing ends the repetition and its value is dropped, so that every
  repetition ends, whatever `p` is:

      p ──▶ fail                the repetition ends here
      p ──▶ ok, nothing read    the repetition ends here
      p ──▶ ok a, rest shorter  `a` is kept, and `p` runs again on the rest

  On a single character class the repetition is the longest run of its members
  (`run_many_satisfy`).
-/
import ExprText.Parser.Basic

namespace ExprText.Parser

variable {α : Type}

/-- The values of a repetition, and the text it leaves. -/
def repeated (p : Parser α) (s : List Char) : List α × List Char :=
  match p.run s with
  | .ok a t =>
    if t.length < s.length then
      let (as, u) := p.repeated t
      (a :: as, u)
    else ([], s)
  | .fail _ => ([], s)
termination_by s.length

/-- As many values as there are.  It never fails. -/
def many (p : Parser α) : Parser (List α) where
  run s :=
    let (as, u) := p.repeated s
    .ok as u

/-- A first value, which need not read anything, and then as many as there are. -/
def many1 (p : Parser α) : Parser (List α) :=
  p.bindWith (fun _ => p.many) List.cons

/-! ## §1. One step of a repetition. -/

theorem repeated_of_fail {p : Parser α} {s t : List Char} (h : p.run s = .fail t) :
    p.repeated s = ([], s) := by
  rw [repeated, h]

theorem repeated_of_stuck {p : Parser α} {s t : List Char} {a : α} (h : p.run s = .ok a t)
    (hlen : s.length ≤ t.length) : p.repeated s = ([], s) := by
  rw [repeated, h]
  simp only
  rw [if_neg (by omega)]

theorem repeated_of_progress {p : Parser α} {s t : List Char} {a : α} (h : p.run s = .ok a t)
    (hlen : t.length < s.length) :
    p.repeated s = (a :: (p.repeated t).1, (p.repeated t).2) := by
  rw [repeated, h]
  simp only
  rw [if_pos hlen]

theorem run_many (p : Parser α) (s : List Char) :
    p.many.run s = .ok (p.repeated s).1 (p.repeated s).2 := rfl

/-! ## §2. Runs of a character class. -/

theorem repeated_satisfy (isMember : Char → Bool) (s : List Char) :
    (satisfy isMember).repeated s = (s.takeWhile isMember, s.dropWhile isMember) := by
  induction s with
  | nil => exact repeated_of_fail (t := []) rfl
  | cons c s ih =>
    by_cases hc : isMember c = true
    · -- the run goes on behind `c`
      have hrun : (satisfy isMember).run (c :: s) = .ok c s := satisfy_eq_ok_iff.2 ⟨rfl, hc⟩
      rw [repeated_of_progress hrun (by simp), ih]
      simp [hc]
    · -- the run ends in front of `c`
      have hrun : (satisfy isMember).run (c :: s) = .fail (c :: s) := by
        simp [satisfy, hc]
      rw [repeated_of_fail hrun]
      simp [hc]

theorem run_many_satisfy (isMember : Char → Bool) (s : List Char) :
    (satisfy isMember).many.run s = .ok (s.takeWhile isMember) (s.dropWhile isMember) := by
  rw [run_many, repeated_satisfy]

end ExprText.Parser
