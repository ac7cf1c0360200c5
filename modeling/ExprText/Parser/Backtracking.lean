/-
  ExprText.Parser.Backtracking
  ────────────────────────────
  **FAILURES THAT GIVE BACK THE WHOLE TEXT.**

  A failure reports a rest, from which reading may go on in another way.

      Backtracking p    a failure reports the whole text
      NeverFails p      there are no failures

  The combinators differ in what they do with the rest of a failed part:

      sequences         give back the whole text, whatever their parts report
      map, filterMap    pass the rest on
      choice            passes on the rest of its second alternative
      optional, many    never fail

  So a sequence is backtracking at once, and the others are if a part is.
-/
import ExprText.Parser.Repeat

namespace ExprText.Parser

variable {α β γ : Type}

/-- Every failure reports the whole text as left. -/
def Backtracking (p : Parser α) : Prop :=
  ∀ s t, p.run s = .fail t → t = s

/-- Every reply is a success. -/
def NeverFails (p : Parser α) : Prop :=
  ∀ s, (p.run s).succeeded = true

theorem NeverFails.backtracking {p : Parser α} (h : NeverFails p) : Backtracking p := by
  intro s t hp
  have hs := h s
  rw [hp] at hs
  cases hs

/-! ## §1. Parsers without parts. -/

theorem neverFails_pure (a : α) : NeverFails (Parser.pure a) :=
  fun _ => rfl

theorem backtracking_failure : Backtracking (Parser.failure : Parser α) := by
  intro s t h
  cases h
  rfl

theorem backtracking_satisfy (isMember : Char → Bool) : Backtracking (satisfy isMember) :=
  fun _ _ h => satisfy_fail h

theorem backtracking_text (expected : String) : Backtracking (text expected) :=
  fun _ _ h => text_fail h

/-! ## §2. Changed values. -/

theorem Backtracking.map {p : Parser α} (hp : Backtracking p) (f : α → β) :
    Backtracking (p.map f) := by
  intro s t h
  rw [run_map] at h
  cases hs : p.run s with
  | ok a u =>
    rw [hs] at h
    cases h
  | fail u =>
    rw [hs] at h
    cases h
    exact hp s _ hs

theorem NeverFails.map {p : Parser α} (hp : NeverFails p) (f : α → β) : NeverFails (p.map f) := by
  intro s
  rw [run_map, Reply.succeeded_map]
  exact hp s

/-- A value that is rejected gives back the whole text. -/
theorem Backtracking.filterMap {p : Parser α} (hp : Backtracking p) (f : α → Option β) :
    Backtracking (p.filterMap f) := by
  intro s t h
  unfold Parser.filterMap at h
  cases hs : p.run s with
  | ok a u =>
    cases hf : f a with
    | some b => simp [hs, hf] at h
    | none =>
      simp [hs, hf] at h
      exact h.symm
  | fail u =>
    simp [hs] at h
    rw [← h]
    exact hp s u hs

/-! ## §3. Sequences. -/

theorem backtracking_bindWith (p : Parser α) (next : α → Parser β) (combine : α → β → γ) :
    Backtracking (p.bindWith next combine) :=
  fun _ _ h => bindWith_fail h

theorem backtracking_seq (p : Parser α) (q : Parser β) : Backtracking (p.seq q) :=
  backtracking_bindWith p _ _

theorem backtracking_seqLeft (p : Parser α) (q : Parser β) : Backtracking (p.seqLeft q) :=
  backtracking_bindWith p _ _

theorem backtracking_seqRight (p : Parser α) (q : Parser β) : Backtracking (p.seqRight q) :=
  backtracking_bindWith p _ _

theorem backtracking_many1 (p : Parser α) : Backtracking p.many1 :=
  backtracking_bindWith p _ _

/-! ## §4. Choices and repetitions. -/

/-- The first alternative may report what it likes. -/
theorem Backtracking.orElse {q : Parser α} (hq : Backtracking q) (p : Parser α) :
    Backtracking (p.orElse q) := by
  intro s t h
  cases hs : p.run s with
  | ok a u =>
    rw [run_orElse_of_ok hs] at h
    cases h
  | fail u =>
    rw [run_orElse_of_fail hs] at h
    exact hq s t h

theorem neverFails_optional (p : Parser α) : NeverFails p.optional := by
  intro s
  cases hs : p.run s with
  | ok a t =>
    rw [run_optional_of_ok hs]
    rfl
  | fail t =>
    rw [run_optional_of_fail hs]
    rfl

theorem neverFails_many (p : Parser α) : NeverFails p.many :=
  fun _ => rfl

end ExprText.Parser
