/-
  ExprText.Proofs.Iteration
  ─────────────────────────
  **A REPETITION IS THE ONE GREEDY ITERATION OF ITS PARSER.**

  One step of an iteration is a success that leaves less text (`Advances`).  An
  iteration goes on step by step, and is over where the parser fails or reads
  nothing (`Stuck`):

      s = s₀  ──a₁──▶  s₁  ──a₂──▶  …  ──aₙ──▶  sₙ = r,   stuck at r

  From every text there is one such iteration and no other, since a reply is one
  step or none; it has at most as many steps as the text has characters.  That is
  what `many` computes (`many_eq_ok_iff`), so a second repetition finds nothing
  left to do.  `many1` differs only in its first value, which need not have read
  anything.

  Main statement: `many_greedy`.
-/
import ExprText.Parser.Regular

namespace ExprText.Parser

variable {α : Type} {p : Parser α} {s t r : List Char} {a : α} {as : List α}

/-! ## §1. Steps and iterations. -/

/-- One step: the parser succeeds with `a` and leaves less than the whole text. -/
def Advances (p : Parser α) (s : List Char) (a : α) (t : List Char) : Prop :=
  p.run s = .ok a t ∧ t.length < s.length

/-- `Iterates p s as r`: steps lead from the text `s` to the text `r`, and these are their values. -/
inductive Iterates (p : Parser α) : List Char → List α → List Char → Prop where
  | done (s : List Char) : Iterates p s [] s
  | step {s t r : List Char} {a : α} {as : List α} (h : Advances p s a t)
      (hrest : Iterates p t as r) : Iterates p s (a :: as) r

/-- The parser fails on the text, or succeeds without reading anything. -/
def Stuck (p : Parser α) (s : List Char) : Prop :=
  (∃ t, p.run s = .fail t) ∨ ∃ a, p.run s = .ok a s

/-- It does not matter how a step is noticed: a suffix is shorter, in characters or in bytes, as soon
as it is another text. -/
theorem Regular.advances_iff_ne (hp : Regular p) :
    Advances p s a t ↔ p.run s = .ok a t ∧ t ≠ s := by
  constructor
  · intro ⟨hrun, hlt⟩
    refine ⟨hrun, ?_⟩
    intro hwhole
    rw [hwhole] at hlt
    exact Nat.lt_irrefl _ hlt
  · intro ⟨hrun, hne⟩
    have hsuffix := hp.suffix hrun
    have hlen : t.length ≠ s.length := fun h => hne (hsuffix.eq_of_length h)
    exact ⟨hrun, Nat.lt_of_le_of_ne hsuffix.length_le hlen⟩

/-- **A regular parser makes a step or is stuck.** -/
theorem Regular.advances_or_stuck (hp : Regular p) (s : List Char) :
    (∃ a t, Advances p s a t) ∨ Stuck p s := by
  cases hrun : p.run s with
  | fail t => exact .inr (.inl ⟨t, hrun⟩)
  | ok a t =>
    by_cases hwhole : t = s
    · rw [hwhole] at hrun
      exact .inr (.inr ⟨a, hrun⟩)
    · exact .inl ⟨a, t, hp.advances_iff_ne.2 ⟨hrun, hwhole⟩⟩

/-- Every step reads at least one character. -/
theorem Iterates.length_add_le (h : Iterates p s as r) : as.length + r.length ≤ s.length := by
  induction h with
  | done s => simp
  | step hstep _ ih =>
    have hlt := hstep.2
    rw [List.length_cons]
    omega

theorem Iterates.length_lt (h : Iterates p s as r) (hne : as ≠ []) : r.length < s.length := by
  have hle := h.length_add_le
  have hpos := List.length_pos_iff.2 hne
  omega

/-! ## §2. What a repetition computes. -/

theorem repeated_of_advances (h : Advances p s a t) :
    p.repeated s = (a :: (p.repeated t).1, (p.repeated t).2) :=
  repeated_of_progress h.1 h.2

theorem Stuck.repeated_eq (h : Stuck p s) : p.repeated s = ([], s) := by
  rcases h with ⟨t, hfail⟩ | ⟨a, hok⟩
  · exact repeated_of_fail hfail
  · exact repeated_of_stuck hok (Nat.le_refl _)

/-- The repetition takes every step of an iteration, and goes on where the iteration has come to. -/
theorem Iterates.repeated_eq (h : Iterates p s as r) :
    p.repeated s = (as ++ (p.repeated r).1, (p.repeated r).2) := by
  induction h with
  | done s => rfl
  | step hstep _ ih =>
    rw [repeated_of_advances hstep, ih]
    rfl

/-- The repetition is itself an iteration, and ends where there is no further step. -/
theorem Regular.iterates_repeated (hp : Regular p) (s : List Char) :
    Iterates p s (p.repeated s).1 (p.repeated s).2 ∧ Stuck p (p.repeated s).2 := by
  induction hn : s.length using Nat.strongRecOn generalizing s with
  | ind n ih =>
    rcases hp.advances_or_stuck s with ⟨a, t, hstep⟩ | hstuck
    · have hlt := hstep.2
      obtain ⟨hrest, hend⟩ := ih t.length (by omega) t rfl
      rw [repeated_of_advances hstep]
      exact ⟨.step hstep hrest, hend⟩
    · rw [hstuck.repeated_eq]
      exact ⟨.done s, hstuck⟩

/-- **THE GREEDY ITERATION.**  A repetition replies with the iteration that ends where the parser is
stuck, and with no other. -/
theorem many_eq_ok_iff (hp : Regular p) :
    p.many.run s = .ok as r ↔ Iterates p s as r ∧ Stuck p r := by
  rw [run_many, Reply.ok.injEq]
  constructor
  · intro ⟨has, hr⟩
    subst has hr
    exact hp.iterates_repeated s
  · intro ⟨hsteps, hend⟩
    rw [hsteps.repeated_eq, hend.repeated_eq, List.append_nil]
    exact ⟨rfl, rfl⟩

/-- Where an iteration has ended, the repetition finds nothing. -/
theorem Stuck.run_many (h : Stuck p r) : p.many.run r = .ok [] r := by
  rw [Parser.run_many, h.repeated_eq]

/-- A repetition of repetitions makes one step, or none if there was nothing to repeat. -/
theorem run_many_many (hp : Regular p) (h : p.many.run s = .ok as r) :
    p.many.many.run s = .ok (if as.isEmpty then [] else [as]) r := by
  obtain ⟨hsteps, hend⟩ := (many_eq_ok_iff hp).1 h
  have hstuck : Stuck p.many r := .inr ⟨[], hend.run_many⟩
  rw [many_eq_ok_iff hp.many]
  refine ⟨?_, hstuck⟩
  cases as with
  | nil =>
    cases hsteps
    exact .done _
  | cons a as => exact .step ⟨h, hsteps.length_lt (List.cons_ne_nil a as)⟩ (.done r)

/-! ## §3. At least one value. -/

theorem run_many1_of_ok (h : p.run s = .ok a t) :
    p.many1.run s = .ok (a :: (p.repeated t).1) (p.repeated t).2 :=
  bindWith_eq_ok_iff.2 ⟨a, t, _, h, rfl, rfl⟩

theorem run_many1_of_fail (h : p.run s = .fail t) : p.many1.run s = .fail s := by
  unfold many1 Parser.bindWith
  simp only [h]

theorem many1_fails_iff : (∃ t, p.many1.run s = .fail t) ↔ ∃ t, p.run s = .fail t := by
  constructor
  · intro ⟨t, hfail⟩
    cases hrun : p.run s with
    | fail u => exact ⟨u, rfl⟩
    | ok a u =>
      rw [run_many1_of_ok hrun] at hfail
      cases hfail
  · intro ⟨t, hfail⟩
    exact ⟨s, run_many1_of_fail hfail⟩

/-- Where the first value has read something, it is the first step of the iteration. -/
theorem run_many1_of_advances (h : Advances p s a t) : p.many1.run s = p.many.run s := by
  rw [run_many1_of_ok h.1, run_many, repeated_of_advances h]

/-- Where the first value has read nothing, it is the only one. -/
theorem run_many1_of_empty (h : p.run s = .ok a s) : p.many1.run s = .ok [a] s := by
  have hstuck : Stuck p s := .inr ⟨a, h⟩
  rw [run_many1_of_ok h, hstuck.repeated_eq]

/-! ## §4. The greedy iteration. -/

/-- **A REPETITION IS THE ONE GREEDY ITERATION OF ITS PARSER, AND IT ENDS.**

* On every text `many` succeeds, with the values of an iteration that leads to its rest, where the
  parser is stuck.  No other iteration leads to a text where it is stuck, and this one has at most as
  many steps as characters are read.
* `many` finds nothing in that rest, so `many` of `many` finds the whole list once, or nothing if it
  is empty, and leaves the same rest.
* `many1` fails where the parser does, and gives back the whole text.  It replies as `many` if the
  first value has read something, and otherwise with this value alone. -/
theorem many_greedy (hp : Regular p) (s : List Char) :
    (∃ as r, p.many.run s = .ok as r ∧ Iterates p s as r ∧ Stuck p r ∧
      (∀ as' r', Iterates p s as' r' → Stuck p r' → as' = as ∧ r' = r) ∧
      as.length + r.length ≤ s.length ∧
      p.many.run r = .ok [] r ∧
      p.many.many.run s = .ok (if as.isEmpty then [] else [as]) r) ∧
    ((∃ t, p.many1.run s = .fail t) ↔ ∃ t, p.run s = .fail t) ∧
    (∀ t, p.many1.run s = .fail t → t = s) ∧
    (∀ a t, p.run s = .ok a t → t.length < s.length → p.many1.run s = p.many.run s) ∧
    (∀ a, p.run s = .ok a s → p.many1.run s = .ok [a] s) := by
  refine ⟨?_, many1_fails_iff, fun _ h => bindWith_fail h,
    fun _ _ h hlt => run_many1_of_advances ⟨h, hlt⟩, fun _ h => run_many1_of_empty h⟩
  have hrun := run_many p s
  obtain ⟨hsteps, hend⟩ := (many_eq_ok_iff hp).1 hrun
  refine ⟨_, _, hrun, hsteps, hend, ?_, hsteps.length_add_le, hend.run_many,
    run_many_many hp hrun⟩
  intro as' r' hsteps' hend'
  have hrun' := (many_eq_ok_iff hp).2 ⟨hsteps', hend'⟩
  rw [hrun] at hrun'
  cases hrun'
  exact ⟨rfl, rfl⟩

/-- A digit that may be missing: the repetition stops at the first success that reads nothing, and
drops its value, but `many1` keeps it where it is the first one. -/
theorem many_greedy_optional_digit :
    Regular (satisfy Char.isDigit).optional ∧
    (satisfy Char.isDigit).optional.many.run "12a".toList = .ok [some '1', some '2'] "a".toList ∧
    (satisfy Char.isDigit).optional.many.many.run "12a".toList =
      .ok [[some '1', some '2']] "a".toList ∧
    (satisfy Char.isDigit).optional.many1.run "12a".toList =
      .ok [some '1', some '2'] "a".toList ∧
    (satisfy Char.isDigit).optional.many1.run "a".toList = .ok [none] "a".toList := by
  have hp : Regular (satisfy Char.isDigit).optional := (regular_satisfy _).optional
  obtain ⟨⟨as, r, hmany, _, _, hunique, _, _, htwice⟩, _, _, hread, _⟩ :=
    many_greedy hp "12a".toList
  obtain ⟨_, _, _, _, hempty⟩ := many_greedy hp "a".toList
  -- the iteration: one digit, another digit, and then a success that reads nothing
  have hsteps : Iterates (satisfy Char.isDigit).optional "12a".toList [some '1', some '2']
      "a".toList :=
    .step ⟨rfl, by decide⟩ (.step ⟨rfl, by decide⟩ (.done _))
  obtain ⟨has, hr⟩ := hunique _ _ hsteps (.inr ⟨none, rfl⟩)
  subst has hr
  exact ⟨hp, hmany, htwice, (hread (some '1') "2a".toList rfl (by decide)).trans hmany,
    hempty none rfl⟩

end ExprText.Parser
