/-
  ExprText.Proofs.Lossless
  ────────────────────────
  **COMBINATORS THAT KEEP VALUES LOSE NO TEXT.**

  A parser is lossless if the text that it has read can be written again from its
  value alone:

      p.run s = .ok a t   →   s = written a ++ t

  The combinators that keep the values of their parts keep this, and the text of
  the new value is put together as the value is:

      seq, bindWith      the text of the first value, then that of the second
      orElse             the text of the value, whichever alternative it is from
      optional           the text of the value, or nothing
      many, many1        the texts of all values, in order
      filterMap          the text of the old value, if the function keeps it

  Nothing is asked of a part but that it is lossless.  It may read nothing, and
  where it fails it may leave what it likes, for an alternative starts again on
  the whole text.

  Main statement: `lossless_of_composed`, for parsers that are put together in any
  number of steps.
-/
import ExprText.Parser.Repeat

namespace ExprText.Parser

variable {α β γ : Type}

/-- What is read is what is written: the text of the value, and the rest behind it, is the whole
text. -/
def Lossless (p : Parser α) (written : α → List Char) : Prop :=
  ∀ s a t, p.run s = .ok a t → s = written a ++ t

/-! ## §1. Characters and texts. -/

theorem lossless_satisfy (isMember : Char → Bool) :
    (satisfy isMember).Lossless fun c => [c] := by
  intro s c t h
  exact (satisfy_eq_ok_iff.1 h).1

theorem lossless_text (expected : String) : (text expected).Lossless String.toList := by
  intro s value t h
  obtain ⟨hs, hvalue⟩ := text_eq_ok_iff.1 h
  rw [hvalue]
  exact hs

/-! ## §2. Sequences. -/

section

variable {p q : Parser α} {written : α → List Char}

/-- The text of the second value may be written in a way that depends on the first. -/
theorem Lossless.bindWith {next : α → Parser β} {writtenNext : α → β → List Char}
    {combine : α → β → γ} {writtenBoth : γ → List Char} (hp : p.Lossless written)
    (hnext : ∀ a, (next a).Lossless (writtenNext a))
    (hboth : ∀ a b, writtenBoth (combine a b) = written a ++ writtenNext a b) :
    (p.bindWith next combine).Lossless writtenBoth := by
  intro s c u h
  obtain ⟨a, t, b, ha, hb, hc⟩ := bindWith_eq_ok_iff.1 h
  have hs := hp s a t ha
  have ht := hnext a t b u hb
  calc s = written a ++ t := hs
    _ = written a ++ (writtenNext a b ++ u) := by rw [← ht]
    _ = writtenBoth c ++ u := by rw [← hc, hboth, List.append_assoc]

/-- A pair is written as its two parts are. -/
theorem Lossless.bindWith_pair {next : α → Parser β} {writtenNext : α → β → List Char}
    (hp : p.Lossless written) (hnext : ∀ a, (next a).Lossless (writtenNext a)) :
    (p.bindWith next Prod.mk).Lossless fun ab => written ab.1 ++ writtenNext ab.1 ab.2 :=
  hp.bindWith hnext fun _ _ => rfl

theorem Lossless.seq {q : Parser β} {written' : β → List Char} (hp : p.Lossless written)
    (hq : q.Lossless written') : (p.seq q).Lossless fun ab => written ab.1 ++ written' ab.2 :=
  hp.bindWith_pair fun _ => hq

/-! ## §3. Other values, and alternatives. -/

/-- A value that is rejected is no loss: the parser fails. -/
theorem Lossless.filterMap {f : α → Option β} {written' : β → List Char} (hp : p.Lossless written)
    (hkeeps : ∀ a b, f a = some b → written' b = written a) :
    (p.filterMap f).Lossless written' := by
  intro s b t h
  obtain ⟨a, ha, hb⟩ := filterMap_eq_ok_iff.1 h
  rw [hkeeps a b hb]
  exact hp s a t ha

/-- The second alternative starts on the whole text, whatever the first one has left. -/
theorem Lossless.orElse (hp : p.Lossless written) (hq : q.Lossless written) :
    (p.orElse q).Lossless written := by
  intro s a t h
  rcases orElse_eq_ok_iff.1 h with hfirst | ⟨_, hsecond⟩
  · exact hp s a t hfirst
  · exact hq s a t hsecond

theorem Lossless.optional (hp : p.Lossless written) :
    p.optional.Lossless fun value => value.elim [] written := by
  intro s value t h
  cases hrun : p.run s with
  | ok a u =>
    rw [run_optional_of_ok hrun] at h
    cases h
    exact hp s a _ hrun
  | fail u =>
    -- no value, and nothing is read
    rw [run_optional_of_fail hrun] at h
    cases h
    rfl

/-! ## §4. Repetitions. -/

/-- What a repetition has read is written value by value. -/
theorem Lossless.repeated (hp : p.Lossless written) (s : List Char) :
    s = (p.repeated s).1.flatMap written ++ (p.repeated s).2 := by
  induction hn : s.length using Nat.strongRecOn generalizing s with
  | ind n ih =>
    cases hrun : p.run s with
    | fail t =>
      rw [repeated_of_fail hrun]
      rfl
    | ok a t =>
      by_cases hlt : t.length < s.length
      · -- the first value, and the others by induction
        have hrest := ih t.length (by omega) t rfl
        rw [repeated_of_progress hrun hlt, List.flatMap_cons, List.append_assoc, ← hrest]
        exact hp s a t hrun
      · -- the value is dropped, but nothing was read for it
        rw [repeated_of_stuck hrun (by omega)]
        rfl

theorem Lossless.many (hp : p.Lossless written) :
    p.many.Lossless fun values => values.flatMap written := by
  intro s values t h
  rw [run_many] at h
  cases h
  exact hp.repeated s

/-- A first value that reads nothing is kept, and written as nothing. -/
theorem Lossless.many1 (hp : p.Lossless written) :
    p.many1.Lossless fun values => values.flatMap written :=
  hp.bindWith (fun _ => hp.many) fun _ _ => List.flatMap_cons

end

/-! ## §5. Parsers put together in any number of steps. -/

/-- The parser is put together from characters, texts and `given` parsers by combinators that keep
the values of their parts; alongside, the way in which its values are written. -/
inductive Composed (given : (α : Type) → Parser α → (α → List Char) → Prop) :
    {α : Type} → Parser α → (α → List Char) → Prop where
  | given {α : Type} {p : Parser α} {written : α → List Char} (h : given α p written) :
      Composed given p written
  | satisfy (isMember : Char → Bool) : Composed given (satisfy isMember) fun c => [c]
  | text (expected : String) : Composed given (text expected) String.toList
  | seq {α β : Type} {p : Parser α} {q : Parser β} {written : α → List Char}
      {written' : β → List Char} (hp : Composed given p written) (hq : Composed given q written') :
      Composed given (p.seq q) fun ab => written ab.1 ++ written' ab.2
  /-- The second parser, and the way in which its values are written, may depend on the first
  value. -/
  | bindWith {α β : Type} {p : Parser α} {next : α → Parser β} {written : α → List Char}
      {writtenNext : α → β → List Char} (hp : Composed given p written)
      (hnext : ∀ a, Composed given (next a) (writtenNext a)) :
      Composed given (p.bindWith next Prod.mk) fun ab => written ab.1 ++ writtenNext ab.1 ab.2
  | orElse {α : Type} {p q : Parser α} {written : α → List Char} (hp : Composed given p written)
      (hq : Composed given q written) : Composed given (p.orElse q) written
  | optional {α : Type} {p : Parser α} {written : α → List Char} (hp : Composed given p written) :
      Composed given p.optional fun value => value.elim [] written
  | many {α : Type} {p : Parser α} {written : α → List Char} (hp : Composed given p written) :
      Composed given p.many fun values => values.flatMap written
  | many1 {α : Type} {p : Parser α} {written : α → List Char} (hp : Composed given p written) :
      Composed given p.many1 fun values => values.flatMap written
  /-- The function keeps the text of every value that it does not reject. -/
  | filterMap {α β : Type} {p : Parser α} {f : α → Option β} {written : α → List Char}
      {written' : β → List Char} (hp : Composed given p written)
      (hkeeps : ∀ a b, f a = some b → written' b = written a) :
      Composed given (p.filterMap f) written'

/-- **WHAT IS PUT TOGETHER FROM LOSSLESS PARSERS IS LOSSLESS**, on every text and in any number of
steps: by sequences, also such whose second part depends on the first value, by alternatives,
optional parts and repetitions, and by functions that keep the text of a value.  Characters and texts
are lossless from the start. -/
theorem lossless_of_composed {given : (α : Type) → Parser α → (α → List Char) → Prop}
    (hgiven : ∀ (α : Type) (p : Parser α) (written : α → List Char),
      given α p written → p.Lossless written)
    {p : Parser α} {written : α → List Char} (h : Composed given p written) :
    p.Lossless written := by
  induction h with
  | given h => exact hgiven _ _ _ h
  | satisfy isMember => exact lossless_satisfy isMember
  | text expected => exact lossless_text expected
  | seq _ _ ihp ihq => exact ihp.seq ihq
  | bindWith _ _ ihp ihnext => exact ihp.bindWith_pair ihnext
  | orElse _ _ ihp ihq => exact ihp.orElse ihq
  | optional _ ih => exact ih.optional
  | many _ ih => exact ih.many
  | many1 _ ih => exact ih.many1
  | filterMap _ hkeeps ih => exact ih.filterMap hkeeps

/-- A letter with an exclamation mark behind it, or a point on its own. -/
def markedLetter : Parser (Option Char × String) :=
  (satisfy Char.isAlpha).optional.bindWith
    (fun letter => text (if letter.isSome then "!" else ".")) Prod.mk

/-- The last letter is read by the repetition, given back, and read again by the second
alternative. -/
theorem lossless_of_composed_markedLetter :
    (markedLetter.many1.seq ((text ";").orElse (text "b;"))).run "a!.b!b;c".toList =
      .ok ([(some 'a', "!"), (none, "."), (some 'b', "!")], "b;") ['c'] ∧
    "a!.b!b;c".toList =
      ([(some 'a', "!"), (none, "."), (some 'b', "!")].flatMap
        (fun letter => letter.1.elim [] (fun c => [c]) ++ letter.2.toList) ++ "b;".toList) ++
        ['c'] := by
  have hrun : (markedLetter.many1.seq ((text ";").orElse (text "b;"))).run "a!.b!b;c".toList =
      .ok ([(some 'a', "!"), (none, "."), (some 'b', "!")], "b;") ['c'] := by
    decide +kernel
  -- the parser of `;` is given, and the others are put together from characters and texts
  have hcomposed : Composed (fun _ p written => p.Lossless written)
      (markedLetter.many1.seq ((text ";").orElse (text "b;"))) fun value =>
        value.1.flatMap (fun letter => letter.1.elim [] (fun c => [c]) ++ letter.2.toList) ++
          value.2.toList :=
    .seq (.many1 (.bindWith (.optional (.satisfy Char.isAlpha)) fun _ => .text _))
      (.orElse (.given (lossless_text ";")) (.text "b;"))
  have hlossless := lossless_of_composed (fun _ _ _ hgiven => hgiven) hcomposed
  exact ⟨hrun, hlossless _ _ _ hrun⟩

end ExprText.Parser
