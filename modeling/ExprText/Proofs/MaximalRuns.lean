/-
  ExprText.Proofs.MaximalRuns
  ───────────────────────────
  **BLANKS AND NAMES ARE READ AS FAR AS THEY GO.**

  Two lexical rules repeat a character class until the text goes on otherwise:

      spaces        any characters of White_Space, possibly none
      identifier    one of `A` … `Z`, `a` … `z`, `_`, and then any of these
                    and of `0` … `9`

  Here the classes are given by their members alone, and what is read by the
  character behind it.  Nothing else can be split off in this way, so the reply
  is settled by the text: blanks are always read, and a name is read exactly where
  the text starts with one.

  Main statement: `reads_maximal_runs`.
-/
import ExprText.Proofs.Backtracking

namespace ExprText.Grammar

open ExprText.Parser

/-! ## §1. The classes. -/

/-- The 25 code points with the Unicode property White_Space. -/
def whiteSpace : List Nat :=
  [0x0009, 0x000A, 0x000B, 0x000C, 0x000D, 0x0020, 0x0085, 0x00A0, 0x1680, 0x2000, 0x2001, 0x2002,
   0x2003, 0x2004, 0x2005, 0x2006, 0x2007, 0x2008, 0x2009, 0x200A, 0x2028, 0x2029, 0x202F, 0x205F,
   0x3000]

/-- The characters `[A-Za-z_]`. -/
def StartsName (c : Char) : Prop :=
  ('A' ≤ c ∧ c ≤ 'Z' ∨ 'a' ≤ c ∧ c ≤ 'z') ∨ c = '_'

/-- The characters `[A-Za-z0-9_]`. -/
def ContinuesName (c : Char) : Prop :=
  '0' ≤ c ∧ c ≤ '9' ∨ StartsName c

instance : DecidablePred StartsName := fun _ => inferInstanceAs (Decidable (_ ∨ _))

instance : DecidablePred ContinuesName := fun _ => inferInstanceAs (Decidable (_ ∨ _))

/-- The table of ranges holds these code points and no others. -/
theorem isBlank_iff {c : Char} : Text.isBlank c = true ↔ c.toNat ∈ whiteSpace := by
  have hpoints : Text.blanks.codePoints = whiteSpace := by decide
  rw [← hpoints]
  exact Text.CharSet.contains_iff_mem_codePoints

theorem isWordChar_iff {c : Char} : Text.isWordChar c = true ↔ ContinuesName c := by
  rw [Text.isWordChar_iff, Text.isLetter_iff]
  rfl

theorem isIdentifier_iff {u : List Char} :
    Text.IsIdentifier u ↔ ∃ c cs, u = c :: cs ∧ StartsName c ∧ ∀ d ∈ cs, ContinuesName d := by
  have hcons : ∀ c cs, Text.IsIdentifier (c :: cs) ↔ StartsName c ∧ ∀ d ∈ cs, ContinuesName d := by
    intro c cs
    simp only [← isWordChar_iff]
    exact and_congr_left' Text.isLetter_iff
  constructor
  · intro h
    cases u with
    | nil => exact h.elim
    | cons c cs => exact ⟨c, cs, rfl, (hcons c cs).1 h⟩
  · intro ⟨c, cs, hu, h⟩
    rw [hu]
    exact (hcons c cs).2 h

/-- A text stops a class if it is at its end or goes on with another character. -/
theorem stops_iff {isMember : Char → Bool} {IsMember : Char → Prop}
    (h : ∀ {c}, isMember c = true ↔ IsMember c) {r : List Char} :
    Stops isMember r ↔ ∀ c ∈ r.head?, ¬ IsMember c := by
  simp only [Stops, ← h, Bool.not_eq_true]

/-! ## §2. Where a name is read. -/

theorem exists_run_identifier_iff {s : List Char} :
    (∃ x r, identifier.run s = .ok x r) ↔ ∃ c ∈ s.head?, StartsName c := by
  constructor
  · intro ⟨x, r, h⟩
    obtain ⟨hs, hname, _⟩ := identifier_eq_ok_iff.1 h
    obtain ⟨c, cs, hx, hc, _⟩ := isIdentifier_iff.1 hname
    rw [hs, hx]
    exact ⟨c, rfl, hc⟩
  · intro ⟨c, hhead, hc⟩
    obtain ⟨t, ht⟩ := List.head?_eq_some_iff.1 hhead
    rw [ht]
    exact ⟨_, _, run_identifier_cons (Text.isLetter_iff.2 hc) t⟩

/-! ## §3. Maximal runs. -/

/-- **BLANKS AND NAMES ARE READ AS FAR AS THEY GO.**

* Blanks are read from every text: characters of White_Space, up to the end of the text or to a
  character of another kind.
* A name is read if and only if the text starts with an ASCII letter or an underscore.  It has the
  form `[A-Za-z_][A-Za-z0-9_]*`, and goes up to the end of the text or to a character that cannot be
  part of it.
* Where no name is read, the whole text is given back. -/
theorem reads_maximal_runs (s : List Char) :
    (∃ w r, spaces.run s = .ok w r ∧ s = w.toList ++ r ∧
      (∀ c ∈ w.toList, c.toNat ∈ whiteSpace) ∧ ∀ c ∈ r.head?, c.toNat ∉ whiteSpace) ∧
    ((∃ x r, identifier.run s = .ok x r) ↔ ∃ c ∈ s.head?, StartsName c) ∧
    (∀ x r, identifier.run s = .ok x r → s = x.toList ++ r ∧
      (∃ c cs, x.toList = c :: cs ∧ StartsName c ∧ ∀ d ∈ cs, ContinuesName d) ∧
      ∀ c ∈ r.head?, ¬ ContinuesName c) ∧
    (∀ r, identifier.run s = .fail r → r = s) := by
  refine ⟨?_, exists_run_identifier_iff, ?_, backtracking_identifier s⟩
  · have hrun := run_spaces s
    obtain ⟨hs, hblanks, hstop⟩ := spaces_eq_ok_iff.1 hrun
    refine ⟨_, _, hrun, hs, ?_, (stops_iff isBlank_iff).1 hstop⟩
    intro c hc
    exact isBlank_iff.1 (hblanks c hc)
  · intro x r h
    obtain ⟨hs, hname, hstop⟩ := identifier_eq_ok_iff.1 h
    exact ⟨hs, isIdentifier_iff.1 hname, (stops_iff isWordChar_iff).1 hstop⟩

/-- Blanks of one, two and three bytes in front of a name, which ends in front of a letter that is
not ASCII; and a digit, which starts no name. -/
theorem reads_maximal_runs_wide :
    spaces.run "\t\u00a0\u3000_x9é".toList = .ok "\t\u00a0\u3000" "_x9é".toList ∧
    (∀ c ∈ "_x9é".toList.head?, c.toNat ∉ whiteSpace) ∧
    identifier.run "_x9é".toList = .ok "_x9" "é".toList ∧
    (∀ c ∈ "é".toList.head?, ¬ ContinuesName c) ∧
    identifier.run "0abc".toList = .fail "0abc".toList := by
  have hblanks : spaces.run "\t\u00a0\u3000_x9é".toList =
      .ok "\t\u00a0\u3000" "_x9é".toList := by
    decide +kernel
  have hname : identifier.run "_x9é".toList = .ok "_x9" "é".toList := by
    decide +kernel
  obtain ⟨⟨w, r, hspaces, _, _, hstop⟩, _⟩ := reads_maximal_runs "\t\u00a0\u3000_x9é".toList
  rw [hblanks] at hspaces
  cases hspaces
  obtain ⟨_, _, hread, _⟩ := reads_maximal_runs "_x9é".toList
  refine ⟨hblanks, hstop, hname, (hread _ _ hname).2.2, ?_⟩
  obtain ⟨_, hstarts, _, hfail⟩ := reads_maximal_runs "0abc".toList
  cases hrun : identifier.run "0abc".toList with
  | fail r => rw [hfail r hrun]
  | ok x r =>
    obtain ⟨c, hhead, hc⟩ := hstarts.1 ⟨x, r, hrun⟩
    cases hhead
    exact absurd hc (by decide)

end ExprText.Grammar
