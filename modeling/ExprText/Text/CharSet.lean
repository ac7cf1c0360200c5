/-
  ExprText.Text.CharSet
  ─────────────────────
  **CHARACTER CLASSES.**

  The classes of characters that the lexical rules ask for.  A class that goes
  beyond ASCII is a `CharSet`: a list of closed ranges of code points, read by
  one membership test.  Letters, digits and the underscore of identifiers are
  ASCII only, by the grammar's own definition.
-/

namespace ExprText.Text

/-! ## §1. Sets given by ranges. -/

/-- A set of characters, written as closed ranges `(first, last)` of code points. -/
structure CharSet where
  /-- The ranges, in ascending order and apart from each other. -/
  ranges : List (Nat × Nat)

/-- Does the character lie in one of the ranges? -/
def CharSet.contains (set : CharSet) (c : Char) : Bool :=
  set.ranges.any fun r => decide (r.1 ≤ c.toNat) && decide (c.toNat ≤ r.2)

/-- Are the ranges in ascending order and apart from each other? -/
def CharSet.isOrdered (set : CharSet) : Bool :=
  go set.ranges
where
  /-- Every range ends where it starts or later, with a gap before the next one. -/
  go : List (Nat × Nat) → Bool
    | [] => true
    | [r] => decide (r.1 ≤ r.2)
    | r :: r' :: ranges => decide (r.1 ≤ r.2) && decide (r.2 + 1 < r'.1) && go (r' :: ranges)

/-- How many code points the ranges hold. -/
def CharSet.size (set : CharSet) : Nat :=
  set.ranges.foldl (fun n r => n + (r.2 + 1 - r.1)) 0

/-- The code points of the set, one by one. -/
def CharSet.codePoints (set : CharSet) : List Nat :=
  set.ranges.flatMap fun r => List.range' r.1 (r.2 + 1 - r.1)

theorem CharSet.contains_iff {set : CharSet} {c : Char} :
    set.contains c = true ↔ ∃ r ∈ set.ranges, r.1 ≤ c.toNat ∧ c.toNat ≤ r.2 := by
  simp [CharSet.contains]

theorem CharSet.contains_iff_mem_codePoints {set : CharSet} {c : Char} :
    set.contains c = true ↔ c.toNat ∈ set.codePoints := by
  rw [contains_iff, codePoints, List.mem_flatMap]
  constructor
  · intro ⟨r, hr, hlow, hhigh⟩
    exact ⟨r, hr, List.mem_range'_1.2 ⟨hlow, by omega⟩⟩
  · intro ⟨r, hr, hmem⟩
    obtain ⟨hlow, hhigh⟩ := List.mem_range'_1.1 hmem
    exact ⟨r, hr, hlow, by omega⟩

/-! ## §2. Blanks. -/

/-- The 25 characters with the Unicode property White_Space. -/
def blanks : CharSet where
  ranges :=
    [(0x09, 0x0D), (0x20, 0x20), (0x85, 0x85), (0xA0, 0xA0), (0x1680, 0x1680),
     (0x2000, 0x200A), (0x2028, 0x2029), (0x202F, 0x202F), (0x205F, 0x205F), (0x3000, 0x3000)]

/-- A blank is a character of Unicode's White_Space. -/
def isBlank (c : Char) : Bool :=
  blanks.contains c

example : blanks.isOrdered = true ∧ blanks.size = 25 := by decide

/-- The text without the blanks at its two ends. -/
def trim (s : List Char) : List Char :=
  ((s.dropWhile isBlank).reverse.dropWhile isBlank).reverse

/-! ## §3. The characters of identifiers. -/

/-- An identifier starts with an ASCII letter or an underscore. -/
def isLetter (c : Char) : Bool :=
  c.isAlpha || c == '_'

/-- After its first character an identifier may also hold ASCII digits. -/
def isWordChar (c : Char) : Bool :=
  c.isDigit || isLetter c

theorem isLetter_iff {c : Char} :
    isLetter c = true ↔ ('A' ≤ c ∧ c ≤ 'Z' ∨ 'a' ≤ c ∧ c ≤ 'z') ∨ c = '_' := by
  show ((decide ('A' ≤ c ∧ c ≤ 'Z') || (decide ('a' ≤ c) && decide (c ≤ 'z'))) || c == '_') = true
    ↔ _
  simp only [Bool.or_eq_true, Bool.and_eq_true, decide_eq_true_eq, beq_iff_eq]

theorem isWordChar_iff {c : Char} :
    isWordChar c = true ↔ '0' ≤ c ∧ c ≤ '9' ∨ isLetter c = true := by
  show ((decide ('0' ≤ c) && decide (c ≤ '9')) || isLetter c) = true ↔ _
  simp only [Bool.or_eq_true, Bool.and_eq_true, decide_eq_true_eq]

/-- The texts `[A-Za-z_][A-Za-z0-9_]*`. -/
def IsIdentifier : List Char → Prop
  | [] => False
  | c :: cs => isLetter c = true ∧ ∀ d ∈ cs, isWordChar d = true

instance : DecidablePred IsIdentifier
  | [] => inferInstanceAs (Decidable False)
  | c :: cs => inferInstanceAs (Decidable (isLetter c = true ∧ ∀ d ∈ cs, isWordChar d = true))

end ExprText.Text
