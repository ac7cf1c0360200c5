/-
  ExprText.Proofs.Pieces
  ──────────────────────
  **THE NAMES IN A TEXT.**

  Any text, be it an expression or not, falls into names and the characters
  between them.  A name starts at the first letter and goes on as long as word
  characters follow:

      (a1+ 2*b)   ──▶   (   a1   +   blank   2   *   b   )

  A text splits in one way only into names that cannot be made longer and
  characters that are no letters (`pieces_eq_iff`), so the pieces of two texts
  that do not run into one name are the pieces of the one and of the other
  (`pieces_append`).

  `translate each s` is the text `s` with every piece written anew.
-/
import ExprText.Proofs.Lexemes

namespace ExprText.Grammar

/-! ## §1. Pieces. -/

/-- A piece of a text. -/
inductive Piece where
  /-- A name, as long as it goes. -/
  | name (x : List Char)
  /-- A character outside the names. -/
  | other (c : Char)
  deriving DecidableEq, Repr

/-- What the piece is a piece of. -/
def Piece.text : Piece → List Char
  | name x => x
  | other c => [c]

/-- The pieces of a text, from left to right. -/
def pieces : List Char → List Piece
  | [] => []
  | c :: s =>
    if Text.isLetter c then
      .name (c :: s.takeWhile Text.isWordChar) :: pieces (s.dropWhile Text.isWordChar)
    else .other c :: pieces s
termination_by s => s.length
decreasing_by
  · have hle := (List.dropWhile_suffix (l := s) Text.isWordChar).length_le
    simp only [List.length_cons]
    omega
  · simp only [List.length_cons]
    omega

/-- The text is split into these pieces: no word character follows a name, and no letter stands
outside the names. -/
inductive Splits : List Char → List Piece → Prop where
  | nil : Splits [] []
  | name {x s : List Char} {ps : List Piece} (hx : Text.IsIdentifier x)
      (hs : Stops Text.isWordChar s) (h : Splits s ps) : Splits (x ++ s) (.name x :: ps)
  | other {c : Char} {s : List Char} {ps : List Piece} (hc : Text.isLetter c = false)
      (h : Splits s ps) : Splits (c :: s) (.other c :: ps)

theorem Splits.text_eq {s : List Char} {ps : List Piece} (h : Splits s ps) :
    ps.flatMap Piece.text = s := by
  induction h with
  | nil => rfl
  | @name x s ps _ _ _ ih =>
    show x ++ ps.flatMap Piece.text = x ++ s
    rw [ih]
  | @other c s ps _ _ ih =>
    show c :: ps.flatMap Piece.text = c :: s
    rw [ih]

/-- Pieces side by side, where no name runs on into the second text. -/
theorem Splits.append {s r : List Char} {ps qs : List Piece} (h : Splits s ps)
    (h' : Splits r qs) (hr : Stops Text.isWordChar r) : Splits (s ++ r) (ps ++ qs) := by
  induction h with
  | nil => exact h'
  | @name x s ps hx hs _ ih =>
    rw [List.append_assoc]
    exact .name hx (hs.append hr) ih
  | other hc _ ih => exact .other hc ih

/-! ## §2. A text has one splitting. -/

@[simp] theorem pieces_nil : pieces [] = [] := by
  rw [pieces]

theorem pieces_cons_of_letter {c : Char} (hc : Text.isLetter c = true) (s : List Char) :
    pieces (c :: s) =
      .name (c :: s.takeWhile Text.isWordChar) :: pieces (s.dropWhile Text.isWordChar) := by
  rw [pieces, if_pos hc]

theorem pieces_cons_of_not_letter {c : Char} (hc : Text.isLetter c = false) (s : List Char) :
    pieces (c :: s) = .other c :: pieces s := by
  rw [pieces, if_neg (by simp [hc])]

/-- The longest run of word characters from a letter on is a name. -/
theorem isIdentifier_takeWhile {c : Char} (hc : Text.isLetter c = true) (s : List Char) :
    Text.IsIdentifier (c :: s.takeWhile Text.isWordChar) :=
  ⟨hc, fun d hd => List.all_eq_true.1 List.all_takeWhile d hd⟩

theorem splits_pieces (s : List Char) : Splits s (pieces s) := by
  fun_induction pieces s with
  | case1 => exact .nil
  | case2 c s hc ih =>
    have hsplit : c :: s = (c :: s.takeWhile Text.isWordChar) ++ s.dropWhile Text.isWordChar := by
      rw [List.cons_append, List.takeWhile_append_dropWhile]
    rw [hsplit]
    exact .name (isIdentifier_takeWhile hc s) (stops_dropWhile _ s) ih
  | case3 c s hc ih => exact .other (by simpa using hc) ih

/-- **A text has one splitting**, and `pieces` finds it. -/
theorem pieces_eq_iff {s : List Char} {ps : List Piece} : pieces s = ps ↔ Splits s ps := by
  apply Iff.intro
  · intro h
    rw [← h]
    exact splits_pieces s
  · intro h
    induction h with
    | nil => exact pieces_nil
    | @name x s ps hx hs _ ih =>
      cases x with
      | nil => exact hx.elim
      | cons c x =>
        -- the rest of the name is the longest run of word characters behind its first letter
        obtain ⟨hletter, hword⟩ := hx
        have hrun := eq_append_iff.1 ⟨rfl, hword, hs⟩
        rw [List.cons_append, pieces_cons_of_letter hletter, ← hrun.1, ← hrun.2, ih]
    | @other c s ps hc _ ih => rw [pieces_cons_of_not_letter hc, ih]

/-- A digit belongs to the name in front of it, and never starts one. -/
example : pieces "a1*2b".toList =
    [.name ['a', '1'], .other '*', .other '2', .name ['b']] := by
  decide +kernel

/-- The pieces make up the text. -/
theorem text_pieces (s : List Char) : (pieces s).flatMap Piece.text = s :=
  (splits_pieces s).text_eq

theorem pieces_append {r : List Char} (hr : Stops Text.isWordChar r) (s : List Char) :
    pieces (s ++ r) = pieces s ++ pieces r :=
  pieces_eq_iff.2 ((splits_pieces s).append (splits_pieces r) hr)

/-- A name on its own is one piece. -/
theorem pieces_of_isIdentifier {x : List Char} (hx : Text.IsIdentifier x) :
    pieces x = [.name x] := by
  have hsplits : Splits (x ++ []) [.name x] := .name hx (stops_nil _) .nil
  rw [List.append_nil] at hsplits
  exact pieces_eq_iff.2 hsplits

/-! ## §3. Writing the pieces anew. -/

/-- The text with every piece replaced. -/
def translate (each : Piece → List Char) (s : List Char) : List Char :=
  (pieces s).flatMap each

variable {each : Piece → List Char}

@[simp] theorem translate_nil : translate each [] = [] := by
  unfold translate
  rw [pieces_nil]
  rfl

theorem translate_append {r : List Char} (hr : Stops Text.isWordChar r) (s : List Char) :
    translate each (s ++ r) = translate each s ++ translate each r := by
  unfold translate
  rw [pieces_append hr, List.flatMap_append]

theorem translate_cons {c : Char} (hc : Text.isLetter c = false) (s : List Char) :
    translate each (c :: s) = each (.other c) ++ translate each s := by
  unfold translate
  rw [pieces_cons_of_not_letter hc]
  rfl

/-- What has no letters falls into its characters, whatever follows. -/
theorem translate_append_of_no_letter {w : List Char}
    (hw : ∀ c ∈ w, Text.isLetter c = false) (r : List Char) :
    translate each (w ++ r) = w.flatMap (fun c => each (.other c)) ++ translate each r := by
  induction w with
  | nil => rfl
  | cons c w ih =>
    obtain ⟨hc, hw⟩ := List.forall_mem_cons.1 hw
    rw [List.cons_append, translate_cons hc, ih hw, List.flatMap_cons, List.append_assoc]

theorem translate_of_no_letter {w : List Char} (hw : ∀ c ∈ w, Text.isLetter c = false) :
    translate each w = w.flatMap fun c => each (.other c) := by
  have hrun : translate each (w ++ []) = _ := translate_append_of_no_letter hw []
  rw [translate_nil, List.append_nil, List.append_nil] at hrun
  exact hrun

theorem translate_of_isIdentifier {x : List Char} (hx : Text.IsIdentifier x) :
    translate each x = each (.name x) := by
  unfold translate
  rw [pieces_of_isIdentifier hx]
  simp

end ExprText.Grammar
