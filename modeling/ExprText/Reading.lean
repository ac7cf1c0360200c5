/-
  ExprText.Reading
  ────────────────
  **READING A WHOLE TEXT.**

  A text is read as one expression, with blanks allowed at both ends.  It can go
  wrong in two ways: there is no expression at the start of the text, or there
  is something behind the expression.

      read s = .ok e                            the text is an expression
      read s = .error (.invalid s)              it does not start with one
      read s = .error (.trailing e rest)        `rest` stands behind it
-/
import ExprText.Expr.Printer
import ExprText.Grammar.Rules
import ExprText.Outline

namespace ExprText

/-! ## §1. What can go wrong. -/

/-- Why a text is not an expression. -/
inductive ReadError where
  /-- The text does not start with an expression. -/
  | invalid (input : String)
  /-- An expression was read, and something was left behind it. -/
  | trailing (parsed : Expr) (remaining : String)
  deriving DecidableEq, Repr

/-- The cause, in words. -/
def ReadError.message : ReadError → String
  | invalid input => "invalid expression: " ++ Text.quoted input
  | trailing parsed remaining =>
    "unexpected input after `" ++ parsed.text ++ "`: " ++ Text.quoted remaining

instance : Outlined ReadError where
  outline
    | .invalid input => .record "Invalid" [("input", outline input)]
    | .trailing parsed remaining =>
      .record "TrailingInput" [("parsed", outline parsed), ("remaining", outline remaining)]

/-! ## §2. Reading. -/

/-- An expression between blanks. -/
def Grammar.padded : Parser Expr :=
  spaces *> expression <* spaces

/-- Reads a text as an expression. -/
def read (input : String) : Except ReadError Expr :=
  match Grammar.padded.run input.toList with
  | .ok e [] => .ok e
  | .ok e (c :: rest) => .error (.trailing e (String.ofList (c :: rest)))
  | .fail _ => .error (.invalid input)

/-- A text is read as `e` if the padded expression takes all of it. -/
theorem read_eq_ok_iff {input : String} {e : Expr} :
    read input = .ok e ↔ Grammar.padded.run input.toList = .ok e [] := by
  unfold read
  cases Grammar.padded.run input.toList with
  | fail rest => simp
  | ok value rest =>
    cases rest with
    | nil => simp
    | cons c rest => simp

/-- Something is left behind if the padded expression does not take all of the text. -/
theorem read_eq_trailing_iff {input remaining : String} {e : Expr} :
    read input = .error (.trailing e remaining) ↔
      Grammar.padded.run input.toList = .ok e remaining.toList ∧ remaining.toList ≠ [] := by
  unfold read
  cases Grammar.padded.run input.toList with
  | fail rest => simp
  | ok value rest =>
    cases rest with
    | nil =>
      constructor
      · intro h
        cases h
      · intro ⟨h, hne⟩
        rw [Reply.ok.injEq] at h
        exact absurd h.2.symm hne
    | cons c rest =>
      constructor
      · intro h
        cases h
        simp
      · intro ⟨h, _⟩
        rw [Reply.ok.injEq] at h
        simp only
        rw [h.1, h.2, String.ofList_toList]

/-- The text is refused if the padded expression fails on it. -/
theorem read_eq_invalid_iff {input input' : String} :
    read input = .error (.invalid input') ↔
      input' = input ∧ ∃ rest, Grammar.padded.run input.toList = .fail rest := by
  unfold read
  cases Grammar.padded.run input.toList with
  | fail rest =>
    constructor
    · intro h
      cases h
      exact ⟨rfl, rest, rfl⟩
    · intro h
      rw [h.1]
  | ok value rest => cases rest <;> simp

end ExprText
