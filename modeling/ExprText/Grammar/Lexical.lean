/-
  ExprText.Grammar.Lexical
  ────────────────────────
  **LEXICAL RULES.**

      spaces      :=  blank*
      digit       :=  "0" … "9"
      letter      :=  "A" … "Z" | "a" … "z" | "_"
      identifier  :=  letter (digit | letter)*
      number      :=  "+"? unsigned | "-" unsigned
      unsigned    :=  digit* "." digit+ | digit+

  A number is read as a decimal.  A fraction whose integer part is out of range
  is rejected, and so is an integer out of range; a rejected fraction is tried
  again as an integer.
-/
import ExprText.Decimal.Numeral
import ExprText.Parser.Repeat
import ExprText.Text.CharSet

namespace ExprText.Grammar

open ExprText.Parser

/-! ## §1. Blanks and words. -/

/-- The blanks in front of the text, possibly none. -/
def spaces : Parser String :=
  String.ofList <$> (satisfy Text.isBlank).many

/-- One ASCII digit. -/
def digit : Parser Char :=
  satisfy Char.isDigit

/-- One ASCII letter or underscore. -/
def letter : Parser Char :=
  satisfy Text.isLetter

/-- A name. -/
def identifier : Parser String :=
  letter.bindWith (fun _ => (digit <|> letter).many) fun c cs => String.ofList (c :: cs)

/-! ## §2. Numbers. -/

/-- Digits without a point. -/
def unsignedInteger : Parser Decimal :=
  digit.many1.filterMap Decimal.ofInteger?

/-- Digits with a point among them or in front of them. -/
def unsignedFraction : Parser Decimal :=
  ((digit.many <* char '.').seq digit.many1).filterMap fun (integer, places) =>
    Decimal.ofFraction? integer places

/-- A number without a sign.  The fraction comes first, so that an integer is not cut off in front
of its places. -/
def unsignedNumber : Parser Decimal :=
  unsignedFraction <|> unsignedInteger

/-- A number with at most one sign. -/
def number : Parser Decimal :=
  ((char '+').optional *> unsignedNumber) <|> Neg.neg <$> (char '-' *> unsignedNumber)

/-! ## §3. Runs of characters. -/

theorem run_spaces (s : List Char) :
    spaces.run s = .ok (String.ofList (s.takeWhile Text.isBlank)) (s.dropWhile Text.isBlank) := by
  show ((satisfy Text.isBlank).many.run s).map String.ofList = _
  rw [run_many_satisfy]
  rfl

end ExprText.Grammar
