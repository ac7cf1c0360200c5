/-
  ExprText.Text.Quoted
  ────────────────────
  **QUOTED TEXT.**

  How messages, log lines and outlines show a text or a single character: between
  quotes, with the quote in use and the backslash behind a backslash, short names
  for four controls, and the code point in hexadecimal for every other character
  that has no glyph of its own.
-/
import ExprText.Text.Graphic

namespace ExprText.Text

/-- The controls that have a short name, with the letter that stands for them. -/
def controlLetter? : Char → Option Char
  | '\x00' => some '0'
  | '\t' => some 't'
  | '\r' => some 'r'
  | '\n' => some 'n'
  | _ => none

/-- A character given by its code point, in lower-case hexadecimal without padding. -/
def codePoint (c : Char) : List Char :=
  ['\\', 'u', '\x7b'] ++ Nat.toDigits 16 c.toNat ++ ['\x7d']

/-- One character of a text that stands between two `quote` characters. -/
def escape (quote c : Char) : List Char :=
  match controlLetter? c with
  | some letter => ['\\', letter]
  | none =>
    if c = quote ∨ c = '\\' then ['\\', c]
    else if isGraphic c then [c]
    else codePoint c

/-- A text between two `quote` characters. -/
def quotedWith (quote : Char) (s : List Char) : List Char :=
  quote :: s.flatMap (escape quote) ++ [quote]

/-- A text in double quotes. -/
def quoted (s : String) : String :=
  String.ofList (quotedWith '"' s.toList)

/-- A character in single quotes. -/
def quotedChar (c : Char) : String :=
  String.ofList (quotedWith '\'' [c])

end ExprText.Text
