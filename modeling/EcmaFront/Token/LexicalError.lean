import EcmaFront.Text.Escape

/-!
# Lexical errors

Why a text cannot be cut into tokens. Each error but the last names the byte at fault and its line.
-/

namespace EcmaFront

inductive LexicalError where
  /-- A line break or the end came before the closing quote; `offset` is the opening quote. -/
  | unterminatedString (offset line : Nat)
  /-- No token starts with the character. -/
  | unexpectedCharacter (c : Char) (offset line : Nat)
  /-- A null character stands inside a string. -/
  | exhausted (offset line : Nat)
  /-- The source has more bytes than positions can count. -/
  | tooLarge (size : Nat)
  deriving DecidableEq, Repr, Inhabited

namespace LexicalError

/-- The byte at fault. -/
def offset : LexicalError → Nat
  | .unterminatedString offset _ => offset
  | .unexpectedCharacter _ offset _ => offset
  | .exhausted offset _ => offset
  | .tooLarge _ => 0

/-- The line of the byte at fault, counted from one. -/
def line : LexicalError → Nat
  | .unterminatedString _ line => line
  | .unexpectedCharacter _ _ line => line
  | .exhausted _ line => line
  | .tooLarge _ => 1

def message : LexicalError → String
  | .unterminatedString _ line => s!"unterminated string literal (line {line})"
  | .unexpectedCharacter c _ line => s!"unexpected character {Text.quoteChar c} (line {line})"
  | .exhausted _ line => s!"source ended in the middle of a token (line {line})"
  | .tooLarge size => s!"source is {size} bytes, larger than the 4 GiB position limit"

end LexicalError

end EcmaFront
