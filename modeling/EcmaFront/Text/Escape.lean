import EcmaFront.Text.CodePoints
import EcmaFront.Text.Table.Unprintable
import EcmaFront.Text.Table.Ignorable
import EcmaFront.Text.Table.Extending

/-!
# Escaped text

How source text is shown in messages and listings. The common controls, the backslash and the quotes
in use have short escapes. Characters that cannot be seen, or that would join the character before
them, are written by their code point in hexadecimal. All others stand for themselves.
-/

namespace EcmaFront.Text

/-- Whether the character can be shown as it is. Of the separators only the space can. -/
def isPrintable (c : Char) : Bool :=
  !inRanges Table.unprintable c && !inRanges Table.ignorable c

/-- Whether the character joins the one before it. -/
def isExtending (c : Char) : Bool := inRanges Table.extending c

/-- The code point in hexadecimal, between braces. -/
def codePointEscape (c : Char) : Text :=
  ['\\', 'u', '\x7b'] ++ Nat.toDigits 16 c.toNat ++ ['\x7d']

/-- The escaped form of a character, where `quotes` are the quotes to escape. -/
def escapeChar (quotes : List Char) (c : Char) : Text :=
  match c with
  | '\x00' => ['\\', '0']
  | '\t' => ['\\', 't']
  | '\r' => ['\\', 'r']
  | '\n' => ['\\', 'n']
  | '\\' => ['\\', '\\']
  | c =>
    if quotes.contains c then ['\\', c]
    else if isExtending c || !isPrintable c then codePointEscape c
    else [c]

/-- A text between double quotes. -/
def quote (t : Text) : String :=
  String.ofList ('"' :: t.flatMap (escapeChar ['"']) ++ ['"'])

/-- A character between single quotes. -/
def quoteChar (c : Char) : String :=
  String.ofList ('\'' :: escapeChar ['\''] c ++ ['\''])

/-- A character to stand between quotes of either kind. -/
def bareChar (c : Char) : String :=
  String.ofList (escapeChar ['"', '\''] c)

end EcmaFront.Text
