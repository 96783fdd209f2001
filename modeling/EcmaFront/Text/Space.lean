import EcmaFront.Text.Basic

/-!
# Spaces and line breaks

The characters that separate tokens. Four characters break a line; a line comment ends before the
first of them.
-/

namespace EcmaFront.Text

/-- Line feed, carriage return, line separator and paragraph separator. -/
def isLineBreak (c : Char) : Bool :=
  c == '\n' || c == '\r' || c == '\u2028' || c == '\u2029'

/-- The blanks of a line: space, tab, vertical tab, form feed, the byte order mark and the Unicode
space separators. -/
def isBlank (c : Char) : Bool :=
  c == ' ' || c == '\t' || c == '\x0b' || c == '\x0c' || c == '\xa0' || c == '\u1680' ||
    (decide (0x2000 ≤ c.toNat) && decide (c.toNat ≤ 0x200a)) ||
    c == '\u202f' || c == '\u205f' || c == '\u3000' || c == '\ufeff'

def isSpace (c : Char) : Bool := isBlank c || isLineBreak c

end EcmaFront.Text
