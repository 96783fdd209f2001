import EcmaFront.Text.CodePoints
import EcmaFront.Text.Table.NameStart
import EcmaFront.Text.Table.NameContinue

/-!
# Characters of names

A name is a start character followed by part characters. Within ASCII the letters, the underscore
and the dollar sign start a name, and the digits continue one. Beyond ASCII the Unicode properties
XID_Start and XID_Continue decide.
-/

namespace EcmaFront.Text

def isAscii (c : Char) : Bool := decide (c.toNat < 128)

def isNameStart (c : Char) : Bool :=
  c == '_' || c == '$' || c.isAlpha || (!isAscii c && inRanges Table.nameStart c)

def isNamePart (c : Char) : Bool :=
  isNameStart c || c.isDigit || (!isAscii c && inRanges Table.nameContinue c)

/-- Whatever starts a name also continues one. -/
theorem isNamePart_of_isNameStart {c : Char} (h : isNameStart c = true) : isNamePart c = true := by
  simp [isNamePart, h]

end EcmaFront.Text
