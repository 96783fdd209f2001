import EcmaFront.Text.Basic

/-!
# Lines

Only the line feed ends a line. A `LineIndex` keeps the position at which each line of a text
starts, in order, and finds the line of a position by halving the range of lines that can hold it.
Lines and columns count from one; columns count bytes.
-/

namespace EcmaFront

/-- A place as a reader counts it. -/
structure LineColumn where
  line : Nat
  column : Nat
  deriving DecidableEq, Repr, Inhabited

/-- The two numbers as a message shows them. -/
def LineColumn.toText (p : LineColumn) : String := s!"{p.line},{p.column}"

/-- The positions just past each line feed of a text that stands at `offset`. -/
def Text.lineEnds (offset : Nat) : Text → List Nat
  | [] => []
  | c :: cs =>
    let next := offset + c.utf8Size
    if c = '\n' then next :: lineEnds next cs else lineEnds next cs

/-- The position at which each line starts. -/
structure LineIndex where
  starts : Array Nat
  deriving Repr

namespace LineIndex

/-- The lines of a text: the first one starts at zero, each other one after a line feed. -/
def ofText (t : Text) : LineIndex := ⟨(0 :: t.lineEnds 0).toArray⟩

def lineCount (lines : LineIndex) : Nat := lines.starts.size

/-- Where line `i`, counted from zero, starts. -/
def startOf (lines : LineIndex) (i : Nat) : Nat := lines.starts.getD i 0

/-- Among the `count` lines from line `first` on, of which the first starts no later than
`position`, the last one that does. -/
def search (lines : LineIndex) (position first count : Nat) : Nat :=
  if count ≤ 1 then
    first
  else if lines.startOf (first + count / 2) ≤ position then
    search lines position (first + count / 2) (count - count / 2)
  else
    search lines position first (count / 2)
  termination_by count

/-- The line of a position, counted from one. A position past the end is on the last line. -/
def lineOf (lines : LineIndex) (position : Nat) : Nat :=
  lines.search position 0 lines.lineCount + 1

def lineColumnOf (lines : LineIndex) (position : Nat) : LineColumn :=
  let line := lines.lineOf position
  ⟨line, position - lines.startOf (line - 1) + 1⟩

end LineIndex

end EcmaFront
