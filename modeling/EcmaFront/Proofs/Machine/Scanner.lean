import EcmaFront.Proofs.Machine.Fault
import EcmaFront.Proofs.Text.Bytes

/-!
# A scanner of bytes with partial operations

A `Scanner` keeps a position in its source. It looks for operators, digits, quotes and the ends of
comments among the bytes, and for names and spaces among the characters; it counts the line feeds of
each piece that it skips. Cuts, sums and spans may meet a `Fault`. At an error the scanner stays
where the bad token starts.

* `Scanner.next`: the next token, or none at the end.
* `Scanner.scan`: the tokens of a source.
-/

namespace EcmaFront

namespace Bytes

def isDigit (b : UInt8) : Bool := decide ('0'.toUInt8 ≤ b) && decide (b ≤ '9'.toUInt8)

/-- Whether the bytes start with the spelling of the row. An optional dot counts only where no digit
follows. -/
def fits (row : String × TokenKind) (bytes : List UInt8) : Bool :=
  (Text.bytes row.1.toList).isPrefixOf bytes &&
    !(row.2 == .punctuator .optionalDot && bytes[2]?.any isDigit)

/-- The first row of the operators that the bytes start with. -/
def fitting? (bytes : List UInt8) : Option (String × TokenKind) :=
  Spelling.operators.find? (fits · bytes)

/-- Whether the bytes start with the character. -/
def startsWith (t : Text) (bytes : List UInt8) : Bool := t.bytes.isPrefixOf bytes

/-- Whether a line break starts here. The two that are not ASCII share their first two bytes. -/
def startsLineBreak : List UInt8 → Bool
  | [] => false
  | b :: bs =>
    b == '\n'.toUInt8 || b == '\r'.toUInt8 ||
      (b == 0xe2 && (bs.take 2 == [0x80, 0xa8] || bs.take 2 == [0x80, 0xa9]))

/-- The number of bytes before the first line break. -/
def untilLineBreak : List UInt8 → Nat
  | [] => 0
  | b :: bs => if startsLineBreak (b :: bs) then 0 else untilLineBreak bs + 1

/-- The number of bytes before the first `*/`. -/
def untilClose? : List UInt8 → Option Nat
  | [] => none
  | b :: bs =>
    if b = '*'.toUInt8 && bs.head? == some '/'.toUInt8 then some 0
    else (untilClose? bs).map (· + 1)

/-- How the bytes after an opening quote go on. -/
inductive Ending where
  /-- The position after the closing quote, and the number of line feeds before it. -/
  | closed (stop lines : Nat)
  | unterminated
  /-- The position of a null byte, and the number of line feeds before it. -/
  | exhausted (position lines : Nat)

/-- Walks over the bytes from a position on, up to the closing quote. Behind a backslash one byte is
passed over, whatever character it belongs to. -/
def walk (quote : UInt8) (position lines : Nat) : List UInt8 → Ending
  | [] => .unterminated
  | b :: bs =>
    if b = quote then .closed (position + 1) lines
    else if b = '\\'.toUInt8 then
      match bs with
      | [] => .unterminated
      | d :: ds =>
        if d = '\r'.toUInt8 && ds.head? == some '\n'.toUInt8 then
          walk quote (position + 3) (lines + 1) ds.tail
        else if d = '\n'.toUInt8 then walk quote (position + 2) (lines + 1) ds
        else if d = 0 then .exhausted (position + 1) lines
        else walk quote (position + 2) lines ds
    else if b = '\n'.toUInt8 || b = '\r'.toUInt8 then .unterminated
    else if b = 0 then .exhausted position lines
    else walk quote (position + 1) lines bs
  termination_by bytes => bytes.length
  decreasing_by all_goals simp; try omega

end Bytes

/-- The state of a scanner. -/
structure Scanner where
  /-- Whether the words reserved in strict sources are keywords. -/
  strict : Bool
  source : Text
  /-- How many bytes have been passed. -/
  position : Nat
  /-- The line of the position, counted from one. -/
  line : Nat

namespace Scanner

def start (strict : Bool) (source : Text) : Scanner := ⟨strict, source, 0, 1⟩

/-- The bytes that are left. -/
def bytes (s : Scanner) : List UInt8 := s.source.bytes.drop s.position

/-- The text that is left; there is none behind a position inside a character. -/
def rest (s : Scanner) : Text := (s.source.dropBytes? s.position).getD []

/-- The next character, where one is left. -/
def current (s : Scanner) : Char := s.rest.head?.getD '\ufffd'

def atComment (s : Scanner) : Bool :=
  Bytes.startsWith ['/', '/'] s.bytes || Bytes.startsWith ['/', '*'] s.bytes

open Checked (check)

abbrev Scan := ExceptT LexicalError (StateT Scanner Checked)

namespace Scan

/-- Moves forward, but not past the end. -/
def advance (length : Nat) : Scan Unit := do
  let s ← get
  if s.position + length ≤ s.source.bytes.length then
    set { s with position := s.position + length }
  else
    throw (.exhausted s.source.bytes.length s.line)

/-- Adds to the line. -/
def addLines (count : Nat) : Scan Unit := do
  let s ← get
  set { s with line := ← check (Checked.add s.line count) }

/-- The token from `start` to the position. -/
def token (kind : TokenKind) (start : Nat) : Scan Token := do
  return ⟨kind, ← check (Span.checkedOfBounds start (← get).position)⟩

/-! ## Token classes -/

def name : Scan Token := do
  let s ← get
  let length := Text.size (s.rest.takeWhile Text.isNamePart)
  let word ← check ((s.rest.takeBytes? length).elim (.error .noSlice) .ok)
  advance length
  token (Spelling.nameKind s.strict word) s.position

def skipSpaces : Scan Unit := do
  let spaces := (← get).rest.takeWhile Text.isSpace
  advance (Text.size spaces)
  addLines (spaces.count '\n')

def number : Scan Token := do
  let s ← get
  advance (s.bytes.takeWhile Bytes.isDigit).length
  token .number s.position

def skipLineComment : Scan Unit := do
  advance (Bytes.untilLineBreak (← get).bytes)

/-- The bytes after the first `length` ones, which have to be there. -/
def cutFront (length : Nat) (bytes : List UInt8) : Checked (List UInt8) :=
  if length ≤ bytes.length then .ok (bytes.drop length) else .error .noSlice

/-- The first `length` bytes, which have to be there. -/
def cutBack (length : Nat) (bytes : List UInt8) : Checked (List UInt8) :=
  if length ≤ bytes.length then .ok (bytes.take length) else .error .noSlice

def skipBlockComment : Scan Unit := do
  let bytes := (← get).bytes
  let inside ← check (cutFront 2 bytes)
  let length := (Bytes.untilClose? inside).elim bytes.length (· + 4)
  let comment ← check (cutBack length bytes)
  advance length
  addLines (comment.count '\n'.toUInt8)

/-- The string that starts here and ends so. -/
def stringTo : Bytes.Ending → Scan Token
  | .unterminated => do
    let s ← get
    throw (.unterminatedString s.position s.line)
  | .exhausted position lines => do
    throw (.exhausted position (← check (Checked.add (← get).line lines)))
  | .closed stop lines => do
    let s ← get
    advance (← check (Checked.sub stop s.position))
    addLines lines
    token .string s.position

def string (quote : UInt8) : Scan Token := do
  let s ← get
  stringTo (Bytes.walk quote (s.position + 1) 0 (s.source.bytes.drop (s.position + 1)))

/-- The next token, after at most `n` pieces of trivia. -/
def nextWithin : Nat → Scan (Option Token)
  | 0 => check (.error .endless)
  | n + 1 => do
    let s ← get
    match s.bytes with
    | [] => return none
    | byte :: _ =>
      match if s.atComment then none else Bytes.fitting? s.bytes with
      | some (spelling, kind) =>
        advance (Text.size spelling.toList)
        return some (← token kind s.position)
      | none =>
        let c := s.current
        if Text.isNameStart c then
          return some (← name)
        else if Text.isSpace c then
          skipSpaces
          nextWithin n
        else if c.isDigit then
          return some (← number)
        else if Bytes.startsWith ['/', '/'] s.bytes then
          skipLineComment
          nextWithin n
        else if Bytes.startsWith ['/', '*'] s.bytes then
          skipBlockComment
          nextWithin n
        else if byte = '\''.toUInt8 || byte = '"'.toUInt8 then
          return some (← string byte)
        else
          throw (.unexpectedCharacter c s.position s.line)

/-- The next token; there is none at the end of the source. -/
def next : Scan (Option Token) := fun s => nextWithin (s.bytes.length + 1) s

/-- At most `n` tokens, after those of a sequence. -/
def upTo : Nat → TokenSequence → Scan TokenSequence
  | 0, _ => check (.error .endless)
  | n + 1, tokens => do
    match ← next with
    | some t => upTo n (tokens.push t)
    | none => return tokens

end Scan

/-- Asks for the next token. -/
def next (s : Scanner) : Checked (Except LexicalError (Option Token) × Scanner) := Scan.next s

/-- The tokens that are left. -/
def all (s : Scanner) : Checked (Except LexicalError TokenSequence × Scanner) :=
  Scan.upTo (s.bytes.length + 1) (.empty s.source) s

/-- The tokens of a source. -/
def scan (strict : Bool) (source : Text) : Checked (Except LexicalError TokenSequence) :=
  match checkSize source with
  | .ok _ => (start strict source).all.map Prod.fst
  | .error e => .ok (.error e)

end Scanner

end EcmaFront
