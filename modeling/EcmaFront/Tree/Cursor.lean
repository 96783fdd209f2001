import EcmaFront.Token.Sequence
import EcmaFront.Tree.SyntaxError

/-!
# Reading tokens

A `Cursor` stands between two tokens of a sequence. A `Reader` takes tokens off the front and gives
a result or the first error. After an error the cursor stays where the reader stopped, so tokens
that were taken stay taken. Loops repeat a step that takes at least one token each time it asks to
go on, so the number of tokens bounds them.
-/

namespace EcmaFront

/-- A token with its text. -/
structure Lexeme where
  kind : TokenKind
  span : Span
  text : Text
  deriving DecidableEq, Repr, Inhabited

def TokenSequence.lexemes (s : TokenSequence) : List Lexeme :=
  s.toList.map fun t => ⟨t.kind, t.span, s.text t⟩

structure Cursor where
  /-- The tokens that are left. -/
  rest : List Lexeme
  /-- The end of the token before them. -/
  lastStop : Nat
  /-- The end of the source. -/
  sourceStop : Nat
  deriving Repr

namespace Cursor

/-- The cursor before the first token. -/
def start (s : TokenSequence) : Cursor := ⟨s.lexemes, 0, Text.size s.source⟩

/-- The cursor after `t`, when `rest` is left. -/
def past (c : Cursor) (t : Lexeme) (rest : List Lexeme) : Cursor :=
  { c with rest := rest, lastStop := t.span.stop }

/-- Where the next token stands, or the end of the source. -/
def nextSpan (c : Cursor) : Span :=
  match c.rest with
  | t :: _ => t.span
  | [] => .empty c.sourceStop

end Cursor

/-- Reads a piece of syntax from the tokens at a cursor. -/
abbrev Reader := EStateM SyntaxError Cursor

namespace Reader

/-- The next token, which stays. -/
def peek? : Reader (Option Lexeme) := fun c => .ok c.rest.head? c

/-- The kind of the token `ahead` places after the next one. -/
def peekKind? (ahead : Nat) : Reader (Option TokenKind) := fun c =>
  .ok (c.rest[ahead]?.map (·.kind)) c

/-- Whether the next token is of the kind. -/
def nextIs (kind : TokenKind) : Reader Bool := fun c =>
  .ok (c.rest.head?.any (·.kind == kind)) c

/-- Takes the next token. -/
def advance : Reader Unit := fun c =>
  match c.rest with
  | t :: rest => .ok () (c.past t rest)
  | [] => .ok () c

/-- Takes the next token if it is of the kind. -/
def accept? (kind : TokenKind) : Reader (Option Lexeme) := fun c =>
  match c.rest with
  | t :: rest => if t.kind = kind then .ok (some t) (c.past t rest) else .ok none c
  | [] => .ok none c

/-- The tokens ended where one of the kind was expected, or an expression. -/
def failAtEnd {α : Type} (expected : Option TokenKind) : Reader α := fun c =>
  .error (.unexpectedEnd expected c.sourceStop) c

/-- Takes the next token, which has to be of the kind; `mismatch` makes the error from the kind and
the span of another one. -/
def expectOr (mismatch : TokenKind → Span → SyntaxError) (kind : TokenKind) : Reader Lexeme :=
  fun c =>
    match c.rest with
    | t :: rest =>
      if t.kind = kind then .ok t (c.past t rest) else .error (mismatch t.kind t.span) c
    | [] => .error (.unexpectedEnd (some kind) c.sourceStop) c

def expect (kind : TokenKind) : Reader Lexeme := expectOr (.unexpectedToken kind) kind

/-- Takes the next token of a declaration. -/
def expectInDeclaration (kind : TokenKind) : Reader Lexeme :=
  expectOr (.malformedDeclaration kind) kind

/-- The span from `start` to the end of the last token taken. -/
def spanFrom (start : Nat) : Reader Span := fun c =>
  .ok (.ofBounds start (max c.lastStop start)) c

/-- Refuses to nest deeper. -/
def tooDeep {α : Type} : Reader α := fun c => .error (.nestingTooDeep c.nextSpan) c

/-- What a step of a loop asks for: another step, or an end. -/
inductive Progress (σ β : Type) where
  | again (state : σ)
  | done (result : β)

/-- At most `n` steps from `state`. -/
def repeatUpTo {σ β : Type} (step : σ → Reader (Progress σ β)) : Nat → σ → Reader β
  | 0, _ => failAtEnd none
  | n + 1, state => do
    match ← step state with
    | .again state => repeatUpTo step n state
    | .done result => return result

/-- Repeats a step until it is done. Each step that asks for another one takes a token. -/
def loop {σ β : Type} (step : σ → Reader (Progress σ β)) (state : σ) : Reader β := fun c =>
  repeatUpTo step (c.rest.length + 1) state c

end Reader

end EcmaFront
