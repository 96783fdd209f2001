import EcmaFront.Token.Lexer
import EcmaFront.Tree.Expression

/-!
# Reading statements and programs

`Nested.within n` are the readers of nested forms when at most `n` levels may still be entered: with
none left they refuse, otherwise they read with one level less. `Program.ofTokens` reads a whole
sequence of tokens, and `parse` a source.
-/

namespace EcmaFront

open Reader

namespace Statement

variable (inner : Nested)

/-- `let name = value;` and the like. -/
def readDeclaration (kind : DeclarationKind) : Reader Statement := do
  let start := (← get).nextSpan.start
  advance
  let name ← expectInDeclaration .identifier
  let _ ← expectInDeclaration (.assignment .assign)
  let value ← inner.assignment
  let _ ← expectInDeclaration (.punctuator .semicolon)
  return .declaration kind ⟨name.text, name.span⟩ value (← spanFrom start)

/-- An expression with a semicolon. -/
def readExpression : Reader Statement := do
  let e ← Expr.read inner
  let _ ← expect (.punctuator .semicolon)
  return .expression e (← spanFrom e.span.start)

/-- The statement that starts with `t`. -/
def readFrom (t : Lexeme) : Reader Statement := do
  match t.kind.statementStart with
  | .declaration kind => readDeclaration inner kind
  | .empty =>
    advance
    return .empty t.span
  | .block => inner.block
  | .debugger =>
    advance
    let _ ← expect (.punctuator .semicolon)
    return .debugger (← spanFrom t.span.start)
  | .importWord =>
    if (← peekKind? 1) = some (.punctuator .dot) then
      readExpression inner
    else
      throw (.unsupported t.kind t.span)
  | .unsupported => throw (.unsupported t.kind t.span)
  | .expression => readExpression inner

/-- One statement; there is none after the last token. -/
def read? : Reader (Option Statement) := do
  match ← peek? with
  | none => return none
  | some t => return some (← readFrom inner t)

def blockStep (before : List Statement) :
    Reader (Progress (List Statement) (List Statement)) := do
  match ← peek? with
  | none => failAtEnd (some (.punctuator .closeBrace))
  | some t =>
    if t.kind = .punctuator .closeBrace then
      advance
      return .done before.reverse
    else
      return .again ((← readFrom inner t) :: before)

/-- Statements in braces. -/
def readBlock : Reader Statement := do
  let start := (← get).nextSpan.start
  let _ ← expect (.punctuator .openBrace)
  let statements ← loop (blockStep inner) []
  return .block statements (← spanFrom start)

end Statement

namespace Nested

/-- No form may be entered. -/
def none : Nested := ⟨tooDeep, tooDeep, tooDeep, tooDeep, tooDeep⟩

/-- The forms read with the readers of the next level. -/
def outside (inner : Nested) : Nested where
  assignment := Expr.readAssignment inner
  operand := Expr.readOperand inner
  construct := Expr.readConstruct inner
  rightOperand := Expr.readChain inner Precedence.power.rightFloor
  block := Statement.readBlock inner

/-- The readers of the forms when at most `n` levels may be entered. -/
def within : Nat → Nested
  | 0 => none
  | n + 1 => outside (within n)

end Nested

namespace Program

def step (inner : Nested) (before : List Statement) :
    Reader (Progress (List Statement) (List Statement)) := do
  match ← Statement.read? inner with
  | some statement => return .again (statement :: before)
  | none => return .done before.reverse

/-- All statements that are left. The span of a program is the whole source. -/
def read (inner : Nested) : Reader Program := do
  let statements ← loop (step inner) []
  return ⟨statements, .ofBounds 0 (← get).sourceStop⟩

/-- The program of a sequence of tokens, when forms may nest `limit` levels deep. -/
def ofTokens (limit : Nat) (tokens : TokenSequence) : Except SyntaxError Program :=
  match read (.within limit) (Cursor.start tokens) with
  | .ok program _ => .ok program
  | .error e _ => .error e

end Program

end EcmaFront
