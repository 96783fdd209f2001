import EcmaFront.Text.Span
import EcmaFront.Token.Kind

/-!
# Syntax errors

Why a sequence of tokens is no program. Reading stops at the first error.
-/

namespace EcmaFront

/-- How deeply expressions and blocks may nest. -/
def maxNesting : Nat := 64

inductive SyntaxError where
  /-- A declaration is not of the form `let name = value ;`. -/
  | malformedDeclaration (expected found : TokenKind) (span : Span)
  /-- A form of the language that no tree is built for. -/
  | unsupported (kind : TokenKind) (span : Span)
  /-- The tokens end too early. Without an `expected` kind an expression was expected. -/
  | unexpectedEnd (expected : Option TokenKind) (offset : Nat)
  | unexpectedToken (expected found : TokenKind) (span : Span)
  | expressionExpected (found : TokenKind) (span : Span)
  /-- Something is assigned to that cannot be. -/
  | invalidTarget (span : Span)
  | invalidNumber (span : Span)
  /-- The operator `??` has an operand with `&&` or `||` that is not in parentheses. -/
  | mixedCoalescing (span : Span)
  | nestingTooDeep (span : Span)
  deriving DecidableEq, Repr, Inhabited

namespace SyntaxError

/-- What the error points at: at the end of the source, a span without bytes. -/
def span : SyntaxError → Span
  | .malformedDeclaration _ _ span | .unsupported _ span | .unexpectedToken _ _ span
  | .expressionExpected _ span | .invalidTarget span | .invalidNumber span
  | .mixedCoalescing span | .nestingTooDeep span => span
  | .unexpectedEnd _ offset => .empty offset

def offset (e : SyntaxError) : Nat := e.span.start

/-- The kind of token that was wanted, if it was a certain one. -/
def expected? : SyntaxError → Option TokenKind
  | .malformedDeclaration expected _ _ | .unexpectedToken expected _ _ => some expected
  | .unexpectedEnd expected _ => expected
  | _ => none

/-- The kind of token that stands there instead. -/
def found? : SyntaxError → Option TokenKind
  | .malformedDeclaration _ found _ | .unexpectedToken _ found _ | .expressionExpected found _ =>
    some found
  | .unsupported kind _ => some kind
  | _ => none

def message : SyntaxError → String
  | .malformedDeclaration expected found _ =>
    s!"malformed declaration: expected {expected.quotedLabel}, found {found.quotedLabel}"
  | .unsupported kind _ => s!"{kind.quotedLabel} is not supported yet"
  | .unexpectedEnd _ _ => "unexpected end of input"
  | .unexpectedToken expected found _ =>
    s!"expected {expected.quotedLabel}, found {found.quotedLabel}"
  | .expressionExpected found _ => s!"expression expected, found {found.quotedLabel}"
  | .invalidTarget _ => "invalid assignment target"
  | .invalidNumber _ => "invalid numeric literal"
  | .mixedCoalescing _ => "'??' cannot be mixed with '&&' or '||' without parentheses"
  | .nestingTooDeep _ => s!"nesting exceeds {maxNesting} levels"

end SyntaxError

end EcmaFront
