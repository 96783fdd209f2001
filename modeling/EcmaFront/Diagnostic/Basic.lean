import EcmaFront.Diagnostic.Message
import EcmaFront.Diagnostic.Template
import EcmaFront.Text.LineIndex
import EcmaFront.Token.LexicalError
import EcmaFront.Tree.SyntaxError

/-!
# Diagnostics

A diagnostic is a message with its arguments filled in, at a location. `ofLexical` and `ofSyntax`
turn the errors of a file into diagnostics at the place that they name.
-/

namespace EcmaFront

/-- What a diagnostic is about. -/
inductive Location where
  | nowhere
  | file (name : String)
  | span (file : String) (span : Span) (position : LineColumn)
  deriving DecidableEq, Repr, Inhabited

namespace Location

def file? : Location → Option String
  | .nowhere => none
  | .file name => some name
  | .span name _ _ => some name

def span? : Location → Option Span
  | .span _ s _ => some s
  | _ => none

def position? : Location → Option LineColumn
  | .span _ _ p => some p
  | _ => none

/-- The span of a file, with the position of its start. -/
def ofSpan (file : String) (lines : LineIndex) (s : Span) : Location :=
  .span file s (lines.lineColumnOf s.start)

/-- What stands in front of a message. -/
def header : Location → String
  | .nowhere => ""
  | .file name => name ++ ": "
  | .span name _ position => name ++ "(" ++ position.toText ++ "): "

end Location

structure Diagnostic where
  location : Location
  text : String
  code : Nat
  category : Category
  deriving DecidableEq, Repr, Inhabited

namespace Diagnostic

/-- A message at a location. -/
def make (location : Location) (message : Message) (arguments : List String) : Diagnostic where
  location := location
  text := Template.format message.template arguments
  code := message.code
  category := message.category

def isError (d : Diagnostic) : Bool := d.category == .error

/-- The line that reports a diagnostic. -/
def toLine (d : Diagnostic) : String :=
  s!"{d.location.header}{d.category.text} JS{d.code}: {d.text}"

/-- The diagnostic of a lexical error. It points at one byte; a source that is too large has no
place to point at. -/
def ofLexical (file : String) (lines : LineIndex) (e : LexicalError) : Diagnostic :=
  let place := Location.ofSpan file lines ⟨e.offset, 1⟩
  match e with
  | .unterminatedString _ _ => make place .unterminatedString []
  | .unexpectedCharacter c _ _ => make place .invalidCharacter [Text.bareChar c]
  | .exhausted _ _ => make place .unexpectedEnd []
  | .tooLarge size => make (.file file) .sourceTooLarge [toString size]

/-- The diagnostic where a token of the kind was expected. -/
def ofExpected (place : Location) (kind : TokenKind) : Diagnostic :=
  match kind with
  | .identifier => make place .identifierExpected []
  | kind => make place .tokenExpected [kind.label]

/-- The diagnostic of a syntax error. -/
def ofSyntax (file : String) (lines : LineIndex) (e : SyntaxError) : Diagnostic :=
  let place := Location.ofSpan file lines e.span
  match e with
  | .malformedDeclaration expected _ _ => ofExpected place expected
  | .unexpectedToken expected _ _ => ofExpected place expected
  | .unexpectedEnd (some expected) _ => ofExpected place expected
  | .unexpectedEnd none _ => make place .expressionExpected []
  | .expressionExpected _ _ => make place .expressionExpected []
  | .unsupported kind _ => make place .notSupported [kind.label]
  | .invalidTarget _ => make place .invalidTarget []
  | .invalidNumber _ => make place .invalidNumber []
  | .mixedCoalescing _ => make place .mixedOperations ["??", "&& or ||"]
  | .nestingTooDeep _ => make place .nestingTooDeep [toString maxNesting]

end Diagnostic

end EcmaFront
