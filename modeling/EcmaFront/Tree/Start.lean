import EcmaFront.Token.Operator
import EcmaFront.Tree.Basic
import EcmaFront.Tree.Cursor

/-!
# What a token starts

One token decides which form is read next. Each type here lists the forms that are possible at one
place, and a function on kinds of tokens chooses among them.
-/

namespace EcmaFront

/-- What a statement can start with. -/
inductive StatementStart where
  | declaration (kind : DeclarationKind)
  | empty
  | block
  | debugger
  /-- `import`, which starts an expression only before a dot. -/
  | importWord
  | unsupported
  | expression
  deriving DecidableEq, Repr

/-- What an operand of an operator can start with. -/
inductive OperandStart where
  | update (op : UpdateOperator)
  | unary (op : UnaryOperator)
  | await
  | plain
  deriving DecidableEq, Repr

/-- What an expression without operators around it can start with. -/
inductive PrimaryStart where
  | number
  | leaf (leaf : Leaf)
  | importWord
  | parenthesized
  | array
  | object
  | unsupported
  | other
  deriving DecidableEq, Repr

/-- How an access or a call can go on. -/
inductive LinkStart where
  | dot
  | bracket
  | paren
  | optionalDot
  | other
  deriving DecidableEq, Repr

/-- What a member of an object can start with, the spread apart. -/
inductive KeyStart where
  | name
  | string
  | number
  | computed
  | other
  deriving DecidableEq, Repr

namespace TokenKind

/-- The words that start statements for which there are no trees. -/
def startsUnsupportedStatement : TokenKind → Bool
  | .keyword .ifKw | .keyword .doKw | .keyword .whileKw | .keyword .forKw
  | .keyword .continueKw | .keyword .breakKw | .keyword .returnKw | .keyword .withKw
  | .keyword .switchKw | .keyword .throwKw | .keyword .tryKw | .keyword .functionKw
  | .keyword .classKw | .keyword .exportKw | .keyword .importKw | .keyword .enumKw
  | .keyword .interfaceKw => true
  | _ => false

def statementStart (kind : TokenKind) : StatementStart :=
  match DeclarationKind.ofKind? kind with
  | some declaration => .declaration declaration
  | none =>
    match kind with
    | .punctuator .semicolon => .empty
    | .punctuator .openBrace => .block
    | .keyword .debuggerKw => .debugger
    | .keyword .importKw => .importWord
    | _ => if kind.startsUnsupportedStatement then .unsupported else .expression

def operandStart (kind : TokenKind) : OperandStart :=
  match UpdateOperator.ofKind? kind with
  | some op => .update op
  | none =>
    match UnaryOperator.ofKind? kind with
    | some op => .unary op
    | none => if kind = .keyword .awaitKw then .await else .plain

def linkStart : TokenKind → LinkStart
  | .punctuator .dot => .dot
  | .punctuator .openBracket => .bracket
  | .punctuator .openParen => .paren
  | .punctuator .optionalDot => .optionalDot
  | _ => .other

def keyStart : TokenKind → KeyStart
  | .identifier | .keyword _ => .name
  | .string => .string
  | .number => .number
  | .punctuator .openBracket => .computed
  | _ => .other

/-- Whether `yield` before the token has an operand. -/
def startsYieldOperand : TokenKind → Bool
  | .punctuator .closeParen | .punctuator .closeBracket | .punctuator .closeBrace
  | .punctuator .comma | .punctuator .semicolon | .punctuator .colon | .punctuator .question
  | .punctuator .arrow | .assignment _ => false
  | _ => true

end TokenKind

/-- What an expression that starts with the token is. A slash would start a regular expression. -/
def Lexeme.primaryStart (t : Lexeme) : PrimaryStart :=
  match t.kind with
  | .number => .number
  | .string => .leaf (.string t.text)
  | .identifier => .leaf (.identifier t.text)
  | .keyword .trueKw => .leaf (.boolean true)
  | .keyword .falseKw => .leaf (.boolean false)
  | .keyword .nullKw => .leaf .null
  | .keyword .thisKw => .leaf .this
  | .keyword .superKw => .leaf .super
  | .keyword .importKw => .importWord
  | .punctuator .openParen => .parenthesized
  | .punctuator .openBracket => .array
  | .punctuator .openBrace => .object
  | .keyword .functionKw | .keyword .classKw | .punctuator .slash | .assignment .divide =>
    .unsupported
  | _ => .other

end EcmaFront
