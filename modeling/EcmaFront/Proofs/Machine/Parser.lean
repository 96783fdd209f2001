import EcmaFront.Proofs.Machine.Fault
import EcmaFront.Tree.Statement

/-!
# A parser with partial operations

A `Parser` keeps the number of tokens that it has taken, the end of the last one and how many nested
forms are open. Its steps index the tokens, cut texts, add positions and count the open forms, and
each of these operations may meet a `Fault`. After an error the parser stays where it is, and can be
asked again.

* `Parser.Step`: a step gives a result or a syntax error and a new state, unless it meets a fault.
* `Parser.Forms.within`: the steps that read nested forms, when so many may be inside one another.
* `Parser.Call`, `Parser.call`: what a parser can be asked for.
-/

namespace EcmaFront

/-- A token of the sequence with its text. -/
def TokenSequence.cut (s : TokenSequence) (t : Token) : Checked Lexeme := do
  let _ ← t.span.checkedStop
  return ⟨t.kind, t.span, (t.span.slice s.source).getD []⟩

structure Parser where
  tokens : TokenSequence
  /-- How many tokens have been taken. -/
  position : Nat
  /-- The end of the last token taken. -/
  lastStop : Nat
  /-- How many nested forms are open. -/
  depth : Nat

namespace Parser

/-- The parser before the first token. -/
def start (tokens : TokenSequence) : Parser := ⟨tokens, 0, 0, 0⟩

/-- Where the next token stands, or the end of the source. -/
def nextSpan (p : Parser) : Span :=
  match p.tokens.get? p.position with
  | some t => t.span
  | none => .empty (Text.size p.tokens.source)

open Checked (check)

abbrev Step := ExceptT SyntaxError (StateT Parser Checked)

namespace Step

/-! ## Basic steps -/

/-- The next token, which stays. -/
def current : Step (Option Lexeme) := fun p =>
  match p.tokens.get? p.position with
  | some t => (p.tokens.cut t).map fun l => (.ok (some l), p)
  | none => .ok (.ok none, p)

/-- The kind of the token `ahead` places after the next one. -/
def peekKind? (ahead : Nat) : Step (Option TokenKind) := fun p =>
  .ok (.ok ((p.tokens.get? (p.position + ahead)).map (·.kind)), p)

/-- Whether the next token is of the kind. -/
def nextIs (kind : TokenKind) : Step Bool := fun p =>
  .ok (.ok ((p.tokens.get? p.position).any (·.kind == kind)), p)

/-- Takes the next token, which has to be there. -/
def bump : Step Lexeme := fun p =>
  match p.tokens.get? p.position with
  | some t => do
    let l ← p.tokens.cut t
    let stop ← t.span.checkedStop
    return (.ok l, { p with position := p.position + 1, lastStop := stop })
  | none => .error .noToken

def endOfInput : Step Nat := fun p => .ok (.ok (Text.size p.tokens.source), p)

/-- The tokens ended where one of the kind was expected, or an expression. -/
def failAtEnd {α : Type} (expected : Option TokenKind) : Step α := do
  throw (.unexpectedEnd expected (← endOfInput))

/-- Takes the next token if it is of the kind. -/
def accept? (kind : TokenKind) : Step (Option Lexeme) := do
  if ← nextIs kind then return some (← bump) else return none

/-- Takes the next token, which has to be of the kind; `mismatch` makes the error from the kind and
the span of another one. -/
def expectOr (mismatch : TokenKind → Span → SyntaxError) (kind : TokenKind) : Step Lexeme := do
  match ← current with
  | some t => if t.kind = kind then bump else throw (mismatch t.kind t.span)
  | none => failAtEnd (some kind)

def expect (kind : TokenKind) : Step Lexeme := expectOr (.unexpectedToken kind) kind

/-- Takes the next token of a declaration. -/
def expectInDeclaration (kind : TokenKind) : Step Lexeme :=
  expectOr (.malformedDeclaration kind) kind

/-- The span from `start` to the end of the last token taken. -/
def spanFrom (start : Nat) : Step Span := fun p =>
  (Span.checkedOfBounds start (max p.lastStop start)).map fun span => (.ok span, p)

/-- Runs a step one form further in. -/
def nested {α : Type} (x : Step α) : Step α := fun p =>
  if maxNesting ≤ p.depth then
    .ok (.error (.nestingTooDeep p.nextSpan), p)
  else do
    let depth ← Checked.add p.depth 1
    let (outcome, p') ← x { p with depth := depth }
    let depth ← Checked.sub p'.depth 1
    return (outcome, { p' with depth := depth })

export Reader (Progress)

/-- At most `n` steps from `state`. -/
def repeatUpTo {σ β : Type} (step : σ → Step (Progress σ β)) : Nat → σ → Step β
  | 0, _ => check (.error .endless)
  | n + 1, state => do
    match ← step state with
    | .again state => repeatUpTo step n state
    | .done result => return result

/-- Repeats a step until it is done, at most once more than there are tokens left. -/
def loop {σ β : Type} (step : σ → Step (Progress σ β)) (state : σ) : Step β := fun p =>
  repeatUpTo step (p.tokens.length - p.position + 1) state p

end Step

open Step

/-- The steps that read the forms that count as nested. -/
structure Forms where
  assignment : Step Expr
  /-- The operand of an operator in front of it. -/
  operand : Step Expr
  /-- A form that starts with `new`. -/
  construct : Step Expr
  /-- The right operand of an operator that groups to the right, with the operators that bind tighter
  than a level. -/
  rightOperand : Precedence → Step Expr
  block : Step Statement

section

variable (inner : Forms)

/-! ## Expressions -/

def sequenceStep (before : List Expr) : Step (Progress (List Expr) (List Expr)) := do
  match ← accept? (.punctuator .comma) with
  | some _ => return .again ((← inner.assignment) :: before)
  | none => return .done before.reverse

def expression : Step Expr := do
  let first ← inner.assignment
  if ← nextIs (.punctuator .comma) then
    let expressions ← loop (sequenceStep inner) [first]
    return .sequence expressions (← spanFrom first.span.start)
  else
    return first

def argument : Step Argument := do
  match ← accept? (.punctuator .ellipsis) with
  | some dots =>
    let e ← inner.assignment
    return .spread e (← spanFrom dots.span.start)
  | none => return .plain (← inner.assignment)

def argumentsStep (before : List Argument) : Step (Progress (List Argument) (List Argument)) := do
  if ← nextIs (.punctuator .closeParen) then
    return .done before.reverse
  else
    let a ← argument inner
    match ← accept? (.punctuator .comma) with
    | some _ => return .again (a :: before)
    | none => return .done (a :: before).reverse

def arguments : Step (List Argument) := do
  let _ ← expect (.punctuator .openParen)
  let arguments ← loop (argumentsStep inner) []
  let _ ← expect (.punctuator .closeParen)
  return arguments

def propertyName : Step Identifier := do
  match ← current with
  | none => failAtEnd (some .identifier)
  | some t =>
    if t.kind.isPropertyName then
      let t ← bump
      return ⟨t.text, t.span⟩
    else
      throw (.unexpectedToken .identifier t.kind t.span)

def metaName (name : String) : Step Unit := do
  let t ← expect .identifier
  if t.text ≠ name.toList then
    throw (.unexpectedToken .identifier t.kind t.span)

/-- The token after the next one, which stays. -/
def second : Step (Option Token) := fun p => .ok (.ok (p.tokens.get? (p.position + 1)), p)

/-- The span from the start of one to the end of another. -/
def spanThrough (first last : Span) : Checked Span := do
  Span.checkedOfBounds first.start (← last.checkedStop)

/-- The span of a numeral that goes on after its decimal digits `t`. -/
def attachedSuffix? (t : Lexeme) : Step (Option Span) := do
  match ← current with
  | none => return none
  | some next =>
    if next.span.start ≠ (← check t.span.checkedStop) then
      return none
    else if next.kind.isPropertyName then
      return some (← check (spanThrough t.span next.span))
    else if next.kind = .punctuator .dot then
      match ← second with
      | none => return none
      | some digits =>
        if digits.kind = .number ∧ digits.span.start = (← check next.span.checkedStop) then
          return some (← check (spanThrough t.span digits.span))
        else
          return none
    else
      return none

def numeral (t : Lexeme) : Step Nat :=
  match Numeral.decode t.text t.span with
  | .ok value => return value
  | .error e => throw e

def number (t : Lexeme) : Step Expr := do
  match ← attachedSuffix? t with
  | some span => throw (.unsupported .number span)
  | none => return .leaf (.number (← numeral t)) t.span

def arrayStep (before : List ArrayElement) :
    Step (Progress (List ArrayElement) (List ArrayElement)) := do
  match ← current with
  | none => failAtEnd (some (.punctuator .closeBracket))
  | some t =>
    if t.kind = .punctuator .closeBracket then
      let _ ← bump
      return .done before.reverse
    else if t.kind = .punctuator .comma then
      let _ ← bump
      return .again (.hole (.empty t.span.start) :: before)
    else
      let element := ArrayElement.item (← argument inner)
      match ← accept? (.punctuator .comma) with
      | some _ => return .again (element :: before)
      | none =>
        let _ ← expect (.punctuator .closeBracket)
        return .done (element :: before).reverse

def array : Step Expr := do
  let bracket ← bump
  let elements ← loop (arrayStep inner) []
  return .array elements (← spanFrom bracket.span.start)

/-- What follows the key of a property whose first token is `t`. -/
def propertyValue (key : PropertyKey) (t : Lexeme) : Step ObjectMember := do
  if ← nextIs (.punctuator .openParen) then
    throw (.unsupported (.keyword .functionKw) (← get).nextSpan)
  let _ ← expect (.punctuator .colon)
  let value ← inner.assignment
  return .property key value (← spanFrom t.span.start)

/-- The member that starts with `t`. A name without a value is found behind it. -/
def memberFrom (t : Lexeme) : Step ObjectMember := do
  match t.kind.keyStart with
  | .name =>
    let t ← bump
    let after ← peekKind? 0
    if t.kind = .identifier ∧
        (after = some (.punctuator .comma) ∨ after = some (.punctuator .closeBrace)) then
      return .shorthand ⟨t.text, t.span⟩
    else
      propertyValue inner (.name ⟨t.text, t.span⟩) t
  | .string =>
    let t ← bump
    propertyValue inner (.string t.text t.span) t
  | .number =>
    let t ← bump
    let value ← numeral t
    propertyValue inner (.number value t.span) t
  | .computed =>
    let t ← bump
    let e ← inner.assignment
    let _ ← expect (.punctuator .closeBracket)
    propertyValue inner (.computed e) t
  | .other => throw (.unexpectedToken .identifier t.kind t.span)

def member : Step ObjectMember := do
  match ← accept? (.punctuator .ellipsis) with
  | some dots =>
    let e ← inner.assignment
    return .spread e (← spanFrom dots.span.start)
  | none =>
    match ← current with
    | none => failAtEnd (some (.punctuator .closeBrace))
    | some t => memberFrom inner t

def objectStep (before : List ObjectMember) :
    Step (Progress (List ObjectMember) (List ObjectMember)) := do
  if ← nextIs (.punctuator .closeBrace) then
    return .done before.reverse
  else
    let member ← member inner
    match ← accept? (.punctuator .comma) with
    | some _ => return .again (member :: before)
    | none => return .done (member :: before).reverse

def object : Step Expr := do
  let brace ← bump
  let members ← loop (objectStep inner) []
  let _ ← expect (.punctuator .closeBrace)
  return .object members (← spanFrom brace.span.start)

def parenthesized : Step Expr := do
  let paren ← bump
  let inside ← expression inner
  let _ ← expect (.punctuator .closeParen)
  return .parenthesized inside (← spanFrom paren.span.start)

def importMeta (t : Lexeme) : Step Expr := do
  if (← peekKind? 1) = some (.punctuator .dot) then
    let _ ← bump
    let _ ← bump
    metaName "meta"
    return .leaf .importMeta (← spanFrom t.span.start)
  else
    throw (.unsupported t.kind t.span)

def primary : Step Expr := do
  match ← current with
  | none => failAtEnd none
  | some t =>
    match t.primaryStart with
    | .number =>
      let t ← bump
      number t
    | .leaf l =>
      let _ ← bump
      return .leaf l t.span
    | .importWord => importMeta t
    | .parenthesized => parenthesized inner
    | .array => array inner
    | .object => object inner
    | .unsupported => throw (.unsupported t.kind t.span)
    | .other => throw (.expressionExpected t.kind t.span)

def finishProperty (e : Expr) (optional : Bool) : Step Expr := do
  let name ← propertyName
  return .property e name optional (← spanFrom e.span.start)

def finishElement (e : Expr) (optional : Bool) : Step Expr := do
  let _ ← expect (.punctuator .openBracket)
  let index ← expression inner
  let _ ← expect (.punctuator .closeBracket)
  return .element e index optional (← spanFrom e.span.start)

def finishCall (e : Expr) (optional : Bool) : Step Expr := do
  let arguments ← arguments inner
  return .call e arguments optional (← spanFrom e.span.start)

/-- The form that the next token starts, seen as a link of a chain. -/
def nextLink : Step LinkStart := do
  return ((← peekKind? 0).map TokenKind.linkStart).getD .other

def finishOptional (e : Expr) : Step Expr := do
  match ← nextLink with
  | .paren => finishCall inner e true
  | .bracket => finishElement inner e true
  | _ => finishProperty e true

def linkStep (e : Expr) : Step (Progress Expr Expr) := do
  match ← nextLink with
  | .dot =>
    let _ ← bump
    return .again (← finishProperty e false)
  | .bracket => return .again (← finishElement inner e false)
  | .paren => return .again (← finishCall inner e false)
  | .optionalDot =>
    let _ ← bump
    return .again (← finishOptional inner e)
  | .other => return .done e

def calleeStep (e : Expr) : Step (Progress Expr Expr) := do
  match ← nextLink with
  | .dot =>
    let _ ← bump
    return .again (← finishProperty e false)
  | .bracket => return .again (← finishElement inner e false)
  | _ => return .done e

def head : Step Expr := do
  if ← nextIs (.keyword .newKw) then inner.construct else primary inner

def construct : Step Expr := do
  let word ← bump
  match ← accept? (.punctuator .dot) with
  | some _ =>
    metaName "target"
    return .leaf .newTarget (← spanFrom word.span.start)
  | none =>
    let callee ← loop (calleeStep inner) (← head inner)
    if ← nextIs (.punctuator .openParen) then
      let arguments ← arguments inner
      return .construct callee arguments (← spanFrom word.span.start)
    else
      return .constructBare callee (← spanFrom word.span.start)

def links : Step Expr := do
  let head ← head inner
  loop (linkStep inner) head

def updated : Step Expr := do
  let e ← links inner
  match (← peekKind? 0).bind UpdateOperator.ofKind? with
  | none => return e
  | some op =>
    if e.isAssignable then
      let _ ← bump
      return .update op false e (← spanFrom e.span.start)
    else
      throw (.invalidTarget e.span)

def operand : Step Expr := do
  match ← current with
  | none => failAtEnd none
  | some t =>
    match t.kind.operandStart with
    | .update op =>
      let _ ← bump
      let e ← inner.operand
      if e.isAssignable then
        return .update op true e (← spanFrom t.span.start)
      else
        throw (.invalidTarget e.span)
    | .unary op =>
      let _ ← bump
      let e ← inner.operand
      return .unary op e (← spanFrom t.span.start)
    | .await =>
      let _ ← bump
      let e ← inner.operand
      return .await e (← spanFrom t.span.start)
    | .plain => updated inner

/-- The operation on two operands that the token of the kind stands for, if it stands for one. -/
def combine? (kind : TokenKind) (left right : Expr) : Step (Option Expr) := do
  let span ← check (left.span.checkedCover right.span)
  match LogicalOperator.ofKind? kind with
  | some op =>
    if Expr.mixesWith (.logical op) left || Expr.mixesWith (.logical op) right then
      throw (.mixedCoalescing span)
    else
      return some (.operation (.logical op) left right span)
  | none =>
    match BinaryOperator.ofKind? kind with
    | some op => return some (.operation (.binary op) left right span)
    | none => return none

/-- Gives `left` the next operator that binds tighter than `floor`, with its right operand. -/
def chainStep (operandFrom : Precedence → Step Expr) (floor : Precedence) (left : Expr) :
    Step (Progress Expr Expr) := do
  match ← peekKind? 0 with
  | none => return .done left
  | some kind =>
    match kind.precedence? with
    | none => return .done left
    | some precedence =>
      if precedence.rank ≤ floor.rank then
        return .done left
      else
        let _ ← bump
        let floor := precedence.rightFloor
        let right ←
          if floor.rank < precedence.rank then inner.rightOperand floor else operandFrom floor
        match ← combine? kind left right with
        | some e => return .again e
        | none => return .done left

/-- Operands with the operators between them that bind tighter than `floor`, when fewer than `height`
levels do. -/
def chainWithin : Nat → Precedence → Step Expr
  | 0, _ => check (.error .endless)
  | height + 1, floor => do
    let left ← operand inner
    loop (chainStep inner (chainWithin height) floor) left

def chain (floor : Precedence) : Step Expr :=
  chainWithin inner (Precedence.power.rank - floor.rank + 1) floor

def conditional : Step Expr := do
  let condition ← chain inner .conditional
  match ← accept? (.punctuator .question) with
  | none => return condition
  | some _ =>
    let whenTrue ← inner.assignment
    let _ ← expect (.punctuator .colon)
    let whenFalse ← inner.assignment
    return .conditional condition whenTrue whenFalse (← spanFrom condition.span.start)

def yieldForm : Step Expr := do
  let word ← bump
  let delegates := (← accept? (.punctuator .star)).isSome
  match ← peekKind? 0 with
  | none => if delegates then failAtEnd none else return .yield (← spanFrom word.span.start)
  | some kind =>
    if delegates || kind.startsYieldOperand then
      let e ← inner.assignment
      return .yieldValue delegates e (← spanFrom word.span.start)
    else
      return .yield (← spanFrom word.span.start)

/-- Whether the tokens start an arrow function without parameters. -/
def startsArrow : Step Bool := do
  return (← peekKind? 0) = some (.punctuator .openParen) &&
    (← peekKind? 1) = some (.punctuator .closeParen) && (← peekKind? 2) = some (.punctuator .arrow)

def finishAssignment (target : Expr) : Step Expr := do
  match ← current with
  | none => return target
  | some t =>
    if t.kind = .punctuator .arrow then
      throw (.unsupported t.kind t.span)
    else
      match AssignmentOperator.ofKind? t.kind with
      | none => return target
      | some op =>
        if target.isAssignable then
          let _ ← bump
          let value ← inner.assignment
          return .assignment op target value (← spanFrom target.span.start)
        else
          throw (.invalidTarget target.span)

def assignment : Step Expr := do
  if ← nextIs (.keyword .yieldKw) then
    yieldForm inner
  else if ← startsArrow then
    let paren ← bump
    throw (.unsupported (.punctuator .arrow) paren.span)
  else
    let target ← conditional inner
    finishAssignment inner target

/-! ## Statements -/

def declaration (kind : DeclarationKind) : Step Statement := do
  let word ← bump
  let name ← expectInDeclaration .identifier
  let _ ← expectInDeclaration (.assignment .assign)
  let value ← inner.assignment
  let _ ← expectInDeclaration (.punctuator .semicolon)
  return .declaration kind ⟨name.text, name.span⟩ value (← spanFrom word.span.start)

def expressionStatement : Step Statement := do
  let e ← expression inner
  let _ ← expect (.punctuator .semicolon)
  return .expression e (← spanFrom e.span.start)

def statementFrom (t : Lexeme) : Step Statement := do
  match t.kind.statementStart with
  | .declaration kind => declaration inner kind
  | .empty =>
    let _ ← bump
    return .empty t.span
  | .block => inner.block
  | .debugger =>
    let _ ← bump
    let _ ← expect (.punctuator .semicolon)
    return .debugger (← spanFrom t.span.start)
  | .importWord =>
    if (← peekKind? 1) = some (.punctuator .dot) then
      expressionStatement inner
    else
      throw (.unsupported t.kind t.span)
  | .unsupported => throw (.unsupported t.kind t.span)
  | .expression => expressionStatement inner

/-- One statement; there is none after the last token. -/
def statement? : Step (Option Statement) := do
  match ← current with
  | none => return none
  | some t => return some (← statementFrom inner t)

def blockStep (before : List Statement) :
    Step (Progress (List Statement) (List Statement)) := do
  match ← peekKind? 0 with
  | none => failAtEnd (some (.punctuator .closeBrace))
  | some kind =>
    if kind = .punctuator .closeBrace then
      let _ ← bump
      return .done before.reverse
    else
      match ← statement? inner with
      | some statement => return .again (statement :: before)
      | none => return .again before

def block : Step Statement := do
  let brace ← expect (.punctuator .openBrace)
  let statements ← loop (blockStep inner) []
  return .block statements (← spanFrom brace.span.start)

def programStep (before : List Statement) :
    Step (Progress (List Statement) (List Statement)) := do
  match ← statement? inner with
  | some statement => return .again (statement :: before)
  | none => return .done before.reverse

def program : Step Program := do
  let statements ← loop (programStep inner) []
  return ⟨statements, ← check (Span.checkedOfBounds 0 (← endOfInput))⟩

end

namespace Forms

/-- No form can be read. -/
def none : Forms :=
  let fault {α : Type} : Step α := check (.error .endless)
  ⟨fault, fault, fault, fun _ => fault, fault⟩

/-- The steps of the forms, which are counted and whose own forms are read by `inner`. -/
def around (inner : Forms) : Forms where
  assignment := nested (Parser.assignment inner)
  operand := nested (Parser.operand inner)
  construct := nested (Parser.construct inner)
  rightOperand floor := nested (chain inner floor)
  block := nested (Parser.block inner)

/-- The steps of the forms when fewer than `n` of them may be open. -/
def within : Nat → Forms
  | 0 => none
  | n + 1 => around (within n)

end Forms

/-- What a parser can be asked for. -/
inductive Call where
  | statement
  | expression
  | program
  deriving DecidableEq, Repr

namespace Call

def Result : Call → Type
  | .statement => Option Statement
  | .expression => Expr
  | .program => Program

/-- What the call reads, when forms may nest `limit` levels deep. -/
def read (limit : Nat) : (k : Call) → Reader k.Result
  | .statement => Statement.read? (.within limit)
  | .expression => Expr.read (.within limit)
  | .program => Program.read (.within limit)

end Call

/-- Asks the parser. At most `maxNesting` forms are open when one more is refused. -/
def call : (k : Call) → Step k.Result
  | .statement => statement? (.within (maxNesting + 1))
  | .expression => expression (.within (maxNesting + 1))
  | .program => program (.within (maxNesting + 1))

end Parser

end EcmaFront
