import EcmaFront.Tree.Numeral
import EcmaFront.Tree.Precedence
import EcmaFront.Tree.Start

/-!
# Reading expressions

Some forms count as nested: assignments (and so whatever stands in brackets), operands of operators
in front, right operands of `**`, and `new` forms. The readers of those forms one level further in
are the fields of a `Nested`; every reader here takes one and calls it for what it nests. Chains of
accesses and calls and chains of left-grouping operators are loops and do not nest.

* `readChain`: operators between operands, by precedence climbing.
* `readAssignment`: the reader of an assignment, given the readers of what it nests.
-/

namespace EcmaFront

open Reader

/-- The readers of the forms that count as nested. -/
structure Nested where
  assignment : Reader Expr
  /-- The operand of an operator in front of it. -/
  operand : Reader Expr
  /-- A form that starts with `new`. -/
  construct : Reader Expr
  /-- The right operand of an operator that groups to the right. -/
  rightOperand : Reader Expr
  block : Reader Statement

namespace Expr

variable (inner : Nested)

/-- Expressions with commas between them, after those in `before`, which are in reverse. -/
def sequenceStep (before : List Expr) : Reader (Progress (List Expr) (List Expr)) := do
  match ← accept? (.punctuator .comma) with
  | some _ => return .again ((← inner.assignment) :: before)
  | none => return .done before.reverse

/-- One or more assignments with commas between them. -/
def read : Reader Expr := do
  let first ← inner.assignment
  if ← nextIs (.punctuator .comma) then
    let expressions ← loop (sequenceStep inner) [first]
    return .sequence expressions (← spanFrom first.span.start)
  else
    return first

def readArgument : Reader Argument := do
  match ← accept? (.punctuator .ellipsis) with
  | some dots =>
    let e ← inner.assignment
    return .spread e (← spanFrom dots.span.start)
  | none => return .plain (← inner.assignment)

def argumentsStep (before : List Argument) :
    Reader (Progress (List Argument) (List Argument)) := do
  if ← nextIs (.punctuator .closeParen) then
    return .done before.reverse
  else
    let a ← readArgument inner
    match ← accept? (.punctuator .comma) with
    | some _ => return .again (a :: before)
    | none => return .done (a :: before).reverse

/-- Arguments in parentheses; a comma may follow the last one. -/
def readArguments : Reader (List Argument) := do
  let _ ← expect (.punctuator .openParen)
  let arguments ← loop (argumentsStep inner) []
  let _ ← expect (.punctuator .closeParen)
  return arguments

/-- The name after a dot. Reserved words are names here. -/
def readPropertyName : Reader Identifier := do
  match ← peek? with
  | none => failAtEnd (some .identifier)
  | some t =>
    if t.kind.isPropertyName then
      advance
      return ⟨t.text, t.span⟩
    else
      throw (.unexpectedToken .identifier t.kind t.span)

/-- The word `name` after the dot of `new.target` or `import.meta`. -/
def readMetaName (name : String) : Reader Unit := do
  let t ← expect .identifier
  if t.text ≠ name.toList then
    throw (.unexpectedToken .identifier t.kind t.span)

/-- The span of a numeral that goes on after its decimal digits `t`: with a name right behind them,
or with a dot and more digits. Such numerals are not supported. -/
def attachedSuffix? (t : Lexeme) : List Lexeme → Option Span
  | [] => none
  | next :: rest =>
    if next.span.start ≠ t.span.stop then
      none
    else if next.kind.isPropertyName then
      some (.ofBounds t.span.start next.span.stop)
    else if next.kind = .punctuator .dot then
      match rest with
      | digits :: _ =>
        if digits.kind = .number ∧ digits.span.start = next.span.stop then
          some (.ofBounds t.span.start digits.span.stop)
        else
          none
      | [] => none
    else
      none

/-- The value of the numeral `t`. -/
def readNumeral (t : Lexeme) : Reader Nat :=
  match Numeral.decode t.text t.span with
  | .ok value => return value
  | .error e => throw e

/-- The number whose digits `t` have just been taken. -/
def readNumber (t : Lexeme) : Reader Expr := do
  match attachedSuffix? t (← get).rest with
  | some span => throw (.unsupported .number span)
  | none => return .leaf (.number (← readNumeral t)) t.span

def arrayStep (before : List ArrayElement) :
    Reader (Progress (List ArrayElement) (List ArrayElement)) := do
  match ← peek? with
  | none => failAtEnd (some (.punctuator .closeBracket))
  | some t =>
    if t.kind = .punctuator .closeBracket then
      advance
      return .done before.reverse
    else if t.kind = .punctuator .comma then
      advance
      return .again (.hole (.empty t.span.start) :: before)
    else
      let element := ArrayElement.item (← readArgument inner)
      match ← accept? (.punctuator .comma) with
      | some _ => return .again (element :: before)
      | none =>
        let _ ← expect (.punctuator .closeBracket)
        return .done (element :: before).reverse

/-- An array. A comma where an element could stand leaves that element out; a comma after the last
element does not. -/
def readArray : Reader Expr := do
  let start := (← get).nextSpan.start
  advance
  let elements ← loop (arrayStep inner) []
  return .array elements (← spanFrom start)

/-- The key `t` of a property, which is read up to the colon. Only an identifier can stand without
one. -/
def readPropertyKey (t : Lexeme) : Reader PropertyKey := do
  match t.kind.keyStart with
  | .name =>
    advance
    return .name ⟨t.text, t.span⟩
  | .string =>
    advance
    return .string t.text t.span
  | .number =>
    advance
    return .number (← readNumeral t) t.span
  | .computed =>
    advance
    let e ← inner.assignment
    let _ ← expect (.punctuator .closeBracket)
    return .computed e
  | .other => throw (.unexpectedToken .identifier t.kind t.span)

/-- Whether a name at the cursor stands for itself: it is no keyword, and the member ends after
it. -/
def isShorthand : List Lexeme → Bool
  | t :: next :: _ =>
    t.kind == .identifier &&
      (next.kind == .punctuator .comma || next.kind == .punctuator .closeBrace)
  | _ => false

/-- What follows the key of a property that starts at `start`. Methods are not supported. -/
def readPropertyValue (key : PropertyKey) (start : Nat) : Reader ObjectMember := do
  if ← nextIs (.punctuator .openParen) then
    throw (.unsupported (.keyword .functionKw) (← get).nextSpan)
  let _ ← expect (.punctuator .colon)
  let value ← inner.assignment
  return .property key value (← spanFrom start)

def readMember : Reader ObjectMember := do
  match ← accept? (.punctuator .ellipsis) with
  | some dots =>
    let e ← inner.assignment
    return .spread e (← spanFrom dots.span.start)
  | none =>
    match ← peek? with
    | none => failAtEnd (some (.punctuator .closeBrace))
    | some t =>
      if isShorthand (← get).rest then
        advance
        return .shorthand ⟨t.text, t.span⟩
      else
        let key ← readPropertyKey inner t
        readPropertyValue inner key t.span.start

def objectStep (before : List ObjectMember) :
    Reader (Progress (List ObjectMember) (List ObjectMember)) := do
  if ← nextIs (.punctuator .closeBrace) then
    return .done before.reverse
  else
    let member ← readMember inner
    match ← accept? (.punctuator .comma) with
    | some _ => return .again (member :: before)
    | none => return .done (member :: before).reverse

/-- An object; a comma may follow the last member. -/
def readObject : Reader Expr := do
  let start := (← get).nextSpan.start
  advance
  let members ← loop (objectStep inner) []
  let _ ← expect (.punctuator .closeBrace)
  return .object members (← spanFrom start)

/-- An expression in parentheses. -/
def readParenthesized : Reader Expr := do
  let start := (← get).nextSpan.start
  advance
  let inside ← read inner
  let _ ← expect (.punctuator .closeParen)
  return .parenthesized inside (← spanFrom start)

/-- `import.meta`, the only form of `import` that is an expression. -/
def readImportMeta (t : Lexeme) : Reader Expr := do
  if (← peekKind? 1) = some (.punctuator .dot) then
    advance
    advance
    readMetaName "meta"
    return .leaf .importMeta (← spanFrom t.span.start)
  else
    throw (.unsupported t.kind t.span)

/-- An expression that no operator, access or call is part of, unless in brackets. -/
def readPrimary : Reader Expr := do
  match ← peek? with
  | none => failAtEnd none
  | some t =>
    match t.primaryStart with
    | .number =>
      advance
      readNumber t
    | .leaf l =>
      advance
      return .leaf l t.span
    | .importWord => readImportMeta t
    | .parenthesized => readParenthesized inner
    | .array => readArray inner
    | .object => readObject inner
    | .unsupported => throw (.unsupported t.kind t.span)
    | .other => throw (.expressionExpected t.kind t.span)

/-- The rest of `e.name`, after the dot. -/
def finishProperty (e : Expr) (optional : Bool) : Reader Expr := do
  let name ← readPropertyName
  return .property e name optional (← spanFrom e.span.start)

/-- The rest of `e[index]`. -/
def finishElement (e : Expr) (optional : Bool) : Reader Expr := do
  let _ ← expect (.punctuator .openBracket)
  let index ← read inner
  let _ ← expect (.punctuator .closeBracket)
  return .element e index optional (← spanFrom e.span.start)

/-- The rest of `e(arguments)`. -/
def finishCall (e : Expr) (optional : Bool) : Reader Expr := do
  let arguments ← readArguments inner
  return .call e arguments optional (← spanFrom e.span.start)

/-- The form that the next token starts, seen as a link of a chain. -/
def nextLink : Reader LinkStart := fun c =>
  .ok ((c.rest.head?.map (·.kind.linkStart)).getD .other) c

/-- What follows the token `?.`. -/
def finishOptional (e : Expr) : Reader Expr := do
  match ← nextLink with
  | .paren => finishCall inner e true
  | .bracket => finishElement inner e true
  | _ => finishProperty e true

def linkStep (e : Expr) : Reader (Progress Expr Expr) := do
  match ← nextLink with
  | .dot =>
    advance
    return .again (← finishProperty e false)
  | .bracket => return .again (← finishElement inner e false)
  | .paren => return .again (← finishCall inner e false)
  | .optionalDot =>
    advance
    return .again (← finishOptional inner e)
  | .other => return .done e

/-- The callee of a `new` form takes accesses only: the first parentheses are its arguments. -/
def calleeStep (e : Expr) : Reader (Progress Expr Expr) := do
  match ← nextLink with
  | .dot =>
    advance
    return .again (← finishProperty e false)
  | .bracket => return .again (← finishElement inner e false)
  | _ => return .done e

/-- What a chain of accesses and calls, or a callee, starts with. -/
def readHead : Reader Expr := do
  if ← nextIs (.keyword .newKw) then inner.construct else readPrimary inner

/-- `new callee`, `new callee(arguments)` or `new.target`. -/
def readConstruct : Reader Expr := do
  let start := (← get).nextSpan.start
  advance
  match ← accept? (.punctuator .dot) with
  | some _ =>
    readMetaName "target"
    return .leaf .newTarget (← spanFrom start)
  | none =>
    let callee ← loop (calleeStep inner) (← readHead inner)
    if ← nextIs (.punctuator .openParen) then
      let arguments ← readArguments inner
      return .construct callee arguments (← spanFrom start)
    else
      return .constructBare callee (← spanFrom start)

/-- Accesses and calls, one after the other. -/
def readLinks : Reader Expr := do
  let head ← readHead inner
  loop (linkStep inner) head

/-- A chain of links with at most one update behind it. -/
def readUpdated : Reader Expr := do
  let e ← readLinks inner
  match (← peekKind? 0).bind UpdateOperator.ofKind? with
  | none => return e
  | some op =>
    if e.isAssignable then
      advance
      return .update op false e (← spanFrom e.span.start)
    else
      throw (.invalidTarget e.span)

/-- An operand with the operators in front of it. -/
def readOperand : Reader Expr := do
  match ← peek? with
  | none => failAtEnd none
  | some t =>
    match t.kind.operandStart with
    | .update op =>
      advance
      let e ← inner.operand
      if e.isAssignable then
        return .update op true e (← spanFrom t.span.start)
      else
        throw (.invalidTarget e.span)
    | .unary op =>
      advance
      let e ← inner.operand
      return .unary op e (← spanFrom t.span.start)
    | .await =>
      advance
      let e ← inner.operand
      return .await e (← spanFrom t.span.start)
    | .plain => readUpdated inner

/-- Whether `e` is an operand that `op` may not have: one of `??` and `&&` or `||` directly inside
the other. -/
def mixesWith (op : InfixOperator) (e : Expr) : Bool :=
  match op, e with
  | .logical op, .operation (.logical below) _ _ _ => (op == .coalesce) != (below == .coalesce)
  | _, _ => false

/-- The operation on two operands. -/
def combine (op : InfixOperator) (left right : Expr) : Reader Expr :=
  let span := left.span.cover right.span
  if mixesWith op left || mixesWith op right then
    throw (.mixedCoalescing span)
  else
    return .operation op left right span

/-- The next token as an operator that binds tighter than `floor`. -/
def tighterOperator? (floor : Precedence) : Reader (Option InfixOperator) := do
  match ← peekKind? 0 with
  | none => return none
  | some kind =>
    match kind.precedence? with
    | none => return none
    | some level => return if level.rank ≤ floor.rank then none else InfixOperator.ofKind? kind

/-- The answer, told by the operator that the next token stands for. -/
theorem tighterOperator?_eq (floor : Precedence) (c : Cursor) :
    tighterOperator? floor c =
      .ok ((c.rest.head?.bind fun t => InfixOperator.ofKind? t.kind).filter fun op =>
        decide (floor.rank < op.precedence.rank)) c := by
  simp only [tighterOperator?, peekKind?, bind, EStateM.bind, ← List.head?_eq_getElem?]
  cases c.rest.head? with
  | none => rfl
  | some t =>
    simp only [Option.map_some, Option.bind_some, TokenKind.precedence?_eq]
    cases InfixOperator.ofKind? t.kind with
    | none => rfl
    | some op =>
      by_cases tight : floor.rank < op.precedence.rank
      · rw [Option.filter_some_pos (by simpa using tight), Option.map_some]
        exact congrArg (EStateM.Result.ok · c) (if_neg (Nat.not_le_of_lt tight))
      · rw [Option.filter_some_neg (by simpa using tight), Option.map_some]
        exact congrArg (EStateM.Result.ok · c) (if_pos (Nat.le_of_not_lt tight))

/-- Gives `left` the next operator that binds tighter than `floor`, with its right operand. Operands
of left-grouping operators are read by `operandFrom`. -/
def chainStep (operandFrom : Precedence → Reader Expr) (floor : Precedence) (left : Expr) :
    Reader (Progress Expr Expr) := do
  match ← tighterOperator? floor with
  | none => return .done left
  | some op =>
    advance
    let right ←
      if op.precedence.groupsRight then inner.rightOperand else operandFrom op.precedence
    return .again (← combine op left right)

/-- Operands with the operators between them that bind tighter than `floor`, when at most `height`
levels do. -/
def readChainWithin : Nat → Precedence → Reader Expr
  | 0, _ => readOperand inner
  | height + 1, floor => do
    let left ← readOperand inner
    loop (chainStep inner (readChainWithin height) floor) left

/-- Operands with the operators between them that bind tighter than `floor`. -/
def readChain (floor : Precedence) : Reader Expr :=
  readChainWithin inner (Precedence.power.rank - floor.rank) floor

def readConditional : Reader Expr := do
  let condition ← readChain inner .conditional
  match ← accept? (.punctuator .question) with
  | none => return condition
  | some _ =>
    let whenTrue ← inner.assignment
    let _ ← expect (.punctuator .colon)
    let whenFalse ← inner.assignment
    return .conditional condition whenTrue whenFalse (← spanFrom condition.span.start)

def readYield : Reader Expr := do
  let start := (← get).nextSpan.start
  advance
  let delegates := (← accept? (.punctuator .star)).isSome
  match ← peekKind? 0 with
  | none => if delegates then failAtEnd none else return .yield (← spanFrom start)
  | some kind =>
    if delegates || kind.startsYieldOperand then
      let e ← inner.assignment
      return .yieldValue delegates e (← spanFrom start)
    else
      return .yield (← spanFrom start)

/-- Whether the tokens start an arrow function without parameters. -/
def startsArrow : List Lexeme → Bool
  | a :: b :: c :: _ =>
    a.kind == .punctuator .openParen && b.kind == .punctuator .closeParen &&
      c.kind == .punctuator .arrow
  | _ => false

/-- What follows the target of an assignment, or else nothing does. Arrow functions are not
supported. -/
def finishAssignment (target : Expr) : Reader Expr := do
  match ← peek? with
  | none => return target
  | some t =>
    if t.kind = .punctuator .arrow then
      throw (.unsupported t.kind t.span)
    else
      match AssignmentOperator.ofKind? t.kind with
      | none => return target
      | some op =>
        if target.isAssignable then
          advance
          let value ← inner.assignment
          return .assignment op target value (← spanFrom target.span.start)
        else
          throw (.invalidTarget target.span)

/-- An assignment, which groups to the right, a `yield` form or any expression without a comma. -/
def readAssignment : Reader Expr := do
  if ← nextIs (.keyword .yieldKw) then
    readYield inner
  else if startsArrow (← get).rest then
    let span := (← get).nextSpan
    advance
    throw (.unsupported (.punctuator .arrow) span)
  else
    let target ← readConditional inner
    finishAssignment inner target

end Expr

end EcmaFront
