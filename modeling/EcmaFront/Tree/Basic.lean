import EcmaFront.Text.Span
import EcmaFront.Token.Operator

/-!
# Syntax trees

The trees of programs. Every node keeps the span of source that it was read from: from the start of
its first token to the end of its last one.

* `Leaf`: an expression without parts.
* `Expr`, with `Argument`, `ArrayElement`, `PropertyKey` and `ObjectMember`: expressions.
* `Statement`, `Program`.

What cannot be written has no tree: a spread is an argument, an array element or an object member,
but no expression; a delegating `yield` has an operand.
-/

namespace EcmaFront

/-- A name at its place. -/
structure Identifier where
  name : Text
  span : Span
  deriving DecidableEq, Repr, Inhabited

/-- An expression without parts. -/
inductive Leaf where
  | number (value : Nat)
  /-- A string as it is written, with its quotes and escapes. -/
  | string (raw : Text)
  | boolean (value : Bool)
  | null
  | identifier (name : Text)
  | this
  | super
  /-- `new.target` -/
  | newTarget
  /-- `import.meta` -/
  | importMeta
  deriving DecidableEq, Repr, Inhabited

mutual

inductive Expr where
  | leaf (leaf : Leaf) (span : Span)
  | parenthesized (inside : Expr) (span : Span)
  | array (elements : List ArrayElement) (span : Span)
  | object (members : List ObjectMember) (span : Span)
  /-- `object.name`, or `object?.name` if optional. -/
  | property (object : Expr) (name : Identifier) (optional : Bool) (span : Span)
  /-- `object[index]`, or `object?.[index]` if optional. -/
  | element (object index : Expr) (optional : Bool) (span : Span)
  /-- `callee(arguments)`, or `callee?.(arguments)` if optional. -/
  | call (callee : Expr) (arguments : List Argument) (optional : Bool) (span : Span)
  /-- `new callee(arguments)` -/
  | construct (callee : Expr) (arguments : List Argument) (span : Span)
  /-- `new callee`, without a list of arguments. -/
  | constructBare (callee : Expr) (span : Span)
  /-- The operator leads its operand, or else follows it. -/
  | update (op : UpdateOperator) (leads : Bool) (operand : Expr) (span : Span)
  | unary (op : UnaryOperator) (operand : Expr) (span : Span)
  | await (operand : Expr) (span : Span)
  | operation (op : InfixOperator) (left right : Expr) (span : Span)
  | conditional (condition whenTrue whenFalse : Expr) (span : Span)
  | assignment (op : AssignmentOperator) (target value : Expr) (span : Span)
  /-- Two or more expressions with commas between them. -/
  | sequence (expressions : List Expr) (span : Span)
  /-- `yield` without an operand. -/
  | yield (span : Span)
  /-- `yield operand`, or `yield* operand` if delegating. -/
  | yieldValue (delegates : Bool) (operand : Expr) (span : Span)

inductive Argument where
  | plain (e : Expr)
  /-- `...e` -/
  | spread (e : Expr) (span : Span)

inductive ArrayElement where
  /-- An element left out; the span is empty and stands at the comma after it. -/
  | hole (span : Span)
  | item (argument : Argument)

inductive PropertyKey where
  | name (identifier : Identifier)
  | string (raw : Text) (span : Span)
  | number (value : Nat) (span : Span)
  /-- `[e]` -/
  | computed (e : Expr)

inductive ObjectMember where
  /-- `key: value` -/
  | property (key : PropertyKey) (value : Expr) (span : Span)
  /-- A name that stands for a property of that name. -/
  | shorthand (identifier : Identifier)
  /-- `...e` -/
  | spread (e : Expr) (span : Span)

end

inductive Statement where
  /-- `let name = value;` and the like. -/
  | declaration (kind : DeclarationKind) (name : Identifier) (value : Expr) (span : Span)
  | block (statements : List Statement) (span : Span)
  | empty (span : Span)
  | expression (e : Expr) (span : Span)
  | debugger (span : Span)

structure Program where
  statements : List Statement
  span : Span

instance : Inhabited Expr := ⟨.leaf .null default⟩

instance : Inhabited Argument := ⟨.plain default⟩

instance : Inhabited ArrayElement := ⟨.hole default⟩

instance : Inhabited PropertyKey := ⟨.name default⟩

instance : Inhabited ObjectMember := ⟨.shorthand default⟩

instance : Inhabited Statement := ⟨.empty default⟩

namespace Expr

def span : Expr → Span
  | .leaf _ span | .parenthesized _ span | .array _ span | .object _ span | .property _ _ _ span
  | .element _ _ _ span | .call _ _ _ span | .construct _ _ span | .constructBare _ span
  | .update _ _ _ span | .unary _ _ span | .await _ span | .operation _ _ _ span
  | .conditional _ _ _ span | .assignment _ _ _ span | .sequence _ span | .yield span
  | .yieldValue _ _ span => span

/-- Whether the expression can be assigned to: a name or an access that is not itself optional,
seen through parentheses. -/
def isAssignable : Expr → Bool
  | .leaf (.identifier _) _ => true
  | .property _ _ optional _ => !optional
  | .element _ _ optional _ => !optional
  | .parenthesized inside _ => inside.isAssignable
  | _ => false

end Expr

namespace Statement

def span : Statement → Span
  | .declaration _ _ _ span | .block _ span | .empty span | .expression _ span
  | .debugger span => span

end Statement

end EcmaFront
