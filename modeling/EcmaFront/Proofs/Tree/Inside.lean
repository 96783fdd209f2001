import EcmaFront.Proofs.Tree.Written

/-!
# The expressions of a tree

`Program.expressions` lists every expression of a program, at whatever depth it stands.
`Piece.expressions` does so for a piece of syntax; the trees that a piece is made from are among its
expressions (`Written.object_inside` says it of what stands in front of a link).
-/

namespace EcmaFront

mutual

/-- All expressions inside an expression, at every depth. -/
def Expr.inside : Expr → List Expr
  | .leaf _ _ | .yield _ => []
  | .parenthesized e _ | .constructBare e _ | .update _ _ e _ | .unary _ e _ | .await e _
  | .yieldValue _ e _ | .property e _ _ _ => e :: e.inside
  | .array elements _ => insideElements elements
  | .object members _ => insideMembers members
  | .element object index _ _ => object :: object.inside ++ index :: index.inside
  | .call callee arguments _ _ | .construct callee arguments _ =>
    callee :: callee.inside ++ insideArguments arguments
  | .operation _ left right _ | .assignment _ left right _ =>
    left :: left.inside ++ right :: right.inside
  | .conditional condition whenTrue whenFalse _ =>
    condition :: condition.inside ++ whenTrue :: whenTrue.inside ++ whenFalse :: whenFalse.inside
  | .sequence expressions _ => insideExpressions expressions

def Argument.inside : Argument → List Expr
  | .plain e | .spread e _ => e :: e.inside

def ArrayElement.inside : ArrayElement → List Expr
  | .hole _ => []
  | .item a => a.inside

def PropertyKey.inside : PropertyKey → List Expr
  | .name _ | .string _ _ | .number _ _ => []
  | .computed e => e :: e.inside

def ObjectMember.inside : ObjectMember → List Expr
  | .property key value _ => key.inside ++ value :: value.inside
  | .shorthand _ => []
  | .spread e _ => e :: e.inside

def insideExpressions : List Expr → List Expr
  | [] => []
  | e :: es => e :: e.inside ++ insideExpressions es

def insideArguments : List Argument → List Expr
  | [] => []
  | a :: as => a.inside ++ insideArguments as

def insideElements : List ArrayElement → List Expr
  | [] => []
  | e :: es => e.inside ++ insideElements es

def insideMembers : List ObjectMember → List Expr
  | [] => []
  | m :: ms => m.inside ++ insideMembers ms

end

mutual

def Statement.inside : Statement → List Expr
  | .declaration _ _ e _ | .expression e _ => e :: e.inside
  | .block statements _ => insideStatements statements
  | .empty _ | .debugger _ => []

def insideStatements : List Statement → List Expr
  | [] => []
  | s :: ss => s.inside ++ insideStatements ss

end

/-- All expressions of a program, at every depth. -/
def Program.expressions (p : Program) : List Expr := insideStatements p.statements

/-- All expressions of a piece of syntax, at every depth. -/
def Piece.expressions : Piece → List Expr
  | .assignment e | .expression e | .primary e | .head e | .callee e | .links e | .element _ _ e
  | .call _ _ e | .access _ e | .link _ e | .updated e | .operand e | .chain _ e
  | .conditional e => e :: e.inside
  | .tail es => insideExpressions es
  | .argument a => a.inside
  | .arguments list => insideArguments list
  | .elements es => insideElements es
  | .key k => k.inside
  | .member m => m.inside
  | .members ms => insideMembers ms
  | .statement s => s.inside
  | .statements list => insideStatements list

attribute [grind =] Expr.inside Argument.inside ArrayElement.inside PropertyKey.inside
  ObjectMember.inside insideExpressions insideArguments insideElements insideMembers
  Statement.inside insideStatements Piece.expressions

/-- What stands in front of a link is inside the expression that the link makes. -/
def Piece.ObjectInside : Piece → Prop
  | .element object _ e | .call object _ e | .access object e | .link object e =>
    object :: object.inside ⊆ e.inside
  | _ => True

theorem Written.object_inside {n : Nat} {p : Piece} {ts rest : List Lexeme}
    (h : Written n p ts rest) : p.ObjectInside := by
  induction h with
  | element | call | accessName | optionalName =>
    simp [Piece.ObjectInside, Expr.inside]
  | accessElement _ ih | linkAccess _ ih | linkCall _ ih | optionalElement _ _ ih
  | optionalCall _ _ ih => exact ih
  | _ => trivial

end EcmaFront
