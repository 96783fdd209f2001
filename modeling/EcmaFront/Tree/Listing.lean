import EcmaFront.Text.Escape
import EcmaFront.Text.Layout
import EcmaFront.Tree.Basic

/-!
# Listings of trees

Every node is listed as a record of its parts, with its span as the last one.
-/

namespace EcmaFront

open Listing (atom natural flag field list wrapped record wrappedRecord option)

def Span.listing (s : Span) : Listing := atom s.toListing

def spanField (s : Span) : Listing := field "span" s.listing

def textListing (t : Text) : Listing := atom (Text.quote t)

def Identifier.listing (i : Identifier) : Listing :=
  record "Identifier" [field "name" (textListing i.name), spanField i.span]

def numberListing (value : Nat) (span : Span) : Listing :=
  wrappedRecord "NumericLiteral" "NumericLiteral"
    [field "value" (natural value), spanField span]

def stringListing (raw : Text) (span : Span) : Listing :=
  wrappedRecord "StringLiteral" "StringLiteral" [field "raw" (textListing raw), spanField span]

def Leaf.listing (span : Span) : Leaf → Listing
  | .number value => numberListing value span
  | .string raw => stringListing raw span
  | .boolean value =>
    wrappedRecord "BooleanLiteral" "BooleanLiteral" [field "value" (flag value), spanField span]
  | .null => wrapped "NullLiteral" span.listing
  | .identifier name => wrapped "Identifier" (Identifier.listing ⟨name, span⟩)
  | .this => wrapped "This" span.listing
  | .super => wrapped "Super" span.listing
  | .newTarget => wrapped "NewTarget" span.listing
  | .importMeta => wrapped "ImportMeta" span.listing

/-- Logical operations are listed apart from the others. -/
def InfixOperator.caseName : InfixOperator → String
  | .binary _ => "Binary"
  | .logical _ => "Logical"

mutual

def Expr.listing : Expr → Listing
  | .leaf l span => l.listing span
  | .parenthesized inside span =>
    wrappedRecord "Parenthesized" "ParenthesizedExpression"
      [field "expression" inside.listing, spanField span]
  | .array elements span =>
    wrappedRecord "ArrayLiteral" "ArrayLiteralExpression"
      [field "elements" (list (listElements elements)), spanField span]
  | .object members span =>
    wrappedRecord "ObjectLiteral" "ObjectLiteralExpression"
      [field "members" (list (listMembers members)), spanField span]
  | .property object name optional span =>
    wrappedRecord "PropertyAccess" "PropertyAccessExpression"
      [field "object" object.listing, field "property" name.listing,
        field "optional" (flag optional), spanField span]
  | .element object index optional span =>
    wrappedRecord "ElementAccess" "ElementAccessExpression"
      [field "object" object.listing, field "index" index.listing,
        field "optional" (flag optional), spanField span]
  | .call callee arguments optional span =>
    wrappedRecord "Call" "CallExpression"
      [field "callee" callee.listing, field "arguments" (list (listArguments arguments)),
        field "optional" (flag optional), spanField span]
  | .construct callee arguments span =>
    wrappedRecord "New" "NewExpression"
      [field "callee" callee.listing,
        field "arguments" (option (some (list (listArguments arguments)))), spanField span]
  | .constructBare callee span =>
    wrappedRecord "New" "NewExpression"
      [field "callee" callee.listing, field "arguments" (option none), spanField span]
  | .update op leads operand span =>
    wrappedRecord "Update" "UpdateExpression"
      [field "operator" (atom op.name), field "prefix" (flag leads),
        field "operand" operand.listing, spanField span]
  | .unary op operand span =>
    wrappedRecord "Unary" "UnaryExpression"
      [field "operator" (atom op.name), field "operand" operand.listing, spanField span]
  | .await operand span =>
    wrappedRecord "Await" "AwaitExpression" [field "argument" operand.listing, spanField span]
  | .operation op left right span =>
    wrappedRecord op.caseName (op.caseName ++ "Expression")
      [field "left" left.listing, field "operator" (atom op.name), field "right" right.listing,
        spanField span]
  | .conditional condition whenTrue whenFalse span =>
    wrappedRecord "Conditional" "ConditionalExpression"
      [field "condition" condition.listing, field "when_true" whenTrue.listing,
        field "when_false" whenFalse.listing, spanField span]
  | .assignment op target value span =>
    wrappedRecord "Assignment" "AssignmentExpression"
      [field "operator" (atom op.name), field "target" target.listing,
        field "value" value.listing, spanField span]
  | .sequence expressions span =>
    wrappedRecord "Sequence" "SequenceExpression"
      [field "expressions" (list (listExpressions expressions)), spanField span]
  | .yield span =>
    wrappedRecord "Yield" "YieldExpression"
      [field "argument" (option none), field "delegate" (flag false), spanField span]
  | .yieldValue delegates operand span =>
    wrappedRecord "Yield" "YieldExpression"
      [field "argument" (option (some operand.listing)), field "delegate" (flag delegates),
        spanField span]

/-- An argument is listed as the expression it is, unless it is a spread. -/
def Argument.listing : Argument → Listing
  | .plain e => e.listing
  | .spread e span =>
    wrappedRecord "Spread" "SpreadElement" [field "argument" e.listing, spanField span]

/-- An element is listed with its case. -/
def ArrayElement.listing : ArrayElement → Listing
  | .hole span => wrapped "Hole" span.listing
  | .item (.plain e) => wrapped "Expression" e.listing
  | .item (.spread e span) =>
    wrappedRecord "Spread" "SpreadElement" [field "argument" e.listing, spanField span]

def PropertyKey.listing : PropertyKey → Listing
  | .name identifier => wrapped "Identifier" identifier.listing
  | .string raw span => stringListing raw span
  | .number value span => numberListing value span
  | .computed e => wrapped "Computed" e.listing

def ObjectMember.listing : ObjectMember → Listing
  | .property key value span =>
    record "Property" [field "key" key.listing, field "value" value.listing, spanField span]
  | .shorthand identifier => wrapped "Shorthand" identifier.listing
  | .spread e span =>
    wrappedRecord "Spread" "SpreadElement" [field "argument" e.listing, spanField span]

def listExpressions : List Expr → List Listing
  | [] => []
  | e :: es => e.listing :: listExpressions es

def listArguments : List Argument → List Listing
  | [] => []
  | a :: as => a.listing :: listArguments as

def listElements : List ArrayElement → List Listing
  | [] => []
  | e :: es => e.listing :: listElements es

def listMembers : List ObjectMember → List Listing
  | [] => []
  | m :: ms => m.listing :: listMembers ms

end

mutual

def Statement.listing : Statement → Listing
  | .declaration kind name value span =>
    wrappedRecord "VariableDeclaration" "VariableDeclaration"
      [field "kind" (atom kind.name), field "name" name.listing,
        field "initializer" (option (some value.listing)), spanField span]
  | .block statements span =>
    wrappedRecord "Block" "BlockStatement"
      [field "statements" (list (listStatements statements)), spanField span]
  | .empty span => wrapped "Empty" span.listing
  | .expression e span =>
    wrappedRecord "Expression" "ExpressionStatement"
      [field "expression" e.listing, spanField span]
  | .debugger span => wrapped "Debugger" span.listing

def listStatements : List Statement → List Listing
  | [] => []
  | s :: ss => s.listing :: listStatements ss

end

def Program.listing (p : Program) : Listing :=
  record "Program" [field "statements" (list (listStatements p.statements)), spanField p.span]

end EcmaFront
