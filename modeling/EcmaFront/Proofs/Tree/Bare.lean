import EcmaFront.Tree.Expression

/-!
# Trees without spans

`bare` forgets where a tree stands: two trees agree up to spans if they are the same when bare.
`nesting` counts the levels that are entered while a tree is read.

* `Expr.bare`, `Statement.bare`, `Program.bare`.
* `Expr.nesting`, `Statement.nesting`, `Program.nesting`.
* `Expr.isBareNew`, `Expr.startsWithBrace`: how expressions end and start.
-/

namespace EcmaFront

/-- The span of every node of a bare tree. -/
def Span.unset : Span := .empty 0

def Identifier.bare (i : Identifier) : Identifier := ⟨i.name, .unset⟩

mutual

def Expr.bare : Expr → Expr
  | .leaf l _ => .leaf l .unset
  | .parenthesized inside _ => .parenthesized inside.bare .unset
  | .array elements _ => .array (bareElements elements) .unset
  | .object members _ => .object (bareMembers members) .unset
  | .property object name optional _ => .property object.bare name.bare optional .unset
  | .element object index optional _ => .element object.bare index.bare optional .unset
  | .call callee arguments optional _ => .call callee.bare (bareArguments arguments) optional .unset
  | .construct callee arguments _ => .construct callee.bare (bareArguments arguments) .unset
  | .constructBare callee _ => .constructBare callee.bare .unset
  | .update op leads operand _ => .update op leads operand.bare .unset
  | .unary op operand _ => .unary op operand.bare .unset
  | .await operand _ => .await operand.bare .unset
  | .operation op left right _ => .operation op left.bare right.bare .unset
  | .conditional condition whenTrue whenFalse _ =>
    .conditional condition.bare whenTrue.bare whenFalse.bare .unset
  | .assignment op target value _ => .assignment op target.bare value.bare .unset
  | .sequence expressions _ => .sequence (bareExpressions expressions) .unset
  | .yield _ => .yield .unset
  | .yieldValue delegates operand _ => .yieldValue delegates operand.bare .unset

def Argument.bare : Argument → Argument
  | .plain e => .plain e.bare
  | .spread e _ => .spread e.bare .unset

def ArrayElement.bare : ArrayElement → ArrayElement
  | .hole _ => .hole .unset
  | .item a => .item a.bare

def PropertyKey.bare : PropertyKey → PropertyKey
  | .name identifier => .name identifier.bare
  | .string raw _ => .string raw .unset
  | .number value _ => .number value .unset
  | .computed e => .computed e.bare

def ObjectMember.bare : ObjectMember → ObjectMember
  | .property key value _ => .property key.bare value.bare .unset
  | .shorthand identifier => .shorthand identifier.bare
  | .spread e _ => .spread e.bare .unset

def bareExpressions : List Expr → List Expr
  | [] => []
  | e :: es => e.bare :: bareExpressions es

def bareArguments : List Argument → List Argument
  | [] => []
  | a :: as => a.bare :: bareArguments as

def bareElements : List ArrayElement → List ArrayElement
  | [] => []
  | e :: es => e.bare :: bareElements es

def bareMembers : List ObjectMember → List ObjectMember
  | [] => []
  | m :: ms => m.bare :: bareMembers ms

end

mutual

def Statement.bare : Statement → Statement
  | .declaration kind name value _ => .declaration kind name.bare value.bare .unset
  | .block statements _ => .block (bareStatements statements) .unset
  | .empty _ => .empty .unset
  | .expression e _ => .expression e.bare .unset
  | .debugger _ => .debugger .unset

def bareStatements : List Statement → List Statement
  | [] => []
  | s :: ss => s.bare :: bareStatements ss

end

def Program.bare (p : Program) : Program := ⟨bareStatements p.statements, .unset⟩

/-! ## Levels of nesting -/

mutual

/-- How many levels of nesting are entered while the expression is read as an operand. -/
def Expr.nesting : Expr → Nat
  | .leaf .newTarget _ => 1
  | .leaf _ _ => 0
  | .parenthesized inside _ => inside.nesting + 1
  | .array elements _ => nestingElements elements
  | .object members _ => nestingMembers members
  | .property object _ _ _ => object.nesting
  | .element object index _ _ => max object.nesting (index.nesting + 1)
  | .call callee arguments _ _ => max callee.nesting (nestingArguments arguments)
  | .construct callee arguments _ => max callee.nesting (nestingArguments arguments) + 1
  | .constructBare callee _ => callee.nesting + 1
  | .update _ true operand _ => operand.nesting + 1
  | .update _ false operand _ => operand.nesting
  | .unary _ operand _ => operand.nesting + 1
  | .await operand _ => operand.nesting + 1
  | .operation op left right _ =>
    max left.nesting (if op.precedence.groupsRight then right.nesting + 1 else right.nesting)
  | .conditional condition whenTrue whenFalse _ =>
    max condition.nesting (max whenTrue.nesting whenFalse.nesting + 1)
  | .assignment _ target value _ => max target.nesting (value.nesting + 1)
  | .sequence expressions _ => nestingExpressions expressions
  | .yield _ => 0
  | .yieldValue _ operand _ => operand.nesting + 1

def Argument.nesting : Argument → Nat
  | .plain e => e.nesting + 1
  | .spread e _ => e.nesting + 1

def ArrayElement.nesting : ArrayElement → Nat
  | .hole _ => 0
  | .item a => a.nesting

def PropertyKey.nesting : PropertyKey → Nat
  | .name _ => 0
  | .string _ _ => 0
  | .number _ _ => 0
  | .computed e => e.nesting + 1

def ObjectMember.nesting : ObjectMember → Nat
  | .property key value _ => max key.nesting (value.nesting + 1)
  | .shorthand _ => 0
  | .spread e _ => e.nesting + 1

def nestingExpressions : List Expr → Nat
  | [] => 0
  | e :: es => max e.nesting (nestingExpressions es)

def nestingArguments : List Argument → Nat
  | [] => 0
  | a :: as => max a.nesting (nestingArguments as)

def nestingElements : List ArrayElement → Nat
  | [] => 0
  | e :: es => max e.nesting (nestingElements es)

def nestingMembers : List ObjectMember → Nat
  | [] => 0
  | m :: ms => max m.nesting (nestingMembers ms)

end

mutual

def Statement.nesting : Statement → Nat
  | .declaration _ _ value _ => value.nesting + 1
  | .block statements _ => nestingStatements statements + 1
  | .empty _ => 0
  | .expression e _ => e.nesting + 1
  | .debugger _ => 0

def nestingStatements : List Statement → Nat
  | [] => 0
  | s :: ss => max s.nesting (nestingStatements ss)

end

def Program.nesting (p : Program) : Nat := nestingStatements p.statements

mutual

theorem Expr.nesting_bare : (e : Expr) → e.bare.nesting = e.nesting
  | .leaf l _ => by cases l <;> rfl
  | .parenthesized inside _ => by simp [Expr.bare, Expr.nesting, inside.nesting_bare]
  | .array elements _ => by simp [Expr.bare, Expr.nesting, nesting_bareElements elements]
  | .object members _ => by simp [Expr.bare, Expr.nesting, nesting_bareMembers members]
  | .property object _ _ _ => by simp [Expr.bare, Expr.nesting, object.nesting_bare]
  | .element object index _ _ => by
    simp [Expr.bare, Expr.nesting, object.nesting_bare, index.nesting_bare]
  | .call callee arguments _ _ | .construct callee arguments _ => by
    simp [Expr.bare, Expr.nesting, callee.nesting_bare, nesting_bareArguments arguments]
  | .constructBare callee _ => by simp [Expr.bare, Expr.nesting, callee.nesting_bare]
  | .update _ true operand _ | .update _ false operand _ | .unary _ operand _ | .await operand _
  | .yieldValue _ operand _ => by
    simp [Expr.bare, Expr.nesting, operand.nesting_bare]
  | .operation _ left right _ => by
    simp [Expr.bare, Expr.nesting, left.nesting_bare, right.nesting_bare]
  | .conditional condition whenTrue whenFalse _ => by
    simp [Expr.bare, Expr.nesting, condition.nesting_bare, whenTrue.nesting_bare,
      whenFalse.nesting_bare]
  | .assignment _ target value _ => by
    simp [Expr.bare, Expr.nesting, target.nesting_bare, value.nesting_bare]
  | .sequence expressions _ => by
    simp [Expr.bare, Expr.nesting, nesting_bareExpressions expressions]
  | .yield _ => rfl

theorem Argument.nesting_bare : (a : Argument) → a.bare.nesting = a.nesting
  | .plain e | .spread e _ => by simp [Argument.bare, Argument.nesting, e.nesting_bare]

theorem PropertyKey.nesting_bare : (k : PropertyKey) → k.bare.nesting = k.nesting
  | .name _ | .string _ _ | .number _ _ => rfl
  | .computed e => by simp [PropertyKey.bare, PropertyKey.nesting, e.nesting_bare]

theorem ObjectMember.nesting_bare : (m : ObjectMember) → m.bare.nesting = m.nesting
  | .property key value _ => by
    simp [ObjectMember.bare, ObjectMember.nesting, key.nesting_bare, value.nesting_bare]
  | .shorthand _ => rfl
  | .spread e _ => by simp [ObjectMember.bare, ObjectMember.nesting, e.nesting_bare]

theorem nesting_bareExpressions : (es : List Expr) →
    nestingExpressions (bareExpressions es) = nestingExpressions es
  | [] => rfl
  | e :: es => by
    simp [bareExpressions, nestingExpressions, e.nesting_bare, nesting_bareExpressions es]

theorem nesting_bareArguments : (list : List Argument) →
    nestingArguments (bareArguments list) = nestingArguments list
  | [] => rfl
  | a :: list => by
    simp [bareArguments, nestingArguments, a.nesting_bare, nesting_bareArguments list]

theorem nesting_bareElements : (es : List ArrayElement) →
    nestingElements (bareElements es) = nestingElements es
  | [] => rfl
  | .hole _ :: es => by
    simp [bareElements, nestingElements, ArrayElement.bare, ArrayElement.nesting,
      nesting_bareElements es]
  | .item a :: es => by
    simp [bareElements, nestingElements, ArrayElement.bare, ArrayElement.nesting, a.nesting_bare,
      nesting_bareElements es]

theorem nesting_bareMembers : (ms : List ObjectMember) →
    nestingMembers (bareMembers ms) = nestingMembers ms
  | [] => rfl
  | m :: ms => by simp [bareMembers, nestingMembers, m.nesting_bare, nesting_bareMembers ms]

end

mutual

theorem Statement.nesting_bare : (s : Statement) → s.bare.nesting = s.nesting
  | .declaration _ _ value _ => by simp [Statement.bare, Statement.nesting, value.nesting_bare]
  | .block list _ => by simp [Statement.bare, Statement.nesting, nesting_bareStatements list]
  | .empty _ | .debugger _ => rfl
  | .expression e _ => by simp [Statement.bare, Statement.nesting, e.nesting_bare]

theorem nesting_bareStatements : (list : List Statement) →
    nestingStatements (bareStatements list) = nestingStatements list
  | [] => rfl
  | s :: list => by
    simp [bareStatements, nestingStatements, s.nesting_bare, nesting_bareStatements list]

end

/-! ## How expressions end and start -/

namespace Expr

/-- Whether the expression is a `new` form without arguments. -/
def isBareNew : Expr → Bool
  | .constructBare _ _ => true
  | _ => false

/-- Whether the first token is the brace of an object. -/
def startsWithBrace : Expr → Bool
  | .object _ _ => true
  | .property e _ _ _ | .element e _ _ _ | .call e _ _ _ | .update _ false e _
  | .operation _ e _ _ | .conditional e _ _ _ | .assignment _ e _ _ | .sequence (e :: _) _ =>
    e.startsWithBrace
  | _ => false

end Expr

end EcmaFront
