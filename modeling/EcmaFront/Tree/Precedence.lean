import EcmaFront.Token.Operator

/-!
# Precedence

How tightly the operators between two operands bind. All levels group to the left but the last one:
`a ** b ** c` is `a ** (b ** c)`. The level from which the right operand of an operator is read says
so: an operator belongs to the operand only if it binds tighter than that level. The level of a token
has a table of its own, which agrees with the levels of the operators (`TokenKind.precedence?_eq`).
-/

namespace EcmaFront

/-- The levels, the loosest first. -/
inductive Precedence where
  | comma | assignment | conditional | coalesce | logicalOr | logicalAnd | bitOr | bitXor | bitAnd
  | equality | relational | shift | additive | multiplicative | power
  deriving DecidableEq, Repr, Inhabited

namespace Precedence

/-- The height of a level. -/
def rank : Precedence → Nat
  | .comma => 0
  | .assignment => 1
  | .conditional => 2
  | .coalesce => 3
  | .logicalOr => 4
  | .logicalAnd => 5
  | .bitOr => 6
  | .bitXor => 7
  | .bitAnd => 8
  | .equality => 9
  | .relational => 10
  | .shift => 11
  | .additive => 12
  | .multiplicative => 13
  | .power => 14

/-- Whether a chain of operators of the level groups to the right. -/
def groupsRight (p : Precedence) : Bool := p == .power

/-- The level from which the right operand of an operator of level `p` is read. -/
def rightFloor (p : Precedence) : Precedence := if p.groupsRight then .multiplicative else p

theorem rank_inj {p q : Precedence} (h : p.rank = q.rank) : p = q := by
  cases p <;> cases q <;> simp_all [rank]

end Precedence

def BinaryOperator.precedence : BinaryOperator → Precedence
  | .bitOr => .bitOr
  | .bitXor => .bitXor
  | .bitAnd => .bitAnd
  | .equality | .inequality | .strictEquality | .strictInequality => .equality
  | .less | .lessOrEqual | .greater | .greaterOrEqual | .instanceOf | .member => .relational
  | .shiftLeft | .shiftRight | .shiftRightUnsigned => .shift
  | .addition | .subtraction => .additive
  | .multiplication | .division | .remainder => .multiplicative
  | .power => .power

def LogicalOperator.precedence : LogicalOperator → Precedence
  | .coalesce => .coalesce
  | .or => .logicalOr
  | .and => .logicalAnd

def InfixOperator.precedence : InfixOperator → Precedence
  | .binary op => op.precedence
  | .logical op => op.precedence

/-- The level of the operator that a token of the kind stands for. -/
def TokenKind.precedence? : TokenKind → Option Precedence
  | .punctuator .questionQuestion => some .coalesce
  | .punctuator .barBar => some .logicalOr
  | .punctuator .ampersandAmpersand => some .logicalAnd
  | .punctuator .bar => some .bitOr
  | .punctuator .caret => some .bitXor
  | .punctuator .ampersand => some .bitAnd
  | .punctuator .equal | .punctuator .notEqual | .punctuator .strictEqual
  | .punctuator .strictNotEqual => some .equality
  | .punctuator .less | .punctuator .greater | .punctuator .lessEqual | .punctuator .greaterEqual
  | .keyword .instanceofKw | .keyword .inKw => some .relational
  | .punctuator .shiftLeft | .punctuator .shiftRight | .punctuator .shiftRightUnsigned => some .shift
  | .punctuator .plus | .punctuator .minus => some .additive
  | .punctuator .star | .punctuator .slash | .punctuator .percent => some .multiplicative
  | .punctuator .starStar => some .power
  | _ => none

/-- A token has a level exactly if it stands for an operator, and then that of the operator. -/
theorem TokenKind.precedence?_eq : ∀ kind : TokenKind,
    kind.precedence? = (InfixOperator.ofKind? kind).map InfixOperator.precedence := by
  decide +kernel

end EcmaFront
