import EcmaFront.Token.Kind

/-!
# Operators

The operators of trees, and the kind of the token that each is written with. `ofKind?` reads an
operator off a token, by a table of its own, and `ofKind?_eq_some_iff` says that it inverts `kind`.
The kind of a variable declaration is read off its first word in the same way. Operators between two
operands are spelled as their token is: `InfixOperator.text?_eq`.
-/

namespace EcmaFront

/-- A table of kinds inverts `kindOf`, if each of its rows has the kind of its operator and no
operator is left out. -/
theorem TokenKind.read_eq_some_iff {α : Type} {read : TokenKind → Option α} {kindOf : α → TokenKind}
    (sound : ∀ kind, ∀ a ∈ read kind, kindOf a = kind) (complete : ∀ a, read (kindOf a) = some a)
    {kind : TokenKind} {a : α} : read kind = some a ↔ kindOf a = kind := by
  constructor
  · exact sound kind a
  · rintro rfl
    exact complete a

/-- Operators that always evaluate both operands. -/
inductive BinaryOperator where
  | equality | inequality | strictEquality | strictInequality | less | lessOrEqual | greater
  | greaterOrEqual | instanceOf | member | shiftLeft | shiftRight | shiftRightUnsigned | addition
  | subtraction | multiplication | division | remainder | power | bitOr | bitXor | bitAnd
  deriving DecidableEq, Repr, Inhabited

namespace BinaryOperator

/-- The token between the operands. -/
def kind : BinaryOperator → TokenKind
  | .equality => .punctuator .equal
  | .inequality => .punctuator .notEqual
  | .strictEquality => .punctuator .strictEqual
  | .strictInequality => .punctuator .strictNotEqual
  | .less => .punctuator .less
  | .lessOrEqual => .punctuator .lessEqual
  | .greater => .punctuator .greater
  | .greaterOrEqual => .punctuator .greaterEqual
  | .instanceOf => .keyword .instanceofKw
  | .member => .keyword .inKw
  | .shiftLeft => .punctuator .shiftLeft
  | .shiftRight => .punctuator .shiftRight
  | .shiftRightUnsigned => .punctuator .shiftRightUnsigned
  | .addition => .punctuator .plus
  | .subtraction => .punctuator .minus
  | .multiplication => .punctuator .star
  | .division => .punctuator .slash
  | .remainder => .punctuator .percent
  | .power => .punctuator .starStar
  | .bitOr => .punctuator .bar
  | .bitXor => .punctuator .caret
  | .bitAnd => .punctuator .ampersand

/-- The name in a tree listing. -/
def name : BinaryOperator → String
  | .equality => "Equality"
  | .inequality => "Inequality"
  | .strictEquality => "StrictEquality"
  | .strictInequality => "StrictInequality"
  | .less => "LessThan"
  | .lessOrEqual => "LessThanOrEqual"
  | .greater => "GreaterThan"
  | .greaterOrEqual => "GreaterThanOrEqual"
  | .instanceOf => "InstanceOf"
  | .member => "In"
  | .shiftLeft => "ShiftLeft"
  | .shiftRight => "ShiftRight"
  | .shiftRightUnsigned => "ShiftRightUnsigned"
  | .addition => "Addition"
  | .subtraction => "Subtraction"
  | .multiplication => "Multiplication"
  | .division => "Division"
  | .remainder => "Remainder"
  | .power => "Exponential"
  | .bitOr => "BitwiseOr"
  | .bitXor => "BitwiseXor"
  | .bitAnd => "BitwiseAnd"

/-- The spelling of the operator. -/
def text : BinaryOperator → String
  | .equality => "=="
  | .inequality => "!="
  | .strictEquality => "==="
  | .strictInequality => "!=="
  | .less => "<"
  | .lessOrEqual => "<="
  | .greater => ">"
  | .greaterOrEqual => ">="
  | .instanceOf => "instanceof"
  | .member => "in"
  | .shiftLeft => "<<"
  | .shiftRight => ">>"
  | .shiftRightUnsigned => ">>>"
  | .addition => "+"
  | .subtraction => "-"
  | .multiplication => "*"
  | .division => "/"
  | .remainder => "%"
  | .power => "**"
  | .bitOr => "|"
  | .bitXor => "^"
  | .bitAnd => "&"

/-- The one that a token of the kind stands for. -/
def ofKind? : TokenKind → Option BinaryOperator
  | .punctuator .equal => some .equality
  | .punctuator .notEqual => some .inequality
  | .punctuator .strictEqual => some .strictEquality
  | .punctuator .strictNotEqual => some .strictInequality
  | .punctuator .less => some .less
  | .punctuator .lessEqual => some .lessOrEqual
  | .punctuator .greater => some .greater
  | .punctuator .greaterEqual => some .greaterOrEqual
  | .keyword .instanceofKw => some .instanceOf
  | .keyword .inKw => some .member
  | .punctuator .shiftLeft => some .shiftLeft
  | .punctuator .shiftRight => some .shiftRight
  | .punctuator .shiftRightUnsigned => some .shiftRightUnsigned
  | .punctuator .plus => some .addition
  | .punctuator .minus => some .subtraction
  | .punctuator .star => some .multiplication
  | .punctuator .slash => some .division
  | .punctuator .percent => some .remainder
  | .punctuator .starStar => some .power
  | .punctuator .bar => some .bitOr
  | .punctuator .caret => some .bitXor
  | .punctuator .ampersand => some .bitAnd
  | _ => none

theorem ofKind?_eq_some_iff {kind : TokenKind} {op : BinaryOperator} :
    ofKind? kind = some op ↔ op.kind = kind :=
  TokenKind.read_eq_some_iff (by decide +kernel) fun op => by cases op <;> rfl

end BinaryOperator

/-- Operators that evaluate the right operand only if the left one does not decide. -/
inductive LogicalOperator where
  | and | or | coalesce
  deriving DecidableEq, Repr, Inhabited

namespace LogicalOperator

/-- The token between the operands. -/
def kind : LogicalOperator → TokenKind
  | .and => .punctuator .ampersandAmpersand
  | .or => .punctuator .barBar
  | .coalesce => .punctuator .questionQuestion

/-- The name in a tree listing. -/
def name : LogicalOperator → String
  | .and => "And"
  | .or => "Or"
  | .coalesce => "Coalesce"

/-- The spelling of the operator. -/
def text : LogicalOperator → String
  | .and => "&&"
  | .or => "||"
  | .coalesce => "??"

/-- The one that a token of the kind stands for. -/
def ofKind? : TokenKind → Option LogicalOperator
  | .punctuator .ampersandAmpersand => some .and
  | .punctuator .barBar => some .or
  | .punctuator .questionQuestion => some .coalesce
  | _ => none

theorem ofKind?_eq_some_iff {kind : TokenKind} {op : LogicalOperator} :
    ofKind? kind = some op ↔ op.kind = kind :=
  TokenKind.read_eq_some_iff (by decide +kernel) fun op => by cases op <;> rfl

end LogicalOperator

/-- Operators before their only operand, the updates apart. -/
inductive UnaryOperator where
  | negate | plus | logicalNot | bitNot | typeOf | void | delete
  deriving DecidableEq, Repr, Inhabited

namespace UnaryOperator

/-- The token before the operand. -/
def kind : UnaryOperator → TokenKind
  | .negate => .punctuator .minus
  | .plus => .punctuator .plus
  | .logicalNot => .punctuator .exclamation
  | .bitNot => .punctuator .tilde
  | .typeOf => .keyword .typeofKw
  | .void => .keyword .voidKw
  | .delete => .keyword .deleteKw

/-- The name in a tree listing. -/
def name : UnaryOperator → String
  | .negate => "Negate"
  | .plus => "Plus"
  | .logicalNot => "LogicalNot"
  | .bitNot => "BitwiseNot"
  | .typeOf => "TypeOf"
  | .void => "Void"
  | .delete => "Delete"

/-- The one that a token of the kind stands for. -/
def ofKind? : TokenKind → Option UnaryOperator
  | .punctuator .minus => some .negate
  | .punctuator .plus => some .plus
  | .punctuator .exclamation => some .logicalNot
  | .punctuator .tilde => some .bitNot
  | .keyword .typeofKw => some .typeOf
  | .keyword .voidKw => some .void
  | .keyword .deleteKw => some .delete
  | _ => none

theorem ofKind?_eq_some_iff {kind : TokenKind} {op : UnaryOperator} :
    ofKind? kind = some op ↔ op.kind = kind :=
  TokenKind.read_eq_some_iff (by decide +kernel) fun op => by cases op <;> rfl

end UnaryOperator

/-- Operators before or after the operand that they change. -/
inductive UpdateOperator where
  | increment | decrement
  deriving DecidableEq, Repr, Inhabited

namespace UpdateOperator

/-- The token before or after the operand. -/
def kind : UpdateOperator → TokenKind
  | .increment => .punctuator .plusPlus
  | .decrement => .punctuator .minusMinus

/-- The name in a tree listing. -/
def name : UpdateOperator → String
  | .increment => "Increment"
  | .decrement => "Decrement"

/-- The one that a token of the kind stands for. -/
def ofKind? : TokenKind → Option UpdateOperator
  | .punctuator .plusPlus => some .increment
  | .punctuator .minusMinus => some .decrement
  | _ => none

theorem ofKind?_eq_some_iff {kind : TokenKind} {op : UpdateOperator} :
    ofKind? kind = some op ↔ op.kind = kind :=
  TokenKind.read_eq_some_iff (by decide +kernel) fun op => by cases op <;> rfl

end UpdateOperator

/-- What a declaration declares. -/
inductive DeclarationKind where
  | varKind | letKind | constKind
  deriving DecidableEq, Repr, Inhabited

namespace DeclarationKind

def all : List DeclarationKind :=
  [.varKind, .letKind, .constKind]

/-- The first word of the declaration. -/
def kind : DeclarationKind → TokenKind
  | .varKind => .keyword .varKw
  | .letKind => .keyword .letKw
  | .constKind => .keyword .constKw

/-- The name in a tree listing. -/
def name : DeclarationKind → String
  | .varKind => "Var"
  | .letKind => "Let"
  | .constKind => "Const"

/-- The one that a token of the kind stands for. -/
def ofKind? : TokenKind → Option DeclarationKind
  | .keyword .varKw => some .varKind
  | .keyword .letKw => some .letKind
  | .keyword .constKw => some .constKind
  | _ => none

theorem ofKind?_eq_some_iff {kind : TokenKind} {op : DeclarationKind} :
    ofKind? kind = some op ↔ op.kind = kind :=
  TokenKind.read_eq_some_iff (by decide +kernel) fun op => by cases op <;> rfl

end DeclarationKind

namespace AssignmentOperator

/-- The operator that a token of the kind stands for. -/
def ofKind? : TokenKind → Option AssignmentOperator
  | .assignment .assign => some .assign
  | .assignment .add => some .add
  | .assignment .subtract => some .subtract
  | .assignment .multiply => some .multiply
  | .assignment .power => some .power
  | .assignment .divide => some .divide
  | .assignment .remainder => some .remainder
  | .assignment .shiftLeft => some .shiftLeft
  | .assignment .shiftRight => some .shiftRight
  | .assignment .shiftRightUnsigned => some .shiftRightUnsigned
  | .assignment .bitAnd => some .bitAnd
  | .assignment .bitOr => some .bitOr
  | .assignment .bitXor => some .bitXor
  | .assignment .logicalAnd => some .logicalAnd
  | .assignment .logicalOr => some .logicalOr
  | .assignment .coalesce => some .coalesce
  | _ => none

theorem ofKind?_eq_some_iff {kind : TokenKind} {op : AssignmentOperator} :
    ofKind? kind = some op ↔ TokenKind.assignment op = kind :=
  TokenKind.read_eq_some_iff (by decide +kernel) fun op => by cases op <;> rfl

end AssignmentOperator

/-- The operators between two operands, the assignments apart. -/
inductive InfixOperator where
  | binary (op : BinaryOperator)
  | logical (op : LogicalOperator)
  deriving DecidableEq, Repr, Inhabited

namespace InfixOperator

/-- The token between the operands. -/
def kind : InfixOperator → TokenKind
  | .binary op => op.kind
  | .logical op => op.kind

/-- The name in a tree listing. -/
def name : InfixOperator → String
  | .binary op => op.name
  | .logical op => op.name

/-- The spelling of the operator. -/
def text : InfixOperator → String
  | .binary op => op.text
  | .logical op => op.text

theorem text?_eq (op : InfixOperator) : op.kind.text? = some op.text := by
  rcases op with op | op <;> cases op <;> rfl

/-- The operator that a token of the kind stands for. -/
def ofKind? (kind : TokenKind) : Option InfixOperator :=
  match LogicalOperator.ofKind? kind with
  | some op => some (.logical op)
  | none => (BinaryOperator.ofKind? kind).map .binary

theorem ofKind?_eq_some_iff {kind : TokenKind} {op : InfixOperator} :
    ofKind? kind = some op ↔ op.kind = kind := by
  constructor
  · intro h
    unfold ofKind? at h
    split at h
    · next found =>
      cases h
      exact LogicalOperator.ofKind?_eq_some_iff.1 found
    · obtain ⟨b, found, rfl⟩ := Option.map_eq_some_iff.1 h
      exact BinaryOperator.ofKind?_eq_some_iff.1 found
  · rintro rfl
    cases op with
    | binary b => cases b <;> rfl
    | logical l => cases l <;> rfl

end InfixOperator

end EcmaFront
