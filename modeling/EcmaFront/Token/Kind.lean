/-!
# Kinds of tokens

A token is an identifier, a number, a string, a punctuator, an assignment operator or a reserved
word. Only the first three carry text of their own: `TokenKind.text?` gives the spelling of all
others. The kinds stand in one order, in which those of a group come one after the other, so a kind
belongs to a group if its place is in a range.

* `TokenKind.index`: the place of a kind.
* `hasContent_eq`, `isKeyword_eq` and the like: the ranges are the groups.
* `Keyword.isStrictOnly_eq`: nine of the reserved words are reserved in strict sources only.
-/

namespace EcmaFront

/-- Punctuation and operators, the assignments apart. -/
inductive Punctuator where
  | openBrace | closeBrace | openParen | closeParen | openBracket | closeBracket | dot | ellipsis
  | semicolon | comma | optionalDot | less | greater | lessEqual | greaterEqual | equal | notEqual
  | strictEqual | strictNotEqual | arrow | plus | minus | star | starStar | slash | percent
  | plusPlus | minusMinus | shiftLeft | shiftRight | shiftRightUnsigned | ampersand | bar | caret
  | exclamation | tilde | ampersandAmpersand | barBar | questionQuestion | question | colon
  deriving DecidableEq, Repr, Inhabited

/-- The operators that assign to their left operand. -/
inductive AssignmentOperator where
  | assign | add | subtract | multiply | power | divide | remainder | shiftLeft | shiftRight
  | shiftRightUnsigned | bitAnd | bitOr | bitXor | logicalAnd | logicalOr | coalesce
  deriving DecidableEq, Repr, Inhabited

/-- The reserved words. -/
inductive Keyword where
  | breakKw | caseKw | catchKw | classKw | constKw | continueKw | debuggerKw | defaultKw
  | deleteKw | doKw | elseKw | enumKw | exportKw | extendsKw | falseKw | finallyKw | forKw
  | functionKw | ifKw | importKw | inKw | instanceofKw | newKw | nullKw | returnKw | superKw
  | switchKw | thisKw | throwKw | trueKw | tryKw | typeofKw | varKw | voidKw | whileKw | withKw
  | letKw | awaitKw | asKw | implementsKw | interfaceKw | packageKw | privateKw | protectedKw
  | publicKw | staticKw | yieldKw
  deriving DecidableEq, Repr, Inhabited

inductive TokenKind where
  | identifier
  | number
  | string
  | punctuator (p : Punctuator)
  | assignment (op : AssignmentOperator)
  | keyword (k : Keyword)
  deriving DecidableEq, Repr, Inhabited

namespace Punctuator

def all : List Punctuator :=
  [.openBrace, .closeBrace, .openParen, .closeParen, .openBracket, .closeBracket, .dot, .ellipsis,
   .semicolon, .comma, .optionalDot, .less, .greater, .lessEqual, .greaterEqual, .equal,
   .notEqual, .strictEqual, .strictNotEqual, .arrow, .plus, .minus, .star, .starStar, .slash,
   .percent, .plusPlus, .minusMinus, .shiftLeft, .shiftRight, .shiftRightUnsigned, .ampersand,
   .bar, .caret, .exclamation, .tilde, .ampersandAmpersand, .barBar, .questionQuestion, .question,
   .colon]

def text : Punctuator → String
  | .openBrace => "\x7b"
  | .closeBrace => "\x7d"
  | .openParen => "("
  | .closeParen => ")"
  | .openBracket => "["
  | .closeBracket => "]"
  | .dot => "."
  | .ellipsis => "..."
  | .semicolon => ";"
  | .comma => ","
  | .optionalDot => "?."
  | .less => "<"
  | .greater => ">"
  | .lessEqual => "<="
  | .greaterEqual => ">="
  | .equal => "=="
  | .notEqual => "!="
  | .strictEqual => "==="
  | .strictNotEqual => "!=="
  | .arrow => "=>"
  | .plus => "+"
  | .minus => "-"
  | .star => "*"
  | .starStar => "**"
  | .slash => "/"
  | .percent => "%"
  | .plusPlus => "++"
  | .minusMinus => "--"
  | .shiftLeft => "<<"
  | .shiftRight => ">>"
  | .shiftRightUnsigned => ">>>"
  | .ampersand => "&"
  | .bar => "|"
  | .caret => "^"
  | .exclamation => "!"
  | .tilde => "~"
  | .ampersandAmpersand => "&&"
  | .barBar => "||"
  | .questionQuestion => "??"
  | .question => "?"
  | .colon => ":"

/-- The name in a token listing. -/
def name : Punctuator → String
  | .openBrace => "OpenBraceToken"
  | .closeBrace => "CloseBraceToken"
  | .openParen => "OpenParenToken"
  | .closeParen => "CloseParenToken"
  | .openBracket => "OpenBracketToken"
  | .closeBracket => "CloseBracketToken"
  | .dot => "DotToken"
  | .ellipsis => "DotDotDotToken"
  | .semicolon => "SemicolonToken"
  | .comma => "CommaToken"
  | .optionalDot => "QuestionDotToken"
  | .less => "LessThanToken"
  | .greater => "GreaterThanToken"
  | .lessEqual => "LessThanEqualsToken"
  | .greaterEqual => "GreaterThanEqualsToken"
  | .equal => "EqualsEqualsToken"
  | .notEqual => "ExclamationEqualsToken"
  | .strictEqual => "EqualsEqualsEqualsToken"
  | .strictNotEqual => "ExclamationEqualsEqualsToken"
  | .arrow => "EqualsGreaterThanToken"
  | .plus => "PlusToken"
  | .minus => "MinusToken"
  | .star => "AsteriskToken"
  | .starStar => "AsteriskAsteriskToken"
  | .slash => "SlashToken"
  | .percent => "PercentToken"
  | .plusPlus => "PlusPlusToken"
  | .minusMinus => "MinusMinusToken"
  | .shiftLeft => "LessThanLessThanToken"
  | .shiftRight => "GreaterThanGreaterThanToken"
  | .shiftRightUnsigned => "GreaterThanGreaterThanGreaterThanToken"
  | .ampersand => "AmpersandToken"
  | .bar => "BarToken"
  | .caret => "CaretToken"
  | .exclamation => "ExclamationToken"
  | .tilde => "TildeToken"
  | .ampersandAmpersand => "AmpersandAmpersandToken"
  | .barBar => "BarBarToken"
  | .questionQuestion => "QuestionQuestionToken"
  | .question => "QuestionToken"
  | .colon => "ColonToken"

theorem mem_all (p : Punctuator) : p ∈ all := by cases p <;> decide

end Punctuator

namespace AssignmentOperator

def all : List AssignmentOperator :=
  [.assign, .add, .subtract, .multiply, .power, .divide, .remainder, .shiftLeft, .shiftRight,
   .shiftRightUnsigned, .bitAnd, .bitOr, .bitXor, .logicalAnd, .logicalOr, .coalesce]

def text : AssignmentOperator → String
  | .assign => "="
  | .add => "+="
  | .subtract => "-="
  | .multiply => "*="
  | .power => "**="
  | .divide => "/="
  | .remainder => "%="
  | .shiftLeft => "<<="
  | .shiftRight => ">>="
  | .shiftRightUnsigned => ">>>="
  | .bitAnd => "&="
  | .bitOr => "|="
  | .bitXor => "^="
  | .logicalAnd => "&&="
  | .logicalOr => "||="
  | .coalesce => "??="

/-- The name of the token in a token listing. -/
def tokenName : AssignmentOperator → String
  | .assign => "EqualsToken"
  | .add => "PlusEqualsToken"
  | .subtract => "MinusEqualsToken"
  | .multiply => "AsteriskEqualsToken"
  | .power => "AsteriskAsteriskEqualsToken"
  | .divide => "SlashEqualsToken"
  | .remainder => "PercentEqualsToken"
  | .shiftLeft => "LessThanLessThanEqualsToken"
  | .shiftRight => "GreaterThanGreaterThanEqualsToken"
  | .shiftRightUnsigned => "GreaterThanGreaterThanGreaterThanEqualsToken"
  | .bitAnd => "AmpersandEqualsToken"
  | .bitOr => "BarEqualsToken"
  | .bitXor => "CaretEqualsToken"
  | .logicalAnd => "AmpersandAmpersandEqualsToken"
  | .logicalOr => "BarBarEqualsToken"
  | .coalesce => "QuestionQuestionEqualsToken"

/-- The name of the operation in a tree listing. -/
def name : AssignmentOperator → String
  | .assign => "Assign"
  | .add => "Addition"
  | .subtract => "Subtraction"
  | .multiply => "Multiplication"
  | .power => "Exponential"
  | .divide => "Division"
  | .remainder => "Remainder"
  | .shiftLeft => "ShiftLeft"
  | .shiftRight => "ShiftRight"
  | .shiftRightUnsigned => "ShiftRightUnsigned"
  | .bitAnd => "BitwiseAnd"
  | .bitOr => "BitwiseOr"
  | .bitXor => "BitwiseXor"
  | .logicalAnd => "LogicalAnd"
  | .logicalOr => "LogicalOr"
  | .coalesce => "LogicalNullish"

/-- Whether the assignment takes place only if the present value passes a test. -/
def isLogical : AssignmentOperator → Bool
  | .logicalAnd | .logicalOr | .coalesce => true
  | _ => false

theorem mem_all (op : AssignmentOperator) : op ∈ all := by cases op <;> decide

end AssignmentOperator

namespace Keyword

def all : List Keyword :=
  [.breakKw, .caseKw, .catchKw, .classKw, .constKw, .continueKw, .debuggerKw, .defaultKw,
   .deleteKw, .doKw, .elseKw, .enumKw, .exportKw, .extendsKw, .falseKw, .finallyKw, .forKw,
   .functionKw, .ifKw, .importKw, .inKw, .instanceofKw, .newKw, .nullKw, .returnKw, .superKw,
   .switchKw, .thisKw, .throwKw, .trueKw, .tryKw, .typeofKw, .varKw, .voidKw, .whileKw, .withKw,
   .letKw, .awaitKw, .asKw, .implementsKw, .interfaceKw, .packageKw, .privateKw, .protectedKw,
   .publicKw, .staticKw, .yieldKw]

def text : Keyword → String
  | .breakKw => "break"
  | .caseKw => "case"
  | .catchKw => "catch"
  | .classKw => "class"
  | .constKw => "const"
  | .continueKw => "continue"
  | .debuggerKw => "debugger"
  | .defaultKw => "default"
  | .deleteKw => "delete"
  | .doKw => "do"
  | .elseKw => "else"
  | .enumKw => "enum"
  | .exportKw => "export"
  | .extendsKw => "extends"
  | .falseKw => "false"
  | .finallyKw => "finally"
  | .forKw => "for"
  | .functionKw => "function"
  | .ifKw => "if"
  | .importKw => "import"
  | .inKw => "in"
  | .instanceofKw => "instanceof"
  | .newKw => "new"
  | .nullKw => "null"
  | .returnKw => "return"
  | .superKw => "super"
  | .switchKw => "switch"
  | .thisKw => "this"
  | .throwKw => "throw"
  | .trueKw => "true"
  | .tryKw => "try"
  | .typeofKw => "typeof"
  | .varKw => "var"
  | .voidKw => "void"
  | .whileKw => "while"
  | .withKw => "with"
  | .letKw => "let"
  | .awaitKw => "await"
  | .asKw => "as"
  | .implementsKw => "implements"
  | .interfaceKw => "interface"
  | .packageKw => "package"
  | .privateKw => "private"
  | .protectedKw => "protected"
  | .publicKw => "public"
  | .staticKw => "static"
  | .yieldKw => "yield"

/-- The name in a token listing. -/
def name : Keyword → String
  | .breakKw => "BreakKeyword"
  | .caseKw => "CaseKeyword"
  | .catchKw => "CatchKeyword"
  | .classKw => "ClassKeyword"
  | .constKw => "ConstKeyword"
  | .continueKw => "ContinueKeyword"
  | .debuggerKw => "DebuggerKeyword"
  | .defaultKw => "DefaultKeyword"
  | .deleteKw => "DeleteKeyword"
  | .doKw => "DoKeyword"
  | .elseKw => "ElseKeyword"
  | .enumKw => "EnumKeyword"
  | .exportKw => "ExportKeyword"
  | .extendsKw => "ExtendsKeyword"
  | .falseKw => "FalseKeyword"
  | .finallyKw => "FinallyKeyword"
  | .forKw => "ForKeyword"
  | .functionKw => "FunctionKeyword"
  | .ifKw => "IfKeyword"
  | .importKw => "ImportKeyword"
  | .inKw => "InKeyword"
  | .instanceofKw => "InstanceOfKeyword"
  | .newKw => "NewKeyword"
  | .nullKw => "NullKeyword"
  | .returnKw => "ReturnKeyword"
  | .superKw => "SuperKeyword"
  | .switchKw => "SwitchKeyword"
  | .thisKw => "ThisKeyword"
  | .throwKw => "ThrowKeyword"
  | .trueKw => "TrueKeyword"
  | .tryKw => "TryKeyword"
  | .typeofKw => "TypeOfKeyword"
  | .varKw => "VarKeyword"
  | .voidKw => "VoidKeyword"
  | .whileKw => "WhileKeyword"
  | .withKw => "WithKeyword"
  | .letKw => "LetKeyword"
  | .awaitKw => "AwaitKeyword"
  | .asKw => "AsKeyword"
  | .implementsKw => "ImplementsKeyword"
  | .interfaceKw => "InterfaceKeyword"
  | .packageKw => "PackageKeyword"
  | .privateKw => "PrivateKeyword"
  | .protectedKw => "ProtectedKeyword"
  | .publicKw => "PublicKeyword"
  | .staticKw => "StaticKeyword"
  | .yieldKw => "YieldKeyword"

theorem mem_all (k : Keyword) : k ∈ all := by cases k <;> decide

end Keyword

namespace TokenKind

/-- Every kind: first the three with text of their own, then punctuators, assignments, words. -/
def all : List TokenKind :=
  [.identifier, .number, .string] ++ Punctuator.all.map .punctuator ++
    AssignmentOperator.all.map .assignment ++ Keyword.all.map .keyword

/-- The place in the list of all kinds. -/
def index : TokenKind → Nat
  | .identifier => 0
  | .number => 1
  | .string => 2
  | .punctuator p => 3 + p.ctorIdx
  | .assignment op => 44 + op.ctorIdx
  | .keyword k => 60 + k.ctorIdx

/-- Whether the place of a kind is in the range from `first` to `last`. -/
def isBetween (first last kind : TokenKind) : Bool :=
  decide (first.index ≤ kind.index) && decide (kind.index ≤ last.index)

/-- Whether the tokens of a kind carry text of their own. -/
def hasContent (kind : TokenKind) : Bool := decide (kind.index ≤ index .string)

def isKeyword : TokenKind → Bool := isBetween (.keyword .breakKw) (.keyword .yieldKw)

/-- The words that are ordinary identifiers unless the source is strict. -/
def isStrictOnly : TokenKind → Bool := isBetween (.keyword .asKw) (.keyword .yieldKw)

def isAssignment : TokenKind → Bool := isBetween (.assignment .assign) (.assignment .coalesce)

/-- Whether the token assigns the result of an operation. -/
def isCompoundAssignment : TokenKind → Bool :=
  isBetween (.assignment .add) (.assignment .coalesce)

/-- Whether the token can name a property: reserved words can. -/
def isPropertyName (kind : TokenKind) : Bool := kind == .identifier || kind.isKeyword

/-- The one spelling of a kind, unless its tokens carry text of their own. -/
def text? : TokenKind → Option String
  | .identifier | .number | .string => none
  | .punctuator p => some p.text
  | .assignment op => some op.text
  | .keyword k => some k.text

/-- The name in a token listing. -/
def name : TokenKind → String
  | .identifier => "Identifier"
  | .number => "NumericLiteral"
  | .string => "StringLiteral"
  | .punctuator p => p.name
  | .assignment op => op.tokenName
  | .keyword k => k.name

/-- The spelling, or what a message calls a token with text of its own. -/
def label : TokenKind → String
  | .identifier => "identifier"
  | .number => "numeric literal"
  | .string => "string literal"
  | .punctuator p => p.text
  | .assignment op => op.text
  | .keyword k => k.text

/-- The label with quotes around a spelling. -/
def quotedLabel (kind : TokenKind) : String :=
  match kind.text? with
  | some text => "'" ++ text ++ "'"
  | none => kind.label

theorem mem_all (kind : TokenKind) : kind ∈ all := by
  cases kind with
  | punctuator p => simp [all, Punctuator.mem_all]
  | assignment op => simp [all, AssignmentOperator.mem_all]
  | keyword k => simp [all, Keyword.mem_all]
  | _ => simp [all]

/-- What is said of all kinds can be tried on each. -/
instance decidableForall {p : TokenKind → Prop} [DecidablePred p] : Decidable (∀ kind, p kind) :=
  decidable_of_iff (∀ kind ∈ all, p kind) ⟨fun h kind => h kind kind.mem_all, fun h kind _ => h kind⟩

theorem getElem?_index : ∀ kind : TokenKind, all[kind.index]? = some kind := by
  decide +kernel

theorem hasContent_eq : ∀ kind : TokenKind, kind.hasContent = kind.text?.isNone := by
  decide +kernel

theorem isKeyword_eq : ∀ kind : TokenKind, kind.isKeyword =
    match kind with
    | .keyword _ => true
    | _ => false := by
  decide +kernel

theorem isAssignment_eq : ∀ kind : TokenKind, kind.isAssignment =
    match kind with
    | .assignment _ => true
    | _ => false := by
  decide +kernel

theorem isCompoundAssignment_eq : ∀ kind : TokenKind, kind.isCompoundAssignment =
    match kind with
    | .assignment op => op != .assign
    | _ => false := by
  decide +kernel

theorem isPropertyName_eq (kind : TokenKind) : kind.isPropertyName =
    match kind with
    | .identifier | .keyword _ => true
    | _ => false := by
  rw [isPropertyName, isKeyword_eq]
  cases kind <;> rfl

end TokenKind

/-- Whether the word is an ordinary identifier unless the source is strict. -/
def Keyword.isStrictOnly (k : Keyword) : Bool := (TokenKind.keyword k).isStrictOnly

theorem TokenKind.isStrictOnly_eq : ∀ kind : TokenKind, kind.isStrictOnly =
    match kind with
    | .keyword k => k.isStrictOnly
    | _ => false := by
  decide +kernel

@[simp] theorem TokenKind.isStrictOnly_punctuator (p : Punctuator) :
    (punctuator p).isStrictOnly = false :=
  isStrictOnly_eq _

@[simp] theorem TokenKind.isStrictOnly_assignment (op : AssignmentOperator) :
    (assignment op).isStrictOnly = false :=
  isStrictOnly_eq _

/-- The nine words. -/
theorem Keyword.isStrictOnly_eq (k : Keyword) : k.isStrictOnly =
    match k with
    | .asKw | .implementsKw | .interfaceKw | .packageKw | .privateKw | .protectedKw | .publicKw
    | .staticKw | .yieldKw => true
    | _ => false := by
  revert k
  suffices ∀ k ∈ all, _ from fun k => this k k.mem_all
  decide +kernel

end EcmaFront
