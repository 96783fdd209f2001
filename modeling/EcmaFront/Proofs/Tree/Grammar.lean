import EcmaFront.Proofs.Tree.Bare
import EcmaFront.Proofs.Tree.Outline
import EcmaFront.Proofs.Tree.Written
import EcmaFront.Token.Lexer

/-!
# The grammar of trees

Which trees can be written at all, spans aside, and with which lexemes.

* `Grammatical strict piece`: the grammar, by syntactic categories. A category that is told by
  another one has a rule for it, so each rule is one alternative of a production.
* `Program.LaidOut strict p source`: the tokens of the source are the lexemes that `p` asks for.
* `Program.text`: those lexemes with single spaces between them.
-/

namespace EcmaFront

/-- A name that is no reserved word. -/
def Text.IsIdentifier (strict : Bool) (word : Text) : Prop :=
  IsName word ∧ Spelling.keyword? strict word = none

/-- The trees of each category. Their spans are not set. -/
inductive Grammatical (strict : Bool) : Piece → Prop
  -- Assignments. The word `yield` is reserved in strict sources only.
  | yield : strict = true → Grammatical strict (.assignment (.yield .unset))
  | yieldValue {delegates : Bool} {e : Expr} : strict = true → Grammatical strict (.assignment e) →
    Grammatical strict (.assignment (.yieldValue delegates e .unset))
  | unassigned {e : Expr} : Grammatical strict (.conditional e) → Grammatical strict (.assignment e)
  | assigned {op : AssignmentOperator} {target value : Expr} : target.isAssignable = true →
    Grammatical strict (.conditional target) → Grammatical strict (.assignment value) →
    Grammatical strict (.assignment (.assignment op target value .unset))
  -- Expressions.
  | single {e : Expr} : Grammatical strict (.assignment e) → Grammatical strict (.expression e)
  | sequence {es : List Expr} : 2 ≤ es.length → (∀ e ∈ es, Grammatical strict (.assignment e)) →
    Grammatical strict (.expression (.sequence es .unset))
  | plain {e : Expr} : Grammatical strict (.assignment e) → Grammatical strict (.argument (.plain e))
  | spread {e : Expr} : Grammatical strict (.assignment e) →
    Grammatical strict (.argument (.spread e .unset))
  -- Members of objects.
  | keyName {name : Text} : name.IsName → Grammatical strict (.key (.name ⟨name, .unset⟩))
  | keyString {raw : Text} : Quoted.IsString raw → Grammatical strict (.key (.string raw .unset))
  | keyNumber {value : Nat} : value < Numeral.bound →
    Grammatical strict (.key (.number value .unset))
  | keyComputed {e : Expr} : Grammatical strict (.assignment e) →
    Grammatical strict (.key (.computed e))
  | property {key : PropertyKey} {value : Expr} : Grammatical strict (.key key) →
    Grammatical strict (.assignment value) →
    Grammatical strict (.member (.property key value .unset))
  | shorthand {name : Text} : name.IsIdentifier strict →
    Grammatical strict (.member (.shorthand ⟨name, .unset⟩))
  | memberSpread {e : Expr} : Grammatical strict (.assignment e) →
    Grammatical strict (.member (.spread e .unset))
  -- Primary expressions.
  | number {value : Nat} : value < Numeral.bound →
    Grammatical strict (.primary (.leaf (.number value) .unset))
  | string {raw : Text} : Quoted.IsString raw →
    Grammatical strict (.primary (.leaf (.string raw) .unset))
  | identifier {name : Text} : name.IsIdentifier strict →
    Grammatical strict (.primary (.leaf (.identifier name) .unset))
  | word {l : Leaf} : l ∈ [.boolean true, .boolean false, .null, .this, .super, .importMeta] →
    Grammatical strict (.primary (.leaf l .unset))
  | parenthesized {e : Expr} : Grammatical strict (.expression e) →
    Grammatical strict (.primary (.parenthesized e .unset))
  | array {es : List ArrayElement} : (∀ span, .hole span ∈ es → span = .unset) →
    (∀ a, .item a ∈ es → Grammatical strict (.argument a)) →
    Grammatical strict (.primary (.array es .unset))
  | object {ms : List ObjectMember} : (∀ m ∈ ms, Grammatical strict (.member m)) →
    Grammatical strict (.primary (.object ms .unset))
  -- Forms with `new`. The arguments and accesses behind one belong to it if it can have them.
  | headPrimary {e : Expr} : Grammatical strict (.primary e) → Grammatical strict (.head e)
  | newTarget : Grammatical strict (.head (.leaf .newTarget .unset))
  | construct {callee : Expr} {list : List Argument} : callee.isBareNew = false →
    Grammatical strict (.callee callee) → (∀ a ∈ list, Grammatical strict (.argument a)) →
    Grammatical strict (.head (.construct callee list .unset))
  | constructBare {callee : Expr} : Grammatical strict (.callee callee) →
    Grammatical strict (.head (.constructBare callee .unset))
  | calleeHead {e : Expr} : Grammatical strict (.head e) → Grammatical strict (.callee e)
  | calleeProperty {object : Expr} {name : Text} : object.isBareNew = false →
    Grammatical strict (.callee object) → name.IsName →
    Grammatical strict (.callee (.property object ⟨name, .unset⟩ false .unset))
  | calleeElement {object index : Expr} : object.isBareNew = false →
    Grammatical strict (.callee object) → Grammatical strict (.expression index) →
    Grammatical strict (.callee (.element object index false .unset))
  -- Links.
  | linksHead {e : Expr} : Grammatical strict (.head e) → Grammatical strict (.links e)
  | linksProperty {object : Expr} {name : Text} {optional : Bool} :
    (optional || !object.isBareNew) = true → Grammatical strict (.links object) → name.IsName →
    Grammatical strict (.links (.property object ⟨name, .unset⟩ optional .unset))
  | linksElement {object index : Expr} {optional : Bool} :
    (optional || !object.isBareNew) = true → Grammatical strict (.links object) →
    Grammatical strict (.expression index) →
    Grammatical strict (.links (.element object index optional .unset))
  | linksCall {callee : Expr} {list : List Argument} {optional : Bool} :
    (optional || !callee.isBareNew) = true → Grammatical strict (.links callee) →
    (∀ a ∈ list, Grammatical strict (.argument a)) →
    Grammatical strict (.links (.call callee list optional .unset))
  -- Operators.
  | updatedLinks {e : Expr} : Grammatical strict (.links e) → Grammatical strict (.updated e)
  | updateBehind {op : UpdateOperator} {e : Expr} : e.isAssignable = true →
    Grammatical strict (.links e) → Grammatical strict (.updated (.update op false e .unset))
  | operandUpdated {e : Expr} : Grammatical strict (.updated e) → Grammatical strict (.operand e)
  | updateAhead {op : UpdateOperator} {e : Expr} : e.isAssignable = true →
    Grammatical strict (.operand e) → Grammatical strict (.operand (.update op true e .unset))
  | unary {op : UnaryOperator} {e : Expr} : Grammatical strict (.operand e) →
    Grammatical strict (.operand (.unary op e .unset))
  | await {e : Expr} : Grammatical strict (.operand e) →
    Grammatical strict (.operand (.await e .unset))
  | chainOperand {least : Nat} {e : Expr} : Grammatical strict (.operand e) →
    Grammatical strict (.chain least e)
  | operation {least : Nat} {op : InfixOperator} {left right : Expr} :
    least ≤ op.precedence.rank → Expr.mixesWith op left = false →
    Expr.mixesWith op right = false → Grammatical strict (.chain op.precedence.leftLeast left) →
    Grammatical strict (.chain op.precedence.rightLeast right) →
    Grammatical strict (.chain least (.operation op left right .unset))
  | unconditional {e : Expr} : Grammatical strict (.chain (Precedence.conditional.rank + 1) e) →
    Grammatical strict (.conditional e)
  | conditional {condition whenTrue whenFalse : Expr} :
    Grammatical strict (.chain (Precedence.conditional.rank + 1) condition) →
    Grammatical strict (.assignment whenTrue) → Grammatical strict (.assignment whenFalse) →
    Grammatical strict (.conditional (.conditional condition whenTrue whenFalse .unset))
  -- Statements.
  | declaration {kind : DeclarationKind} {name : Text} {value : Expr} : name.IsIdentifier strict →
    Grammatical strict (.assignment value) →
    Grammatical strict (.statement (.declaration kind ⟨name, .unset⟩ value .unset))
  | block {list : List Statement} : (∀ s ∈ list, Grammatical strict (.statement s)) →
    Grammatical strict (.statement (.block list .unset))
  | empty : Grammatical strict (.statement (.empty .unset))
  | expression {e : Expr} : e.startsWithBrace = false → Grammatical strict (.expression e) →
    Grammatical strict (.statement (.expression e .unset))
  | debugger : Grammatical strict (.statement (.debugger .unset))

/-- The program is in the grammar, spans aside. -/
def Program.IsGrammatical (strict : Bool) (p : Program) : Prop :=
  ∀ s ∈ p.bare.statements, Grammatical strict (.statement s)

/-! ## Layout -/

/-- No number has a name, or a dot and digits, right behind it. -/
def Detached : List Lexeme → Prop
  | [] => True
  | t :: ts => (t.kind = .number → Expr.attachedSuffix? t ts = none) ∧ Detached ts

/-- What a slot is printed as. -/
def Slot.text? : Slot → Option Text
  | .fixed kind => some kind.label.toList
  | .word text => some text
  | .numeral value => some (Nat.toDigits 10 value)
  | .lastComma => none

namespace Program

/-- The lexemes of the program in order: numbers in decimal digits, no comma before a bracket that
closes, unless it stands for a hole. -/
def texts (p : Program) : List Text := p.slots.filterMap Slot.text?

/-- The lexemes with single spaces between them. -/
def text (p : Program) : Text := [' '].intercalate p.texts

/-- The tokens of the source are lexemes of the program in order. Numbers may have zeros in front,
and a comma may stand before a bracket that closes. -/
def LaidOut (strict : Bool) (p : Program) (source : Text) : Prop :=
  ∃ tokens, scan strict source = .ok tokens ∧ Prints p.slots (tokens.toList.map tokens.text) ∧
    Detached tokens.lexemes

end Program

end EcmaFront
