import EcmaFront.Proofs.Tree.Reading
import EcmaFront.Tree.Statement

/-!
# How trees are written with tokens

`Written n piece ts rest` says that the lexemes `ts` write the piece of syntax in front of `rest`,
where `n` levels of nesting may be entered. This is the grammar of the language, with the tokens of
each form, the span of each node and the few places where a form hangs on the token behind it: a
number is not attached to what follows it, a `yield` without an operand stands where none could
start, a `new` without arguments takes the accesses and arguments that follow.

* `Piece`: the syntactic categories.
* `Written.opening`: the tokens that expressions start with.
-/

namespace EcmaFront

/-- A tree in a syntactic category. -/
inductive Piece where
  /-- A form between two commas. -/
  | assignment (e : Expr)
  | expression (e : Expr)
  /-- The rest of a sequence, with a comma before each expression. -/
  | tail (es : List Expr)
  | argument (a : Argument)
  /-- What stands between the parentheses of a call. -/
  | arguments (list : List Argument)
  /-- What stands between the brackets of an array. -/
  | elements (es : List ArrayElement)
  | key (k : PropertyKey)
  | member (m : ObjectMember)
  /-- What stands between the braces of an object. -/
  | members (ms : List ObjectMember)
  | primary (e : Expr)
  /-- What a chain of links starts with. -/
  | head (e : Expr)
  /-- What `new` calls. -/
  | callee (e : Expr)
  | links (e : Expr)
  /-- The brackets that make `e` of `object`. -/
  | element (object : Expr) (optional : Bool) (e : Expr)
  /-- The parentheses that make `e` of `callee`. -/
  | call (callee : Expr) (optional : Bool) (e : Expr)
  /-- A link that a callee may have, from `object` to `e`. -/
  | access (object e : Expr)
  /-- Any link, from `object` to `e`. -/
  | link (object e : Expr)
  | updated (e : Expr)
  | operand (e : Expr)
  /-- Operands with operators of rank `least` or more between them. -/
  | chain (least : Nat) (e : Expr)
  | conditional (e : Expr)
  | statement (s : Statement)
  | statements (list : List Statement)

namespace Precedence

/-- The least rank of operators in the left operand of an operator of level `p`. -/
def leftLeast (p : Precedence) : Nat := if p.groupsRight then p.rank + 1 else p.rank

/-- The least rank of operators in its right operand. -/
def rightLeast (p : Precedence) : Nat := if p.groupsRight then p.rank else p.rank + 1

end Precedence

/-- Whether a `new` form without arguments would take the token. -/
def TokenKind.continuesCallee (kind : TokenKind) : Bool :=
  match kind.linkStart with
  | .dot | .bracket | .paren => true
  | _ => false

inductive Written : Nat → Piece → List Lexeme → List Lexeme → Prop
  | yield {n : Nat} {y : Lexeme} {rest : List Lexeme} : y.kind = .keyword .yieldKw →
    Stops TokenKind.startsYieldOperand rest →
    Written (n + 1) (.assignment (.yield (.ofBounds y.span.start y.span.stop))) [y] rest
  | yieldValue {n : Nat} {y : Lexeme} {e : Expr} {ts rest : List Lexeme} :
    y.kind = .keyword .yieldKw → Written n (.assignment e) ts rest →
    Written (n + 1)
      (.assignment (.yieldValue false e (.ofBounds y.span.start (stopAfter y.span.stop ts))))
      (y :: ts) rest
  | yieldAll {n : Nat} {y s : Lexeme} {e : Expr} {ts rest : List Lexeme} :
    y.kind = .keyword .yieldKw → s.kind = .punctuator .star → Written n (.assignment e) ts rest →
    Written (n + 1)
      (.assignment (.yieldValue true e (.ofBounds y.span.start (stopAfter s.span.stop ts))))
      (y :: s :: ts) rest
  | unassigned {n : Nat} {e : Expr} {ts rest : List Lexeme} :
    Written n (.conditional e) ts rest → Written (n + 1) (.assignment e) ts rest
  | assigned {n : Nat} {op : AssignmentOperator} {target value : Expr} {o : Lexeme}
    {ts us rest : List Lexeme} : o.kind = .assignment op → target.isAssignable = true →
    Written n (.conditional target) ts (o :: (us ++ rest)) → Written n (.assignment value) us rest →
    Written (n + 1)
      (.assignment (.assignment op target value
        (.ofBounds target.span.start (stopAfter o.span.stop us))))
      (ts ++ o :: us) rest
  | single {n : Nat} {e : Expr} {ts rest : List Lexeme} :
    Written n (.assignment e) ts rest → Written n (.expression e) ts rest
  | sequence {n : Nat} {first second : Expr} {es : List Expr} {k : Lexeme}
    {ts us rest : List Lexeme} : Written n (.assignment first) ts (k :: (us ++ rest)) →
    Written n (.tail (second :: es)) (k :: us) rest →
    Written n
      (.expression (.sequence (first :: second :: es)
        (.ofBounds first.span.start (stopAfter k.span.stop us))))
      (ts ++ k :: us) rest
  | tailNil {n : Nat} {rest : List Lexeme} : Written n (.tail []) [] rest
  | tailCons {n : Nat} {e : Expr} {es : List Expr} {k : Lexeme} {ts us rest : List Lexeme} :
    k.kind = .punctuator .comma → Written n (.assignment e) ts (us ++ rest) →
    Written n (.tail es) us rest → Written n (.tail (e :: es)) (k :: (ts ++ us)) rest
  | plain {n : Nat} {e : Expr} {ts rest : List Lexeme} :
    Written n (.assignment e) ts rest → Written n (.argument (.plain e)) ts rest
  | spread {n : Nat} {d : Lexeme} {e : Expr} {ts rest : List Lexeme} :
    d.kind = .punctuator .ellipsis → Written n (.assignment e) ts rest →
    Written n (.argument (.spread e (.ofBounds d.span.start (stopAfter d.span.stop ts))))
      (d :: ts) rest
  | argumentsNil {n : Nat} {rest : List Lexeme} : Written n (.arguments []) [] rest
  | argumentsLast {n : Nat} {a : Argument} {ts rest : List Lexeme} :
    Written n (.argument a) ts rest → Written n (.arguments [a]) ts rest
  | argumentsCons {n : Nat} {a : Argument} {list : List Argument} {k : Lexeme}
    {ts us rest : List Lexeme} : k.kind = .punctuator .comma →
    Written n (.argument a) ts (k :: (us ++ rest)) → Written n (.arguments list) us rest →
    Written n (.arguments (a :: list)) (ts ++ k :: us) rest
  | elementsNil {n : Nat} {rest : List Lexeme} : Written n (.elements []) [] rest
  | elementsHole {n : Nat} {es : List ArrayElement} {k : Lexeme} {ts rest : List Lexeme} :
    k.kind = .punctuator .comma → Written n (.elements es) ts rest →
    Written n (.elements (.hole (.empty k.span.start) :: es)) (k :: ts) rest
  | elementsLast {n : Nat} {a : Argument} {ts rest : List Lexeme} :
    Written n (.argument a) ts rest → Written n (.elements [.item a]) ts rest
  | elementsCons {n : Nat} {a : Argument} {es : List ArrayElement} {k : Lexeme}
    {ts us rest : List Lexeme} : k.kind = .punctuator .comma →
    Written n (.argument a) ts (k :: (us ++ rest)) → Written n (.elements es) us rest →
    Written n (.elements (.item a :: es)) (ts ++ k :: us) rest
  | keyName {n : Nat} {t : Lexeme} {rest : List Lexeme} : t.kind.keyStart = .name →
    Written n (.key (.name ⟨t.text, t.span⟩)) [t] rest
  | keyString {n : Nat} {t : Lexeme} {rest : List Lexeme} : t.kind.keyStart = .string →
    Written n (.key (.string t.text t.span)) [t] rest
  | keyNumber {n value : Nat} {t : Lexeme} {rest : List Lexeme} : t.kind.keyStart = .number →
    Numeral.value? t.text = some value → Written n (.key (.number value t.span)) [t] rest
  | keyComputed {n : Nat} {e : Expr} {b k : Lexeme} {ts rest : List Lexeme} :
    b.kind.keyStart = .computed → k.kind = .punctuator .closeBracket →
    Written n (.assignment e) ts (k :: rest) →
    Written n (.key (.computed e)) (b :: (ts ++ [k])) rest
  | property {n : Nat} {key : PropertyKey} {value : Expr} {t k : Lexeme} {ts us rest : List Lexeme} :
    k.kind = .punctuator .colon → Written n (.key key) (t :: ts) (k :: (us ++ rest)) →
    Written n (.assignment value) us rest →
    Written n
      (.member (.property key value (.ofBounds t.span.start (stopAfter k.span.stop us))))
      (t :: (ts ++ k :: us)) rest
  | shorthand {n : Nat} {t : Lexeme} {rest : List Lexeme} : Expr.isShorthand (t :: rest) = true →
    Written n (.member (.shorthand ⟨t.text, t.span⟩)) [t] rest
  | memberSpread {n : Nat} {d : Lexeme} {e : Expr} {ts rest : List Lexeme} :
    d.kind = .punctuator .ellipsis → Written n (.assignment e) ts rest →
    Written n (.member (.spread e (.ofBounds d.span.start (stopAfter d.span.stop ts))))
      (d :: ts) rest
  | membersNil {n : Nat} {rest : List Lexeme} : Written n (.members []) [] rest
  | membersLast {n : Nat} {m : ObjectMember} {ts rest : List Lexeme} :
    Written n (.member m) ts rest → Written n (.members [m]) ts rest
  | membersCons {n : Nat} {m : ObjectMember} {ms : List ObjectMember} {k : Lexeme}
    {ts us rest : List Lexeme} : k.kind = .punctuator .comma →
    Written n (.member m) ts (k :: (us ++ rest)) → Written n (.members ms) us rest →
    Written n (.members (m :: ms)) (ts ++ k :: us) rest
  | number {n value : Nat} {t : Lexeme} {rest : List Lexeme} : t.primaryStart = .number →
    Numeral.value? t.text = some value → Expr.attachedSuffix? t rest = none →
    Written n (.primary (.leaf (.number value) t.span)) [t] rest
  | leaf {n : Nat} {l : Leaf} {t : Lexeme} {rest : List Lexeme} : t.primaryStart = .leaf l →
    Written n (.primary (.leaf l t.span)) [t] rest
  | importMeta {n : Nat} {i d m : Lexeme} {rest : List Lexeme} : i.primaryStart = .importWord →
    d.kind = .punctuator .dot → m.kind = .identifier → m.text = "meta".toList →
    Written n (.primary (.leaf .importMeta (.ofBounds i.span.start m.span.stop))) [i, d, m] rest
  | parenthesized {n : Nat} {e : Expr} {p k : Lexeme} {ts rest : List Lexeme} :
    p.primaryStart = .parenthesized → k.kind = .punctuator .closeParen →
    Written n (.expression e) ts (k :: rest) →
    Written n (.primary (.parenthesized e (.ofBounds p.span.start k.span.stop)))
      (p :: (ts ++ [k])) rest
  | array {n : Nat} {es : List ArrayElement} {b k : Lexeme} {ts rest : List Lexeme} :
    b.primaryStart = .array → k.kind = .punctuator .closeBracket →
    Written n (.elements es) ts (k :: rest) →
    Written n (.primary (.array es (.ofBounds b.span.start k.span.stop))) (b :: (ts ++ [k])) rest
  | object {n : Nat} {ms : List ObjectMember} {b k : Lexeme} {ts rest : List Lexeme} :
    b.primaryStart = .object → k.kind = .punctuator .closeBrace →
    Written n (.members ms) ts (k :: rest) →
    Written n (.primary (.object ms (.ofBounds b.span.start k.span.stop))) (b :: (ts ++ [k])) rest
  | headPrimary {n : Nat} {e : Expr} {ts rest : List Lexeme} :
    Written n (.primary e) ts rest → Written n (.head e) ts rest
  | newTarget {n : Nat} {w d t : Lexeme} {rest : List Lexeme} : w.kind = .keyword .newKw →
    d.kind = .punctuator .dot → t.kind = .identifier → t.text = "target".toList →
    Written (n + 1) (.head (.leaf .newTarget (.ofBounds w.span.start t.span.stop))) [w, d, t] rest
  | construct {n : Nat} {callee : Expr} {list : List Argument} {w p k : Lexeme}
    {ts us rest : List Lexeme} : w.kind = .keyword .newKw → p.kind = .punctuator .openParen →
    k.kind = .punctuator .closeParen → Written n (.callee callee) ts (p :: (us ++ k :: rest)) →
    Written n (.arguments list) us (k :: rest) →
    Written (n + 1) (.head (.construct callee list (.ofBounds w.span.start k.span.stop)))
      (w :: (ts ++ p :: (us ++ [k]))) rest
  | constructBare {n : Nat} {callee : Expr} {w : Lexeme} {ts rest : List Lexeme} :
    w.kind = .keyword .newKw → Written n (.callee callee) ts rest →
    Stops TokenKind.continuesCallee rest →
    Written (n + 1)
      (.head (.constructBare callee (.ofBounds w.span.start (stopAfter w.span.stop ts))))
      (w :: ts) rest
  | calleeHead {n : Nat} {e : Expr} {ts rest : List Lexeme} :
    Written n (.head e) ts rest → Written n (.callee e) ts rest
  | calleeAccess {n : Nat} {object e : Expr} {ts us rest : List Lexeme} :
    Written n (.callee object) ts (us ++ rest) → Written n (.access object e) us rest →
    Written n (.callee e) (ts ++ us) rest
  | linksHead {n : Nat} {e : Expr} {ts rest : List Lexeme} :
    Written n (.head e) ts rest → Written n (.links e) ts rest
  | linksLink {n : Nat} {object e : Expr} {ts us rest : List Lexeme} :
    Written n (.links object) ts (us ++ rest) → Written n (.link object e) us rest →
    Written n (.links e) (ts ++ us) rest
  | element {n : Nat} {object index : Expr} {optional : Bool} {b k : Lexeme}
    {ts rest : List Lexeme} : b.kind = .punctuator .openBracket →
    k.kind = .punctuator .closeBracket → Written n (.expression index) ts (k :: rest) →
    Written n
      (.element object optional (.element object index optional
        (.ofBounds object.span.start k.span.stop)))
      (b :: (ts ++ [k])) rest
  | call {n : Nat} {callee : Expr} {list : List Argument} {optional : Bool} {p k : Lexeme}
    {ts rest : List Lexeme} : p.kind = .punctuator .openParen →
    k.kind = .punctuator .closeParen → Written n (.arguments list) ts (k :: rest) →
    Written n
      (.call callee optional (.call callee list optional
        (.ofBounds callee.span.start k.span.stop)))
      (p :: (ts ++ [k])) rest
  | accessName {n : Nat} {object : Expr} {d i : Lexeme} {rest : List Lexeme} :
    d.kind = .punctuator .dot → i.kind.isPropertyName = true →
    Written n
      (.access object (.property object ⟨i.text, i.span⟩ false
        (.ofBounds object.span.start i.span.stop)))
      [d, i] rest
  | accessElement {n : Nat} {object e : Expr} {ts rest : List Lexeme} :
    Written n (.element object false e) ts rest → Written n (.access object e) ts rest
  | linkAccess {n : Nat} {object e : Expr} {ts rest : List Lexeme} :
    Written n (.access object e) ts rest → Written n (.link object e) ts rest
  | linkCall {n : Nat} {object e : Expr} {ts rest : List Lexeme} :
    Written n (.call object false e) ts rest → Written n (.link object e) ts rest
  | optionalName {n : Nat} {object : Expr} {q i : Lexeme} {rest : List Lexeme} :
    q.kind = .punctuator .optionalDot → i.kind.isPropertyName = true →
    Written n
      (.link object (.property object ⟨i.text, i.span⟩ true
        (.ofBounds object.span.start i.span.stop)))
      [q, i] rest
  | optionalElement {n : Nat} {object e : Expr} {q : Lexeme} {ts rest : List Lexeme} :
    q.kind = .punctuator .optionalDot → Written n (.element object true e) ts rest →
    Written n (.link object e) (q :: ts) rest
  | optionalCall {n : Nat} {object e : Expr} {q : Lexeme} {ts rest : List Lexeme} :
    q.kind = .punctuator .optionalDot → Written n (.call object true e) ts rest →
    Written n (.link object e) (q :: ts) rest
  | updatedLinks {n : Nat} {e : Expr} {ts rest : List Lexeme} :
    Written n (.links e) ts rest → Written n (.updated e) ts rest
  | updateBehind {n : Nat} {op : UpdateOperator} {e : Expr} {o : Lexeme} {ts rest : List Lexeme} :
    op.kind = o.kind → e.isAssignable = true → Written n (.links e) ts (o :: rest) →
    Written n (.updated (.update op false e (.ofBounds e.span.start o.span.stop))) (ts ++ [o]) rest
  | operandUpdated {n : Nat} {e : Expr} {ts rest : List Lexeme} :
    Written n (.updated e) ts rest → Written n (.operand e) ts rest
  | updateAhead {n : Nat} {op : UpdateOperator} {e : Expr} {o : Lexeme} {ts rest : List Lexeme} :
    o.kind.operandStart = .update op → e.isAssignable = true → Written n (.operand e) ts rest →
    Written (n + 1)
      (.operand (.update op true e (.ofBounds o.span.start (stopAfter o.span.stop ts))))
      (o :: ts) rest
  | unary {n : Nat} {op : UnaryOperator} {e : Expr} {o : Lexeme} {ts rest : List Lexeme} :
    o.kind.operandStart = .unary op → Written n (.operand e) ts rest →
    Written (n + 1) (.operand (.unary op e (.ofBounds o.span.start (stopAfter o.span.stop ts))))
      (o :: ts) rest
  | await {n : Nat} {e : Expr} {o : Lexeme} {ts rest : List Lexeme} :
    o.kind.operandStart = .await → Written n (.operand e) ts rest →
    Written (n + 1) (.operand (.await e (.ofBounds o.span.start (stopAfter o.span.stop ts))))
      (o :: ts) rest
  | chainOperand {n least : Nat} {e : Expr} {ts rest : List Lexeme} :
    Written n (.operand e) ts rest → Written n (.chain least e) ts rest
  | operationLeft {n least : Nat} {op : InfixOperator} {left right : Expr} {o : Lexeme}
    {ts us rest : List Lexeme} : op.kind = o.kind → op.precedence.groupsRight = false →
    least ≤ op.precedence.rank → Expr.mixesWith op left = false → Expr.mixesWith op right = false →
    Written n (.chain op.precedence.rank left) ts (o :: (us ++ rest)) →
    Written n (.chain (op.precedence.rank + 1) right) us rest →
    Written n (.chain least (.operation op left right (left.span.cover right.span)))
      (ts ++ o :: us) rest
  | operationRight {n least : Nat} {op : InfixOperator} {left right : Expr} {o : Lexeme}
    {ts us rest : List Lexeme} : op.kind = o.kind → op.precedence.groupsRight = true →
    least ≤ op.precedence.rank → Expr.mixesWith op left = false → Expr.mixesWith op right = false →
    Written (n + 1) (.chain (op.precedence.rank + 1) left) ts (o :: (us ++ rest)) →
    Written n (.chain op.precedence.rank right) us rest →
    Written (n + 1) (.chain least (.operation op left right (left.span.cover right.span)))
      (ts ++ o :: us) rest
  | unconditional {n : Nat} {e : Expr} {ts rest : List Lexeme} :
    Written n (.chain (Precedence.conditional.rank + 1) e) ts rest →
    Written n (.conditional e) ts rest
  | conditional {n : Nat} {condition whenTrue whenFalse : Expr} {q k : Lexeme}
    {ts us vs rest : List Lexeme} : q.kind = .punctuator .question → k.kind = .punctuator .colon →
    Written n (.chain (Precedence.conditional.rank + 1) condition) ts
      (q :: (us ++ k :: (vs ++ rest))) →
    Written n (.assignment whenTrue) us (k :: (vs ++ rest)) →
    Written n (.assignment whenFalse) vs rest →
    Written n
      (.conditional (.conditional condition whenTrue whenFalse
        (.ofBounds condition.span.start (stopAfter k.span.stop vs))))
      (ts ++ q :: (us ++ k :: vs)) rest
  | declaration {n : Nat} {kind : DeclarationKind} {value : Expr} {w i q z : Lexeme}
    {ts rest : List Lexeme} : w.kind = kind.kind → i.kind = .identifier →
    q.kind = .assignment .assign → z.kind = .punctuator .semicolon →
    Written n (.assignment value) ts (z :: rest) →
    Written n
      (.statement (.declaration kind ⟨i.text, i.span⟩ value (.ofBounds w.span.start z.span.stop)))
      (w :: i :: q :: (ts ++ [z])) rest
  | block {n : Nat} {list : List Statement} {b k : Lexeme} {ts rest : List Lexeme} :
    b.kind = .punctuator .openBrace → k.kind = .punctuator .closeBrace →
    Written n (.statements list) ts (k :: rest) →
    Written (n + 1) (.statement (.block list (.ofBounds b.span.start k.span.stop)))
      (b :: (ts ++ [k])) rest
  | empty {n : Nat} {z : Lexeme} {rest : List Lexeme} : z.kind = .punctuator .semicolon →
    Written n (.statement (.empty z.span)) [z] rest
  | expression {n : Nat} {e : Expr} {t z : Lexeme} {ts rest : List Lexeme} :
    t.kind ≠ .punctuator .openBrace → z.kind = .punctuator .semicolon →
    Written n (.expression e) (t :: ts) (z :: rest) →
    Written n (.statement (.expression e (.ofBounds e.span.start z.span.stop)))
      (t :: (ts ++ [z])) rest
  | debugger {n : Nat} {w z : Lexeme} {rest : List Lexeme} : w.kind = .keyword .debuggerKw →
    z.kind = .punctuator .semicolon →
    Written n (.statement (.debugger (.ofBounds w.span.start z.span.stop))) [w, z] rest
  | statementsNil {n : Nat} {rest : List Lexeme} : Written n (.statements []) [] rest
  | statementsCons {n : Nat} {s : Statement} {list : List Statement} {ts us rest : List Lexeme} :
    Written n (.statement s) ts (us ++ rest) → Written n (.statements list) us rest →
    Written n (.statements (s :: list)) (ts ++ us) rest

/-! ## How expressions start -/

namespace TokenKind

/-- Whether an expression without operators in front can start with the token. -/
def startsHead : TokenKind → Bool
  | .identifier | .number | .string | .punctuator .openParen | .punctuator .openBracket
  | .punctuator .openBrace | .keyword .trueKw | .keyword .falseKw | .keyword .nullKw
  | .keyword .thisKw | .keyword .superKw | .keyword .importKw | .keyword .newKw => true
  | _ => false

def startsOperand (kind : TokenKind) : Bool := kind.startsHead || kind.operandStart != .plain

def startsAssignment (kind : TokenKind) : Bool := kind.startsOperand || kind == .keyword .yieldKw

theorem startsAssignment_of_startsOperand {kind : TokenKind} (h : kind.startsOperand = true) :
    kind.startsAssignment = true := by
  simp [startsAssignment, h]

theorem startsOperand_of_startsHead {kind : TokenKind} (h : kind.startsHead = true) :
    kind.startsOperand = true := by
  simp [startsOperand, h]

theorem startsOperand_of_operandStart {kind : TokenKind} (h : kind.operandStart ≠ .plain) :
    kind.startsOperand = true := by
  simp [startsOperand, h]

/-- No operator in front, no `yield`, no bracket that closes: the token starts an operand itself. -/
theorem operandStart_of_startsHead {kind : TokenKind} (h : kind.startsHead = true) :
    kind.operandStart = .plain := by
  revert kind
  decide +kernel

theorem startsYieldOperand_of_startsAssignment {kind : TokenKind}
    (h : kind.startsAssignment = true) :
    kind.startsYieldOperand = true ∧ kind ≠ .punctuator .star ∧ kind ≠ .punctuator .ellipsis := by
  revert kind
  decide +kernel

end TokenKind

/-- The first token is of a kind that `p` tells. Where readers look at the second one, it follows:
a dot behind `import`, anything but the closing parenthesis behind the opening one. -/
def Opens (p : TokenKind → Bool) (ts : List Lexeme) : Prop :=
  ∃ t us, ts = t :: us ∧ p t.kind = true ∧
    (t.kind = .keyword .importKw → ∃ d ∈ us.head?, d.kind = .punctuator .dot) ∧
    (t.kind = .punctuator .openParen → ∃ s ∈ us.head?, s.kind ≠ .punctuator .closeParen)

namespace Opens

variable {p q : TokenKind → Bool} {ts : List Lexeme}

theorem append (h : Opens p ts) (us : List Lexeme) : Opens p (ts ++ us) := by
  obtain ⟨t, vs, rfl, first, behindImport, behindParen⟩ := h
  refine ⟨t, vs ++ us, rfl, first, fun k => ?_, fun k => ?_⟩
  · obtain ⟨d, hd, dot⟩ := behindImport k
    exact ⟨d, by simp_all [List.head?_append], dot⟩
  · obtain ⟨s, hs, other⟩ := behindParen k
    exact ⟨s, by simp_all [List.head?_append], other⟩

theorem mono (h : Opens p ts) (le : ∀ {kind : TokenKind}, p kind = true → q kind = true) :
    Opens q ts := by
  obtain ⟨t, us, eq, first, behind⟩ := h
  exact ⟨t, us, eq, le first, behind⟩

/-- Only `import` and the opening parenthesis need a second look. -/
theorem of_kind {t : Lexeme} (first : p t.kind = true) (notImport : t.kind ≠ .keyword .importKw)
    (notParen : t.kind ≠ .punctuator .openParen) (us : List Lexeme) : Opens p (t :: us) :=
  ⟨t, us, rfl, first, fun k => absurd k notImport, fun k => absurd k notParen⟩

theorem of_operandStart {t : Lexeme} (h : t.kind.operandStart ≠ .plain) (us : List Lexeme) :
    Opens TokenKind.startsOperand (t :: us) := by
  refine of_kind (TokenKind.startsOperand_of_operandStart h) ?_ ?_ us
  · intro k
    exact h (k ▸ by decide)
  · intro k
    exact h (k ▸ by decide)

end Opens

namespace Lexeme

variable {t : Lexeme}

theorem primaryStart_eq_importWord (h : t.primaryStart = .importWord) :
    t.kind = .keyword .importKw := by
  unfold primaryStart at h
  split at h <;> first | assumption | cases h

theorem primaryStart_eq_parenthesized (h : t.primaryStart = .parenthesized) :
    t.kind = .punctuator .openParen := by
  unfold primaryStart at h
  split at h <;> first | assumption | cases h

theorem opens_of_primaryStart (h : t.primaryStart ≠ .other) (h' : t.primaryStart ≠ .unsupported)
    (notImport : t.primaryStart ≠ .importWord) (notParen : t.primaryStart ≠ .parenthesized)
    (us : List Lexeme) : Opens TokenKind.startsHead (t :: us) := by
  refine Opens.of_kind ?_ ?_ ?_ us
  · unfold primaryStart at h h'
    unfold TokenKind.startsHead
    split at h <;> simp_all
  · intro k
    exact notImport (by rw [primaryStart, k])
  · intro k
    exact notParen (by rw [primaryStart, k])

end Lexeme

theorem Expr.kind_of_isShorthand {t : Lexeme} {rest : List Lexeme}
    (h : isShorthand (t :: rest) = true) : t.kind = .identifier := by
  unfold isShorthand at h
  split at h
  · next eq =>
    obtain ⟨rfl, _⟩ := List.cons.inj eq
    simp only [Bool.and_eq_true, beq_iff_eq] at h
    exact h.1
  · cases h

/-- What the first tokens of the pieces of a category are; the lists of pieces can be empty, and the
others are not seen as starts of expressions. -/
def Piece.Opening : Piece → List Lexeme → Prop
  | .assignment _, ts | .expression _, ts => Opens TokenKind.startsAssignment ts
  | .primary _, ts | .head _, ts | .callee _, ts | .links _, ts | .updated _, ts =>
    Opens TokenKind.startsHead ts
  | .operand _, ts | .chain _ _, ts | .conditional _, ts => Opens TokenKind.startsOperand ts
  | _, _ => True

theorem Written.opening {n : Nat} {p : Piece} {ts rest : List Lexeme} (h : Written n p ts rest) :
    p.Opening ts := by
  induction h with
  | yield k | yieldValue k | yieldAll k =>
    exact Opens.of_kind (by rw [k]; rfl) (by simp [k]) (by simp [k]) _
  | unassigned _ ih => exact Opens.mono ih TokenKind.startsAssignment_of_startsOperand
  | assigned _ _ _ _ ih =>
    exact Opens.append (Opens.mono ih TokenKind.startsAssignment_of_startsOperand) _
  | single _ ih => exact ih
  | sequence _ _ ih => exact Opens.append ih _
  | number k | leaf k | array k | object k =>
    exact Lexeme.opens_of_primaryStart (by simp [k]) (by simp [k]) (by simp [k]) (by simp [k]) _
  | importMeta k dot =>
    have k := Lexeme.primaryStart_eq_importWord k
    exact ⟨_, _, rfl, by rw [k]; rfl, fun _ => ⟨_, rfl, dot⟩, by simp [k]⟩
  | parenthesized k _ _ ih =>
    have k := Lexeme.primaryStart_eq_parenthesized k
    obtain ⟨t, us, rfl, first, _⟩ := ih
    refine ⟨_, _, rfl, by rw [k]; rfl, by simp [k], fun _ => ⟨t, rfl, ?_⟩⟩
    intro close
    rw [close] at first
    exact absurd first (by decide)
  | headPrimary _ ih | calleeHead _ ih | linksHead _ ih | updatedLinks _ ih => exact ih
  | newTarget k | construct k | constructBare k =>
    exact Opens.of_kind (by rw [k]; rfl) (by simp [k]) (by simp [k]) _
  | calleeAccess _ _ ih | linksLink _ _ ih => exact Opens.append ih _
  | updateBehind _ _ _ ih => exact Opens.append ih _
  | operandUpdated _ ih => exact Opens.mono ih TokenKind.startsOperand_of_startsHead
  | updateAhead k | unary k | await k => exact Opens.of_operandStart (by simp [k]) _
  | chainOperand _ ih | unconditional _ ih => exact ih
  | operationLeft _ _ _ _ _ _ _ ih | operationRight _ _ _ _ _ _ _ ih => exact Opens.append ih _
  | conditional _ _ _ _ _ ih => exact Opens.append ih _
  | _ => trivial

end EcmaFront
