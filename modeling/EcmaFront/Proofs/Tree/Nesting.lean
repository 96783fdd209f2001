import EcmaFront.Proofs.Tree.Ahead
import EcmaFront.Proofs.Tree.Completeness.Program

/-!
# The limit of nesting

A reader that may enter fewer levels does what the one with more of them does, until it refuses to
nest deeper (`Reader.UpToDepth`). Each production keeps this, so it holds at every limit
(`Nested.upToDepth_within`). A tree is refused exactly if it nests deeper than the limit
(`Program.ofTokens_limit`); links and operators that group to the left add nothing to its nesting
(`Expr.Chained.nesting_le`).
-/

namespace EcmaFront

open Reader

namespace Reader

variable {α β σ : Type}

/-- At each cursor the first reader does what the second one does, or finds the nesting too deep. -/
def UpToDepth (r r' : Reader α) : Prop :=
  ∀ c, r c = r' c ∨ ∃ span c', r c = .error (.nestingTooDeep span) c'

namespace UpToDepth

theorem refl (r : Reader α) : UpToDepth r r := fun _ => .inl rfl

theorem tooDeep (r : Reader α) : UpToDepth Reader.tooDeep r := fun _ => .inr ⟨_, _, rfl⟩

theorem bind {x x' : Reader α} {f f' : α → Reader β} (first : UpToDepth x x')
    (more : ∀ a, UpToDepth (f a) (f' a)) : UpToDepth (x >>= f) (x' >>= f') := by
  intro c
  obtain same | ⟨span, c', deep⟩ := first c
  · simp only [Bind.bind, EStateM.bind, same]
    cases x' c with
    | ok a c' => exact more a c'
    | error => exact .inl rfl
  · refine .inr ⟨span, c', ?_⟩
    simp only [Bind.bind, EStateM.bind, deep]

/-- What comes before a nested form is the same. -/
theorem after (x : Reader α) {f f' : α → Reader β} (more : ∀ a, UpToDepth (f a) (f' a)) :
    UpToDepth (x >>= f) (x >>= f') := bind (refl x) more

/-- What comes behind it is the same. -/
theorem andThen {x x' : Reader α} (first : UpToDepth x x') (f : α → Reader β) :
    UpToDepth (x >>= f) (x' >>= f) := bind first fun _ => refl _

theorem ite {p : Prop} [Decidable p] {x x' y y' : Reader α} (pos : UpToDepth x x')
    (neg : UpToDepth y y') : UpToDepth (if p then x else y) (if p then x' else y') := by
  split
  · exact pos
  · exact neg

theorem loop {step step' : σ → Reader (Progress σ β)}
    (h : ∀ state, UpToDepth (step state) (step' state)) (state : σ) :
    UpToDepth (loop step state) (loop step' state) := by
  intro c
  suffices all : ∀ n state, UpToDepth (repeatUpTo step n state) (repeatUpTo step' n state) from
    all _ state c
  intro n
  induction n with
  | zero => exact fun _ => refl _
  | succ n ih =>
    intro state
    refine bind (h state) fun progress => ?_
    cases progress with
    | again state => exact ih state
    | done => exact refl _

end UpToDepth

end Reader

open Reader.UpToDepth

/-- The readers of all nested forms are the same up to the depth that they may enter. -/
structure Nested.UpToDepth (inner inner' : Nested) : Prop where
  assignment : inner.assignment.UpToDepth inner'.assignment
  operand : inner.operand.UpToDepth inner'.operand
  construct : inner.construct.UpToDepth inner'.construct
  rightOperand : inner.rightOperand.UpToDepth inner'.rightOperand
  block : inner.block.UpToDepth inner'.block

section

variable {inner inner' : Nested} (h : inner.UpToDepth inner')

include h

namespace Expr

/-! ## Expressions -/

theorem upToDepth_read : (read inner).UpToDepth (read inner') := by
  refine .bind h.assignment fun first => .after _ fun _ => .ite (.andThen (.loop ?_ _) _) (.refl _)
  refine fun before => .after _ fun comma? => ?_
  cases comma? with
  | none => exact .refl _
  | some => exact .andThen h.assignment _

theorem upToDepth_readArgument : (readArgument inner).UpToDepth (readArgument inner') := by
  refine .after _ fun dots? => ?_
  cases dots? with
  | none => exact .andThen h.assignment _
  | some => exact .andThen h.assignment _

theorem upToDepth_readArguments : (readArguments inner).UpToDepth (readArguments inner') := by
  refine .after _ fun _ => .andThen (.loop (fun before => ?_) _) _
  exact .after _ fun _ => .ite (.refl _) (.andThen (upToDepth_readArgument h) _)

/-! ## Arrays and objects -/

theorem upToDepth_arrayStep (before : List ArrayElement) :
    (arrayStep inner before).UpToDepth (arrayStep inner' before) := by
  refine .after _ fun t? => ?_
  cases t? with
  | none => exact .refl _
  | some t =>
    refine .ite (.refl _) (.ite (.refl _) ?_)
    exact .andThen (upToDepth_readArgument h) _

theorem upToDepth_readArray : (readArray inner).UpToDepth (readArray inner') := by
  refine .after _ fun _ => .after _ fun _ => .andThen (.loop ?_ _) _
  exact upToDepth_arrayStep h

theorem upToDepth_readPropertyKey (t : Lexeme) :
    (readPropertyKey inner t).UpToDepth (readPropertyKey inner' t) := by
  unfold readPropertyKey
  cases t.kind.keyStart with
  | computed => exact .after _ fun _ => .andThen h.assignment _
  | _ => exact .refl _

theorem upToDepth_readPropertyValue (key : PropertyKey) (start : Nat) :
    (readPropertyValue inner key start).UpToDepth (readPropertyValue inner' key start) := by
  refine .after _ fun _ => .ite (.refl _) ?_
  exact .after _ fun _ => .andThen h.assignment _

theorem upToDepth_readMember : (readMember inner).UpToDepth (readMember inner') := by
  refine .after _ fun dots? => ?_
  cases dots? with
  | some => exact .andThen h.assignment _
  | none =>
    refine .after _ fun t? => ?_
    cases t? with
    | none => exact .refl _
    | some t =>
      refine .after _ fun _ => .ite (.refl _) ?_
      exact .bind (upToDepth_readPropertyKey h t) fun key => upToDepth_readPropertyValue h key _

theorem upToDepth_readObject : (readObject inner).UpToDepth (readObject inner') := by
  refine .after _ fun _ => .after _ fun _ => .andThen (.loop (fun before => ?_) _) _
  exact .after _ fun _ => .ite (.refl _) (.andThen (upToDepth_readMember h) _)

/-! ## Heads and links -/

theorem upToDepth_readPrimary : (readPrimary inner).UpToDepth (readPrimary inner') := by
  refine .after _ fun t? => ?_
  cases t? with
  | none => exact .refl _
  | some t =>
    dsimp only
    cases t.primaryStart with
    | parenthesized => exact .after _ fun _ => .after _ fun _ => .andThen (upToDepth_read h) _
    | array => exact upToDepth_readArray h
    | object => exact upToDepth_readObject h
    | _ => exact .refl _

theorem upToDepth_finishElement (e : Expr) (optional : Bool) :
    (finishElement inner e optional).UpToDepth (finishElement inner' e optional) :=
  .after _ fun _ => .andThen (upToDepth_read h) _

theorem upToDepth_finishCall (e : Expr) (optional : Bool) :
    (finishCall inner e optional).UpToDepth (finishCall inner' e optional) :=
  .andThen (upToDepth_readArguments h) _

theorem upToDepth_linkStep (e : Expr) : (linkStep inner e).UpToDepth (linkStep inner' e) := by
  refine .after _ fun link => ?_
  cases link with
  | bracket => exact .andThen (upToDepth_finishElement h e false) _
  | paren => exact .andThen (upToDepth_finishCall h e false) _
  | optionalDot =>
    refine .after _ fun _ => .andThen (.after _ fun next => ?_) _
    cases next with
    | paren => exact upToDepth_finishCall h e true
    | bracket => exact upToDepth_finishElement h e true
    | _ => exact .refl _
  | dot | other => exact .refl _

theorem upToDepth_calleeStep (e : Expr) :
    (calleeStep inner e).UpToDepth (calleeStep inner' e) := by
  refine .after _ fun link => ?_
  cases link with
  | bracket => exact .andThen (upToDepth_finishElement h e false) _
  | _ => exact .refl _

theorem upToDepth_readHead : (readHead inner).UpToDepth (readHead inner') :=
  .after _ fun _ => .ite h.construct (upToDepth_readPrimary h)

theorem upToDepth_readConstruct : (readConstruct inner).UpToDepth (readConstruct inner') := by
  refine .after _ fun _ => .after _ fun _ => .after _ fun dot? => ?_
  cases dot? with
  | some => exact .refl _
  | none =>
    refine .bind (upToDepth_readHead h) fun head => ?_
    refine .bind (.loop (upToDepth_calleeStep h) head) fun callee => ?_
    exact .after _ fun _ => .ite (.andThen (upToDepth_readArguments h) _) (.refl _)

theorem upToDepth_readLinks : (readLinks inner).UpToDepth (readLinks inner') :=
  .bind (upToDepth_readHead h) (.loop (upToDepth_linkStep h))

/-! ## Operators -/

theorem upToDepth_readOperand : (readOperand inner).UpToDepth (readOperand inner') := by
  refine .after _ fun t? => ?_
  cases t? with
  | none => exact .refl _
  | some t =>
    dsimp only
    cases t.kind.operandStart with
    | update | unary | await => exact .after _ fun _ => .andThen h.operand _
    | plain => exact .andThen (upToDepth_readLinks h) _

theorem upToDepth_chainStep {operandFrom operandFrom' : Precedence → Reader Expr}
    (operand : ∀ p, (operandFrom p).UpToDepth (operandFrom' p)) (floor : Precedence) (left : Expr) :
    (chainStep inner operandFrom floor left).UpToDepth
      (chainStep inner' operandFrom' floor left) := by
  refine .after _ fun op? => ?_
  cases op? with
  | none => exact .refl _
  | some op =>
    exact .after _ fun _ => .ite (.andThen h.rightOperand _) (.andThen (operand _) _)

theorem upToDepth_readChainWithin (height : Nat) (floor : Precedence) :
    (readChainWithin inner height floor).UpToDepth (readChainWithin inner' height floor) := by
  induction height generalizing floor with
  | zero => exact upToDepth_readOperand h
  | succ height ih =>
    exact .bind (upToDepth_readOperand h) (.loop (upToDepth_chainStep h ih floor))

theorem upToDepth_readChain (floor : Precedence) :
    (readChain inner floor).UpToDepth (readChain inner' floor) := upToDepth_readChainWithin h _ _

/-! ## Assignments -/

theorem upToDepth_readConditional :
    (readConditional inner).UpToDepth (readConditional inner') := by
  refine .bind (upToDepth_readChain h _) fun condition => .after _ fun question? => ?_
  cases question? with
  | none => exact .refl _
  | some =>
    refine .bind h.assignment fun whenTrue => .after _ fun _ => ?_
    exact .andThen h.assignment _

theorem upToDepth_readYield : (readYield inner).UpToDepth (readYield inner') := by
  refine .after _ fun _ => .after _ fun _ => .after _ fun star? => .after _ fun kind? => ?_
  cases kind? with
  | none => exact .refl _
  | some kind => exact .ite (.andThen h.assignment _) (.refl _)

theorem upToDepth_finishAssignment (target : Expr) :
    (finishAssignment inner target).UpToDepth (finishAssignment inner' target) := by
  refine .after _ fun t? => ?_
  cases t? with
  | none => exact .refl _
  | some t =>
    refine .ite (.refl _) ?_
    cases AssignmentOperator.ofKind? t.kind with
    | none => exact .refl _
    | some op => exact .ite (.after _ fun _ => .andThen h.assignment _) (.refl _)

theorem upToDepth_readAssignment : (readAssignment inner).UpToDepth (readAssignment inner') := by
  refine .after _ fun _ => .ite (upToDepth_readYield h) (.after _ fun _ => .ite (.refl _) ?_)
  exact .bind (upToDepth_readConditional h) (upToDepth_finishAssignment h)

end Expr

/-! ## Statements -/

namespace Statement

theorem upToDepth_readFrom (t : Lexeme) : (readFrom inner t).UpToDepth (readFrom inner' t) := by
  have expression : (readExpression inner).UpToDepth (readExpression inner') :=
    .andThen (Expr.upToDepth_read h) _
  unfold readFrom
  cases t.kind.statementStart with
  | declaration kind =>
    refine .after _ fun _ => .after _ fun _ => .after _ fun _ => .after _ fun _ => ?_
    exact .andThen h.assignment _
  | block => exact h.block
  | importWord => exact .after _ fun _ => .ite expression (.refl _)
  | expression => exact expression
  | empty | debugger | unsupported => exact .refl _

theorem upToDepth_readBlock : (readBlock inner).UpToDepth (readBlock inner') := by
  refine .after _ fun _ => .after _ fun _ => .andThen (.loop (fun before => ?_) _) _
  refine .after _ fun t? => ?_
  cases t? with
  | none => exact .refl _
  | some t => exact .ite (.refl _) (.andThen (upToDepth_readFrom h t) _)

end Statement

theorem Program.upToDepth_read : (read inner).UpToDepth (read inner') := by
  refine .andThen (.loop (fun before => .andThen (.after _ fun t? => ?_) _) _) _
  cases t? with
  | none => exact .refl _
  | some t => exact .andThen (Statement.upToDepth_readFrom h t) _

theorem Nested.UpToDepth.outside : inner.outside.UpToDepth inner'.outside where
  assignment := Expr.upToDepth_readAssignment h
  operand := Expr.upToDepth_readOperand h
  construct := Expr.upToDepth_readConstruct h
  rightOperand := Expr.upToDepth_readChain h _
  block := Statement.upToDepth_readBlock h

end

theorem Nested.upToDepth_within {n m : Nat} (le : n ≤ m) :
    (Nested.within n).UpToDepth (Nested.within m) := by
  induction n generalizing m with
  | zero => exact ⟨.tooDeep _, .tooDeep _, .tooDeep _, .tooDeep _, .tooDeep _⟩
  | succ n ih =>
    match m, le with
    | m + 1, le => exact (ih (Nat.le_of_succ_le_succ le)).outside

/-! ## Chains -/

/-- Links and operators that group to the left, any number of them, make `e` into the other
expression; the other operands nest at most `n` levels deep. -/
inductive Expr.Chained (n : Nat) (e : Expr) : Expr → Prop
  | refl : Chained n e e
  | operation {op : InfixOperator} {left right : Expr} {span : Span} :
    op.precedence.groupsRight = false → Chained n e left → right.nesting ≤ n →
    Chained n e (.operation op left right span)
  | property {object : Expr} {name : Identifier} {optional : Bool} {span : Span} :
    Chained n e object → Chained n e (.property object name optional span)
  | element {object index : Expr} {optional : Bool} {span : Span} :
    Chained n e object → index.nesting + 1 ≤ n → Chained n e (.element object index optional span)
  | call {callee : Expr} {list : List Argument} {optional : Bool} {span : Span} :
    Chained n e callee → (∀ a ∈ list, a.nesting ≤ n) →
    Chained n e (.call callee list optional span)

/-- A chain of any length nests no deeper than its first operand and the others. -/
theorem Expr.Chained.nesting_le {n : Nat} {e e' : Expr} (h : Chained n e e') :
    e'.nesting ≤ max e.nesting n := by
  induction h with
  | refl => exact Nat.le_max_left ..
  | operation left _ right ih =>
    rw [Expr.nesting, if_neg (by simp [left])]
    exact Nat.max_le.2 ⟨ih, Nat.le_trans right (Nat.le_max_right ..)⟩
  | property _ ih => exact ih
  | element _ index ih => exact Nat.max_le.2 ⟨ih, Nat.le_trans index (Nat.le_max_right ..)⟩
  | call _ list ih =>
    have list := nestingArguments_le.2 list
    exact Nat.max_le.2 ⟨ih, Nat.le_trans list (Nat.le_max_right ..)⟩

/-! ## Limits -/

namespace Program

variable {limit limit' : Nat}

theorem ofTokens_upToDepth (le : limit ≤ limit') (tokens : TokenSequence) :
    ofTokens limit tokens = ofTokens limit' tokens ∨
      ∃ span, ofTokens limit tokens = .error (.nestingTooDeep span) := by
  unfold ofTokens
  obtain same | ⟨span, c', deep⟩ :=
    upToDepth_read (Nested.upToDepth_within le) (Cursor.start tokens)
  · exact .inl (by rw [same])
  · exact .inr ⟨span, by rw [deep]⟩

/-- A program that is read nests no deeper than the limit. -/
theorem nesting_le_of_ofTokens {tokens : TokenSequence} {p : Program}
    (read : ofTokens limit tokens = .ok p) : p.nesting ≤ limit :=
  nestingStatements_le.2 (ofTokens_eq_ok.1 read).1.nestsWithin

/-- A lower limit only makes results into refusals to nest deeper: whatever else is answered, a
higher limit answers as well. A program that is read at the higher limit is read at the lower one if
it nests no deeper, and refused otherwise. Chains do not nest, however long they are. -/
theorem ofTokens_limit (le : limit ≤ limit') (tokens : TokenSequence) :
    ((∀ span, ofTokens limit tokens ≠ .error (.nestingTooDeep span)) →
      ofTokens limit' tokens = ofTokens limit tokens) ∧
    (∀ p, ofTokens limit' tokens = .ok p →
      (p.nesting ≤ limit → ofTokens limit tokens = .ok p) ∧
        (limit < p.nesting → ∃ span, ofTokens limit tokens = .error (.nestingTooDeep span))) ∧
    ∀ n e e', Expr.Chained n e e' → e'.nesting ≤ max e.nesting n := by
  refine ⟨fun other => ?_, fun p read => ⟨fun within => ?_, fun deeper => ?_⟩, ?_⟩
  · obtain same | ⟨span, deep⟩ := ofTokens_upToDepth le tokens
    · exact same.symm
    · exact absurd deep (other span)
  · obtain ⟨written, span⟩ := ofTokens_eq_ok.1 read
    exact ofTokens_eq_ok.2 ⟨written.transfer (nestingStatements_le.1 within) trivial, span⟩
  · obtain same | deep := ofTokens_upToDepth le tokens
    · have within := nesting_le_of_ofTokens (same.trans read)
      exact absurd deeper (Nat.not_lt.2 within)
    · exact deep
  · exact fun n e e' chained => chained.nesting_le

/-- In `[a.b+c];` the array is one level deep and the sum in it another one. -/
theorem ofTokens_limit_array :
    ∃ tokens p e e', ofTokens 2 tokens = .ok p ∧ ofTokens maxNesting tokens = .ok p ∧
      (∃ span, ofTokens 1 tokens = .error (.nestingTooDeep span)) ∧
      Expr.Chained 0 e e' ∧ e'.nesting ≤ max e.nesting 0 := by
  let tokens : TokenSequence := .ofList ['[', 'a', '.', 'b', '+', 'c', ']', ';']
    [⟨.punctuator .openBracket, ⟨0, 1⟩⟩, ⟨.identifier, ⟨1, 1⟩⟩, ⟨.punctuator .dot, ⟨2, 1⟩⟩,
      ⟨.identifier, ⟨3, 1⟩⟩, ⟨.punctuator .plus, ⟨4, 1⟩⟩, ⟨.identifier, ⟨5, 1⟩⟩,
      ⟨.punctuator .closeBracket, ⟨6, 1⟩⟩, ⟨.punctuator .semicolon, ⟨7, 1⟩⟩]
  let a : Expr := .leaf (.identifier ['a']) ⟨1, 1⟩
  let c : Expr := .leaf (.identifier ['c']) ⟨5, 1⟩
  let sum : Expr := .operation (.binary .addition) (.property a ⟨['b'], ⟨3, 1⟩⟩ false ⟨1, 3⟩) c
    ⟨1, 5⟩
  let p : Program := ⟨[.expression (.array [.item (.plain sum)] ⟨0, 7⟩) ⟨0, 8⟩], ⟨0, 8⟩⟩
  have read : ofTokens 2 tokens = .ok p := rfl
  have deeper : 1 < p.nesting := by
    simp [p, nesting, nestingStatements, Statement.nesting, Expr.nesting, nestingElements,
      ArrayElement.nesting, Argument.nesting]
  have chained : Expr.Chained 0 a sum := .operation rfl (.property .refl) (Nat.le_refl _)
  obtain ⟨higher, _, chains⟩ := ofTokens_limit (show 2 ≤ maxNesting by decide) tokens
  have lower := (ofTokens_limit (show 1 ≤ 2 by decide) tokens).2.1 p read
  refine ⟨tokens, p, a, sum, read, ?_, lower.2 deeper, chained, chains 0 a sum chained⟩
  exact (higher (by rw [read]; nofun)).trans read

end Program

end EcmaFront
