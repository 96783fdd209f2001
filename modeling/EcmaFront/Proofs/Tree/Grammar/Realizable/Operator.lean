import EcmaFront.Proofs.Tree.Grammar.Realizable.Primary

/-!
# Trees of the grammar are realizable

Links, operators and statements, and from all forms the theorem for the whole grammar
(`Grammatical.realizable`). A level of nesting is entered where the rule of `Written` enters one.
-/

namespace EcmaFront

section

variable {strict : Bool} {n : Nat}

/-! ## Forms with `new` -/

theorem realizable_headPrimary {e : Expr} (h : (Piece.primary e).Realizable strict n) :
    (Piece.head e).Realizable strict n := by
  intro ts rest lays detached _
  obtain ⟨e, rfl, written⟩ := h lays detached trivial
  exact ⟨e, rfl, .headPrimary written⟩

theorem realizable_newTarget :
    (Piece.head (.leaf .newTarget .unset)).Realizable strict (n + 1) := by
  intro ts rest lays detached _
  simp only [Piece.slots, Expr.outline, Leaf.outlines, Outline.slots_node, Outline.slotsOf_cons,
    Outline.slots_keyword, Outline.slots_punctuator, Outline.slots_slot, Outline.slotsOf_nil,
    List.append_nil, List.singleton_append] at lays
  obtain ⟨w, us, rfl, kind, lays⟩ := lays.always rfl rfl
  obtain ⟨d, us, rfl, dot, lays⟩ := lays.punctuator
  obtain ⟨t, us, rfl, word, spelled, lays⟩ := lays.word
  obtain rfl := lays.eq_nil
  have name : t.kind = .identifier :=
    spelled.kind_eq_identifier (word ▸ (isIdentifier_meta strict).2)
  exact ⟨_, rfl, .newTarget kind dot name word⟩

theorem realizable_construct {callee : Expr} {list : List Argument}
    (notBare : callee.isBareNew = false) (h : (Piece.callee callee).Realizable strict n)
    (all : ∀ a ∈ list, (Piece.argument a).Realizable strict n) :
    (Piece.head (.construct callee list .unset)).Realizable strict (n + 1) := by
  intro ts rest lays detached _
  simp only [Piece.slots, Expr.outline, Outline.slots_node, List.cons_append, Outline.slotsOf_cons,
    Outline.slotsOf_append, Outline.slots_keyword, Outline.slots_punctuator, Outline.slotsOf_nil,
    List.append_nil, List.nil_append] at lays
  obtain ⟨w, us, rfl, kind, lays⟩ := lays.always rfl rfl
  obtain ⟨us, vs, rfl, first, lays⟩ := lays.exists_append
  obtain ⟨p, vs, k, rfl, paren, close, inside⟩ := lays.between
  simp only [List.cons_append, List.append_assoc, List.nil_append] at detached
  obtain ⟨callee, rfl, written⟩ := h first detached.2 (follows_of_notBare notBare)
  obtain ⟨list, rfl, written'⟩ :=
    realized_arguments all inside detached.2.right.2 (Ends.of_kind close rfl)
  exact ⟨_, rfl, .construct kind paren close written written'⟩

theorem realizable_constructBare {callee : Expr} (h : (Piece.callee callee).Realizable strict n) :
    (Piece.head (.constructBare callee .unset)).Realizable strict (n + 1) := by
  intro ts rest lays detached stop
  simp only [Piece.slots, Expr.outline, Outline.slots_node, Outline.slotsOf_cons,
    Outline.slots_keyword, Outline.slotsOf_nil, List.append_nil, List.singleton_append] at lays
  obtain ⟨w, us, rfl, kind, lays⟩ := lays.always rfl rfl
  obtain ⟨callee, rfl, written⟩ := h lays detached.2 fun _ => stop rfl
  exact ⟨_, rfl, .constructBare kind written (stop rfl)⟩

theorem realizable_calleeHead {e : Expr} (h : (Piece.head e).Realizable strict n) :
    (Piece.callee e).Realizable strict n := by
  intro ts rest lays detached stop
  obtain ⟨e, rfl, written⟩ := h lays detached stop
  exact ⟨e, rfl, .calleeHead written⟩

/-! ## Links -/

/-- A name behind a dot. -/
theorem realized_access {us rest : List Lexeme} {name : Text} (isName : name.IsName)
    (lays : Lays strict [.fixed (.punctuator .dot), .word name] us) (object : Expr) :
    ∃ span span', Written n (.access object (.property object ⟨name, span⟩ false span')) us rest := by
  obtain ⟨d, us, rfl, dot, lays⟩ := lays.punctuator
  obtain ⟨i, us, rfl, rfl, spelled, lays⟩ := lays.word
  obtain rfl := lays.eq_nil
  exact ⟨_, _, .accessName dot (spelled.isPropertyName isName)⟩

/-- An expression between brackets. -/
theorem realized_element {us rest : List Lexeme} {index : Expr} {optional : Bool}
    (h : (Piece.expression index).Realizable strict n)
    (lays : Lays strict (.fixed (.punctuator .openBracket) :: (index.outline.slots ++
      [.fixed (.punctuator .closeBracket)])) us)
    (detached : Detached (us ++ rest)) (object : Expr) :
    ∃ index' span, index'.bare = index ∧
      Written n (.element object optional (.element object index' optional span)) us rest := by
  obtain ⟨b, us, k, rfl, bracket, close, inside⟩ := lays.between
  rw [List.cons_append, List.append_assoc] at detached
  obtain ⟨index, rfl, written⟩ := h inside detached.2 (Ends.of_kind close rfl)
  exact ⟨index, _, rfl, .element bracket close written⟩

/-- Arguments between parentheses. -/
theorem realized_call {us rest : List Lexeme} {list : List Argument} {optional : Bool}
    (all : ∀ a ∈ list, (Piece.argument a).Realizable strict n)
    (lays : Lays strict (.fixed (.punctuator .openParen) ::
      (Outline.slotsOf (Outline.separated (outlineArguments list)) ++
        [.fixed (.punctuator .closeParen)])) us)
    (detached : Detached (us ++ rest)) (callee : Expr) :
    ∃ list' span, bareArguments list' = list ∧
      Written n (.call callee optional (.call callee list' optional span)) us rest := by
  obtain ⟨p, us, k, rfl, paren, close, inside⟩ := lays.between
  rw [List.cons_append, List.append_assoc] at detached
  obtain ⟨list, rfl, written⟩ :=
    realized_arguments all inside detached.2 (Ends.of_kind close rfl)
  exact ⟨list, _, rfl, .call paren close written⟩

theorem realizable_calleeProperty {object : Expr} {name : Text} (notBare : object.isBareNew = false)
    (h : (Piece.callee object).Realizable strict n) (isName : name.IsName) :
    (Piece.callee (.property object ⟨name, .unset⟩ false .unset)).Realizable strict n := by
  intro ts rest lays detached _
  simp only [Piece.slots, Expr.outline, Outline.slots_node, Outline.slotsOf_cons,
    Outline.slots_punctuator, Identifier.slots_outline, Outline.slotsOf_nil, List.append_nil,
    List.singleton_append] at lays
  obtain ⟨us, vs, rfl, first, link⟩ := lays.exists_append
  rw [List.append_assoc] at detached
  obtain ⟨object, rfl, written⟩ := h first detached (follows_of_notBare notBare)
  obtain ⟨span, span', access⟩ := realized_access isName link object
  exact ⟨_, rfl, .calleeAccess written access⟩

theorem realizable_calleeElement {object index : Expr} (notBare : object.isBareNew = false)
    (h : (Piece.callee object).Realizable strict n)
    (inside : (Piece.expression index).Realizable strict n) :
    (Piece.callee (.element object index false .unset)).Realizable strict n := by
  intro ts rest lays detached _
  simp only [Piece.slots, Expr.outline, Outline.slots_node, Outline.slotsOf_cons,
    Outline.slots_punctuator, Outline.slotsOf_nil, List.append_nil, List.singleton_append] at lays
  obtain ⟨us, vs, rfl, first, link⟩ := lays.exists_append
  rw [List.append_assoc] at detached
  obtain ⟨object, rfl, written⟩ := h first detached (follows_of_notBare notBare)
  obtain ⟨index, span, rfl, access⟩ := realized_element inside link detached.right object
  exact ⟨_, rfl, .calleeAccess written (.accessElement access)⟩

theorem realizable_linksHead {e : Expr} (h : (Piece.head e).Realizable strict n) :
    (Piece.links e).Realizable strict n := by
  intro ts rest lays detached stop
  obtain ⟨e, rfl, written⟩ := h lays detached stop
  exact ⟨e, rfl, .linksHead written⟩

theorem follows_of_optional {e : Expr} {optional : Bool} (h : (optional || !e.isBareNew) = true)
    {t : Lexeme} {rest : List Lexeme} (kind : optional = true → t.kind = .punctuator .optionalDot) :
    e.isBareNew = true → Stops TokenKind.continuesCallee (t :: rest) := by
  intro bare
  rw [bare, Bool.not_true, Bool.or_false] at h
  exact stops_of_kind (kind h) rfl

theorem realizable_linksProperty {object : Expr} {name : Text} {optional : Bool}
    (free : (optional || !object.isBareNew) = true) (h : (Piece.links object).Realizable strict n)
    (isName : name.IsName) :
    (Piece.links (.property object ⟨name, .unset⟩ optional .unset)).Realizable strict n := by
  intro ts rest lays detached _
  cases optional with
  | false =>
    simp only [Piece.slots, Expr.outline, Outline.slots_node, Outline.slotsOf_cons,
      Outline.slots_punctuator, Identifier.slots_outline, Outline.slotsOf_nil, List.append_nil,
      List.singleton_append] at lays
    obtain ⟨us, vs, rfl, first, link⟩ := lays.exists_append
    rw [List.append_assoc] at detached
    obtain ⟨object, rfl, written⟩ := h first detached (follows_of_notBare (by simpa using free))
    obtain ⟨span, span', access⟩ := realized_access isName link object
    exact ⟨_, rfl, .linksLink written (.linkAccess access)⟩
  | true =>
    simp only [Piece.slots, Expr.outline, Outline.slots_node, Outline.slotsOf_cons,
      Outline.slots_punctuator, Identifier.slots_outline, Outline.slotsOf_nil, List.append_nil,
      List.singleton_append] at lays
    obtain ⟨us, vs, rfl, first, lays⟩ := lays.exists_append
    obtain ⟨q, vs, rfl, mark, lays⟩ := lays.punctuator
    obtain ⟨i, vs, rfl, rfl, spelled, lays⟩ := lays.word
    obtain rfl := lays.eq_nil
    rw [List.append_assoc] at detached
    obtain ⟨object, rfl, written⟩ := h first detached (follows_of_optional free fun _ => mark)
    have name := spelled.isPropertyName isName
    exact ⟨_, rfl, .linksLink written (.optionalName mark name)⟩

theorem realizable_linksElement {object index : Expr} {optional : Bool}
    (free : (optional || !object.isBareNew) = true) (h : (Piece.links object).Realizable strict n)
    (inside : (Piece.expression index).Realizable strict n) :
    (Piece.links (.element object index optional .unset)).Realizable strict n := by
  intro ts rest lays detached _
  cases optional with
  | false =>
    simp only [Piece.slots, Expr.outline, Outline.slots_node, Outline.slotsOf_cons,
      Outline.slots_punctuator, Outline.slotsOf_nil, List.append_nil,
      List.singleton_append] at lays
    obtain ⟨us, vs, rfl, first, link⟩ := lays.exists_append
    rw [List.append_assoc] at detached
    obtain ⟨object, rfl, written⟩ := h first detached (follows_of_notBare (by simpa using free))
    obtain ⟨index, span, rfl, link⟩ := realized_element inside link detached.right object
    exact ⟨_, rfl, .linksLink written (.linkAccess (.accessElement link))⟩
  | true =>
    simp only [Piece.slots, Expr.outline, Outline.slots_node, Outline.slotsOf_cons,
      Outline.slots_punctuator, Outline.slotsOf_nil, List.append_nil,
      List.singleton_append] at lays
    obtain ⟨us, vs, rfl, first, lays⟩ := lays.exists_append
    obtain ⟨q, vs, rfl, mark, link⟩ := lays.punctuator
    rw [List.append_assoc] at detached
    obtain ⟨object, rfl, written⟩ := h first detached (follows_of_optional free fun _ => mark)
    obtain ⟨index, span, rfl, link⟩ := realized_element inside link detached.right.2 object
    exact ⟨_, rfl, .linksLink written (.optionalElement mark link)⟩

theorem realizable_linksCall {callee : Expr} {list : List Argument} {optional : Bool}
    (free : (optional || !callee.isBareNew) = true) (h : (Piece.links callee).Realizable strict n)
    (all : ∀ a ∈ list, (Piece.argument a).Realizable strict n) :
    (Piece.links (.call callee list optional .unset)).Realizable strict n := by
  intro ts rest lays detached _
  cases optional with
  | false =>
    simp only [Piece.slots, Expr.outline, Outline.slots_node, List.cons_append,
      Outline.slotsOf_cons, Outline.slotsOf_append, Outline.slots_punctuator, Outline.slotsOf_nil,
      List.append_nil, List.nil_append] at lays
    obtain ⟨us, vs, rfl, first, link⟩ := lays.exists_append
    rw [List.append_assoc] at detached
    obtain ⟨callee, rfl, written⟩ := h first detached (follows_of_notBare (by simpa using free))
    obtain ⟨list, span, rfl, link⟩ := realized_call all link detached.right callee
    exact ⟨_, rfl, .linksLink written (.linkCall link)⟩
  | true =>
    simp only [Piece.slots, Expr.outline, Outline.slots_node, List.cons_append,
      Outline.slotsOf_cons, Outline.slotsOf_append, Outline.slots_punctuator, Outline.slotsOf_nil,
      List.append_nil, List.nil_append] at lays
    obtain ⟨us, vs, rfl, first, lays⟩ := lays.exists_append
    obtain ⟨q, vs, rfl, mark, link⟩ := lays.punctuator
    rw [List.append_assoc] at detached
    obtain ⟨callee, rfl, written⟩ := h first detached (follows_of_optional free fun _ => mark)
    obtain ⟨list, span, rfl, link⟩ := realized_call all link detached.right.2 callee
    exact ⟨_, rfl, .linksLink written (.optionalCall mark link)⟩

/-! ## Operators -/

theorem realizable_updatedLinks {e : Expr} (h : (Piece.links e).Realizable strict n) :
    (Piece.updated e).Realizable strict n := by
  intro ts rest lays detached stop
  obtain ⟨e, rfl, written⟩ := h lays detached fun _ => stop
  exact ⟨e, rfl, .updatedLinks written⟩

theorem realizable_updateBehind {op : UpdateOperator} {e : Expr} (assignable : e.isAssignable = true)
    (h : (Piece.links e).Realizable strict n) :
    (Piece.updated (.update op false e .unset)).Realizable strict n := by
  intro ts rest lays detached stop
  simp only [Piece.slots, Expr.outline, Outline.slots_node, Outline.slotsOf_cons,
    Outline.slots_slot, Outline.slotsOf_nil, List.append_nil] at lays
  obtain ⟨us, vs, rfl, first, lays⟩ := lays.exists_append
  obtain ⟨o, vs, rfl, kind, lays⟩ := lays.always op.text?_kind (by cases op <;> rfl)
  obtain rfl := lays.eq_nil
  rw [List.append_assoc] at detached
  obtain ⟨e, rfl, written⟩ :=
    h first detached fun _ => stops_of_kind kind (TokenKind.continuesCallee_update op)
  exact ⟨_, rfl, .updateBehind kind.symm (by simpa using assignable) written⟩

theorem realizable_operandUpdated {e : Expr} (h : (Piece.updated e).Realizable strict n) :
    (Piece.operand e).Realizable strict n := by
  intro ts rest lays detached stop
  obtain ⟨e, rfl, written⟩ := h lays detached stop
  exact ⟨e, rfl, .operandUpdated written⟩

theorem realizable_updateAhead {op : UpdateOperator} {e : Expr} (assignable : e.isAssignable = true)
    (h : (Piece.operand e).Realizable strict n) :
    (Piece.operand (.update op true e .unset)).Realizable strict (n + 1) := by
  intro ts rest lays detached stop
  simp only [Piece.slots, Expr.outline, Outline.slots_node, Outline.slotsOf_cons,
    Outline.slots_slot, Outline.slotsOf_nil, List.append_nil, List.singleton_append] at lays
  obtain ⟨o, us, rfl, kind, lays⟩ := lays.always op.text?_kind (by cases op <;> rfl)
  obtain ⟨e, rfl, written⟩ := h lays detached.2 stop
  have start : o.kind.operandStart = .update op := kind ▸ TokenKind.operandStart_update op
  exact ⟨_, rfl, .updateAhead start (by simpa using assignable) written⟩

theorem realizable_unary {op : UnaryOperator} {e : Expr}
    (h : (Piece.operand e).Realizable strict n) :
    (Piece.operand (.unary op e .unset)).Realizable strict (n + 1) := by
  intro ts rest lays detached stop
  simp only [Piece.slots, Expr.outline, Outline.slots_node, Outline.slotsOf_cons,
    Outline.slots_slot, Outline.slotsOf_nil, List.append_nil, List.singleton_append] at lays
  obtain ⟨o, us, rfl, kind, lays⟩ := lays.always op.text?_kind (by cases op <;> rfl)
  obtain ⟨e, rfl, written⟩ := h lays detached.2 stop
  have start : o.kind.operandStart = .unary op := kind ▸ TokenKind.operandStart_unary op
  exact ⟨_, rfl, .unary start written⟩

theorem realizable_await {e : Expr} (h : (Piece.operand e).Realizable strict n) :
    (Piece.operand (.await e .unset)).Realizable strict (n + 1) := by
  intro ts rest lays detached stop
  simp only [Piece.slots, Expr.outline, Outline.slots_node, Outline.slotsOf_cons,
    Outline.slots_keyword, Outline.slotsOf_nil, List.append_nil, List.singleton_append] at lays
  obtain ⟨o, us, rfl, kind, lays⟩ := lays.always rfl rfl
  obtain ⟨e, rfl, written⟩ := h lays detached.2 stop
  exact ⟨_, rfl, .await (by rw [kind]; rfl) written⟩

theorem realizable_chainOperand {least : Nat} {e : Expr}
    (h : (Piece.operand e).Realizable strict n) : (Piece.chain least e).Realizable strict n := by
  intro ts rest lays detached stop
  obtain ⟨e, rfl, written⟩ := h lays detached stop
  exact ⟨e, rfl, .chainOperand written⟩

/-- The operator between its operands, which may enter different numbers of levels. -/
theorem realized_operands {m leastLeft leastRight : Nat} {op : InfixOperator} {left right : Expr}
    {ts rest : List Lexeme} (first : (Piece.chain leastLeft left).Realizable strict n)
    (last : (Piece.chain leastRight right).Realizable strict m)
    (lays : Lays strict (Expr.operation op left right .unset).outline.slots ts)
    (detached : Detached (ts ++ rest)) (stop : Stops TokenKind.continuesCallee rest) :
    ∃ left' right' us o vs, left'.bare = left ∧ right'.bare = right ∧ ts = us ++ o :: vs ∧
      op.kind = o.kind ∧ Written n (.chain leastLeft left') us (o :: (vs ++ rest)) ∧
      Written m (.chain leastRight right') vs rest := by
  simp only [Expr.outline, Outline.slots_node, Outline.slotsOf_cons, Outline.slots_slot,
    Outline.slotsOf_nil, List.append_nil, List.singleton_append] at lays
  obtain ⟨us, vs, rfl, before, lays⟩ := lays.exists_append
  obtain ⟨o, vs, rfl, kind, behind⟩ := lays.always op.text?_kind (TokenKind.isStrictOnly_infix op)
  rw [List.append_assoc] at detached
  obtain ⟨left, rfl, written⟩ :=
    first before detached (stops_of_kind kind (TokenKind.continuesCallee_infix op))
  obtain ⟨right, rfl, written'⟩ := last behind detached.right.2 stop
  exact ⟨left, right, us, o, vs, rfl, rfl, rfl, kind.symm, written, written'⟩

section

variable {least : Nat} {op : InfixOperator} {left right : Expr} (le : least ≤ op.precedence.rank)
  (mixLeft : Expr.mixesWith op left = false) (mixRight : Expr.mixesWith op right = false)

include le mixLeft mixRight

theorem realizable_operationLeft (grouping : op.precedence.groupsRight = false)
    (first : (Piece.chain op.precedence.leftLeast left).Realizable strict n)
    (last : (Piece.chain op.precedence.rightLeast right).Realizable strict n) :
    (Piece.chain least (.operation op left right .unset)).Realizable strict n := by
  intro ts rest lays detached stop
  rw [Precedence.leftLeast, grouping] at first
  rw [Precedence.rightLeast, grouping] at last
  obtain ⟨left, right, us, o, vs, rfl, rfl, rfl, kind, written, written'⟩ :=
    realized_operands first last lays detached stop
  rw [Expr.mixesWith_bare] at mixLeft mixRight
  exact ⟨_, rfl, .operationLeft kind grouping le mixLeft mixRight written written'⟩

theorem realizable_operationRight (grouping : op.precedence.groupsRight = true)
    (first : (Piece.chain op.precedence.leftLeast left).Realizable strict (n + 1))
    (last : (Piece.chain op.precedence.rightLeast right).Realizable strict n) :
    (Piece.chain least (.operation op left right .unset)).Realizable strict (n + 1) := by
  intro ts rest lays detached stop
  rw [Precedence.leftLeast, grouping] at first
  rw [Precedence.rightLeast, grouping] at last
  obtain ⟨left, right, us, o, vs, rfl, rfl, rfl, kind, written, written'⟩ :=
    realized_operands first last lays detached stop
  rw [Expr.mixesWith_bare] at mixLeft mixRight
  exact ⟨_, rfl, .operationRight kind grouping le mixLeft mixRight written written'⟩

end

theorem realizable_unconditional {e : Expr}
    (h : (Piece.chain (Precedence.conditional.rank + 1) e).Realizable strict n) :
    (Piece.conditional e).Realizable strict n := by
  intro ts rest lays detached follows
  obtain ⟨e, rfl, written⟩ := h lays detached follows.1
  exact ⟨e, rfl, .unconditional written⟩

theorem realizable_conditional {condition whenTrue whenFalse : Expr}
    (first : (Piece.chain (Precedence.conditional.rank + 1) condition).Realizable strict n)
    (second : (Piece.assignment whenTrue).Realizable strict n)
    (third : (Piece.assignment whenFalse).Realizable strict n) :
    (Piece.conditional (.conditional condition whenTrue whenFalse .unset)).Realizable strict n := by
  intro ts rest lays detached follows
  simp only [Piece.slots, Expr.outline, Outline.slots_node, Outline.slotsOf_cons,
    Outline.slots_punctuator, Outline.slotsOf_nil, List.append_nil, List.singleton_append] at lays
  obtain ⟨us, vs, rfl, before, lays⟩ := lays.exists_append
  obtain ⟨q, vs, rfl, question, lays⟩ := lays.punctuator
  obtain ⟨vs, ws, rfl, between, lays⟩ := lays.exists_append
  obtain ⟨k, ws, rfl, colon, behind⟩ := lays.punctuator
  simp only [List.append_assoc, List.cons_append] at detached
  have ends : Ends rest := follows.2.resolve_left (by simp [Expr.isAssignable])
  obtain ⟨condition, rfl, written⟩ := first before detached (stops_of_kind question rfl)
  obtain ⟨whenTrue, rfl, written₁⟩ := second between detached.right.2 (Ends.of_kind colon rfl)
  obtain ⟨whenFalse, rfl, written₂⟩ := third behind detached.right.2.right.2 ends
  exact ⟨_, rfl, .conditional question colon written written₁ written₂⟩

/-! ## Statements -/

theorem realizable_declaration {kind : DeclarationKind} {name : Text} {value : Expr}
    (isName : name.IsIdentifier strict) (h : (Piece.assignment value).Realizable strict n) :
    (Piece.statement (.declaration kind ⟨name, .unset⟩ value .unset)).Realizable strict n := by
  intro ts rest lays detached _
  simp only [Piece.slots, Statement.outline, Outline.slots_node, Outline.slotsOf_cons,
    Outline.slots_slot, Outline.slots_punctuator, Identifier.slots_outline, Outline.slotsOf_nil,
    List.append_nil, List.singleton_append] at lays
  obtain ⟨w, us, rfl, isKind, lays⟩ := lays.always kind.text?_kind (by cases kind <;> rfl)
  obtain ⟨i, us, rfl, rfl, spelled, lays⟩ := lays.word
  obtain ⟨q, us, rfl, assign, lays⟩ := lays.always rfl rfl
  obtain ⟨us, z, rfl, semicolon, inside⟩ := lays.exists_concat
  simp only [List.cons_append, List.append_assoc, List.nil_append] at detached
  obtain ⟨value, rfl, written⟩ := h inside detached.2.2.2 (Ends.of_kind semicolon rfl)
  have identifier := spelled.kind_eq_identifier isName
  exact ⟨_, rfl, .declaration isKind identifier assign semicolon written⟩

theorem realizable_block {list : List Statement}
    (all : ∀ s ∈ list, (Piece.statement s).Realizable strict n) :
    (Piece.statement (.block list .unset)).Realizable strict (n + 1) := by
  intro ts rest lays detached _
  simp only [Piece.slots, Statement.outline, Outline.slots_node, List.cons_append,
    Outline.slotsOf_cons, Outline.slotsOf_append, Outline.slots_punctuator, Outline.slotsOf_nil,
    List.append_nil, List.nil_append] at lays
  obtain ⟨b, us, k, rfl, brace, close, inside⟩ := lays.between
  rw [List.cons_append, List.append_assoc] at detached
  obtain ⟨list, rfl, written⟩ := realized_statements all inside detached.2
  exact ⟨_, rfl, .block brace close written⟩

theorem realizable_empty : (Piece.statement (.empty .unset)).Realizable strict n := by
  intro ts rest lays detached _
  simp only [Piece.slots, Statement.outline, Outline.slots_node, Outline.slotsOf_cons,
    Outline.slots_punctuator, Outline.slotsOf_nil, List.append_nil] at lays
  obtain ⟨z, us, rfl, semicolon, lays⟩ := lays.punctuator
  obtain rfl := lays.eq_nil
  exact ⟨_, rfl, .empty semicolon⟩

theorem realizable_expression {e : Expr} (notBrace : e.startsWithBrace = false)
    (h : (Piece.expression e).Realizable strict n) :
    (Piece.statement (.expression e .unset)).Realizable strict n := by
  intro ts rest lays detached _
  simp only [Piece.slots, Statement.outline, Outline.slots_node, Outline.slotsOf_cons,
    Outline.slots_punctuator, Outline.slotsOf_nil, List.append_nil] at lays
  obtain ⟨us, z, rfl, semicolon, inside⟩ := lays.exists_concat
  rw [List.append_assoc] at detached
  obtain ⟨e, rfl, written⟩ := h inside detached (Ends.of_kind semicolon rfl)
  have braces := written.braces
  obtain ⟨t, us, rfl, _⟩ := written.opening
  have first : t.kind ≠ .punctuator .openBrace := by
    rw [Expr.startsWithBrace_bare] at notBrace
    intro brace
    simp [(braces t rfl).1 brace] at notBrace
  exact ⟨_, rfl, .expression first semicolon written⟩

theorem realizable_debugger : (Piece.statement (.debugger .unset)).Realizable strict n := by
  intro ts rest lays detached _
  simp only [Piece.slots, Statement.outline, Outline.slots_node, Outline.slotsOf_cons,
    Outline.slots_keyword, Outline.slots_punctuator, Outline.slotsOf_nil, List.append_nil,
    List.singleton_append] at lays
  obtain ⟨w, us, rfl, kind, lays⟩ := lays.always rfl rfl
  obtain ⟨z, us, rfl, semicolon, lays⟩ := lays.punctuator
  obtain rfl := lays.eq_nil
  exact ⟨_, rfl, .debugger kind semicolon⟩

end

/-! ## The grammar -/

/-- A piece that enters a level of nesting. -/
theorem realizable_of_enter {strict : Bool} {n k : Nat} {p : Piece} (nests : k + 1 ≤ n)
    (h : ∀ {m}, k ≤ m → p.Realizable strict (m + 1)) : p.Realizable strict n := by
  obtain ⟨m, rfl⟩ := Nat.exists_eq_add_of_lt nests
  exact h (Nat.le_add_right k m)

theorem Grammatical.realizable {strict : Bool} {p : Piece} (h : Grammatical strict p) {n : Nat}
    (nests : p.NestsWithin n) : p.Realizable strict n := by
  induction h generalizing n with
  | yield isStrict => exact realizable_of_enter nests fun _ => realizable_yield isStrict
  | yieldValue isStrict _ ih =>
    exact realizable_of_enter nests fun le => realizable_yieldValue isStrict (ih le)
  | unassigned _ ih => exact realizable_of_enter nests fun le => realizable_unassigned (ih le)
  | assigned assignable _ _ target value =>
    refine realizable_of_enter nests fun le => ?_
    obtain ⟨left, right⟩ := Nat.max_le.1 le
    exact realizable_assigned assignable (target left) (value right)
  | single _ ih => exact realizable_single (ih nests)
  | @sequence es two _ ih =>
    have all : ∀ e ∈ es, e.nesting + 1 ≤ n := by
      intro e mem
      have le := nestingExpressions_le.1 (Nat.le_sub_of_add_le nests) e mem
      have : Expr.nesting (.sequence es .unset) + 1 ≤ n := nests
      omega
    exact realizable_sequence two fun e mem => ih e mem (all e mem)
  | plain _ ih => exact realizable_plain (ih nests)
  | spread _ ih => exact realizable_spread (ih nests)
  | keyName isName => exact realizable_keyName isName
  | keyString isString => exact realizable_keyString isString
  | keyNumber small => exact realizable_keyNumber small
  | keyComputed _ ih => exact realizable_keyComputed (ih nests)
  | property _ _ key value =>
    obtain ⟨left, right⟩ := Nat.max_le.1 nests
    exact realizable_property (key left) (value right)
  | shorthand isName => exact realizable_shorthand isName
  | memberSpread _ ih => exact realizable_memberSpread (ih nests)
  | number small => exact realizable_number small
  | string isString => exact realizable_string isString
  | identifier isName => exact realizable_identifier isName
  | word mem => exact realizable_word mem
  | parenthesized _ ih => exact realizable_parenthesized (ih nests)
  | array holes _ ih =>
    have all := nestingElements_le.1 nests
    exact realizable_array holes fun a mem => ih a mem (all _ mem)
  | object _ ih =>
    have all := nestingMembers_le.1 nests
    exact realizable_object fun m mem => ih m mem (all m mem)
  | headPrimary _ ih => exact realizable_headPrimary (ih nests)
  | newTarget => exact realizable_of_enter nests fun _ => realizable_newTarget
  | construct notBare _ _ callee list =>
    refine realizable_of_enter nests fun le => ?_
    obtain ⟨left, right⟩ := Nat.max_le.1 le
    have all := nestingArguments_le.1 right
    exact realizable_construct notBare (callee left) fun a mem => list a mem (all a mem)
  | constructBare _ ih => exact realizable_of_enter nests fun le => realizable_constructBare (ih le)
  | calleeHead _ ih => exact realizable_calleeHead (ih nests)
  | calleeProperty notBare _ isName ih => exact realizable_calleeProperty notBare (ih nests) isName
  | calleeElement notBare _ _ object index =>
    obtain ⟨left, right⟩ := Nat.max_le.1 nests
    exact realizable_calleeElement notBare (object left) (index right)
  | linksHead _ ih => exact realizable_linksHead (ih nests)
  | linksProperty free _ isName ih => exact realizable_linksProperty free (ih nests) isName
  | linksElement free _ _ object index =>
    obtain ⟨left, right⟩ := Nat.max_le.1 nests
    exact realizable_linksElement free (object left) (index right)
  | linksCall free _ _ callee list =>
    obtain ⟨left, right⟩ := Nat.max_le.1 nests
    have all := nestingArguments_le.1 right
    exact realizable_linksCall free (callee left) fun a mem => list a mem (all a mem)
  | updatedLinks _ ih => exact realizable_updatedLinks (ih nests)
  | updateBehind assignable _ ih => exact realizable_updateBehind assignable (ih nests)
  | operandUpdated _ ih => exact realizable_operandUpdated (ih nests)
  | updateAhead assignable _ ih =>
    exact realizable_of_enter nests fun le => realizable_updateAhead assignable (ih le)
  | unary _ ih => exact realizable_of_enter nests fun le => realizable_unary (ih le)
  | await _ ih => exact realizable_of_enter nests fun le => realizable_await (ih le)
  | chainOperand _ ih => exact realizable_chainOperand (ih nests)
  | @operation _ op left right le mixLeft mixRight _ _ first last =>
    -- Only an operator that groups to the right enters a level, for its right operand.
    obtain ⟨before, behind⟩ := Nat.max_le.1 nests
    cases grouping : op.precedence.groupsRight with
    | false =>
      have behind : right.nesting ≤ n := by simpa [grouping] using behind
      exact realizable_operationLeft le mixLeft mixRight grouping (first before) (last behind)
    | true =>
      have behind : right.nesting + 1 ≤ n := by simpa [grouping] using behind
      obtain ⟨m, rfl⟩ := Nat.exists_eq_add_of_lt behind
      have last := last (Nat.le_add_right right.nesting m)
      exact realizable_operationRight le mixLeft mixRight grouping (first before) last
  | unconditional _ ih => exact realizable_unconditional (ih nests)
  | conditional _ _ _ condition whenTrue whenFalse =>
    obtain ⟨first, others⟩ := Nat.max_le.1 nests
    have second := Nat.le_trans (Nat.succ_le_succ (Nat.le_max_left _ _)) others
    have third := Nat.le_trans (Nat.succ_le_succ (Nat.le_max_right _ _)) others
    exact realizable_conditional (condition first) (whenTrue second) (whenFalse third)
  | declaration isName _ ih => exact realizable_declaration isName (ih nests)
  | block _ ih =>
    refine realizable_of_enter nests fun le => ?_
    have all := nestingStatements_le.1 le
    exact realizable_block fun s mem => ih s mem (all s mem)
  | empty => exact realizable_empty
  | expression notBrace _ ih => exact realizable_expression notBrace (ih nests)
  | debugger => exact realizable_debugger

end EcmaFront
