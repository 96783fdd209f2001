import EcmaFront.Compilation
import EcmaFront.Proofs.Token.Tiling
import EcmaFront.Proofs.Tree.Outline
import EcmaFront.Proofs.Tree.Soundness.Program

/-!
# Tokens fill the outlines of programs

The lexemes that a tree is written with fill its outline (`Written.fills`): each token of a source
fills one slot of its program, and each node has the span of its tokens.

* `parse_prints`: parsing loses, repeats and moves no token.
* `parse_spans`: the spans of nodes are exact and nested.
-/

namespace EcmaFront

/-- Lexemes as they stand in a source. -/
structure Lexed (strict : Bool) (ts : List Lexeme) : Prop where
  spelled : ∀ t ∈ ts, Spelled strict t.kind t.text
  inOrder : InOrder ts

namespace Lexed

variable {strict : Bool} {t : Lexeme} {ts us : List Lexeme}

theorem left (h : Lexed strict (ts ++ us)) : Lexed strict ts where
  spelled u mem := h.spelled u (List.mem_append_left _ mem)
  inOrder := (List.pairwise_append.1 h.inOrder).1

theorem right (h : Lexed strict (ts ++ us)) : Lexed strict us where
  spelled u mem := h.spelled u (List.mem_append_right _ mem)
  inOrder := (List.pairwise_append.1 h.inOrder).2.1

theorem head (h : Lexed strict (t :: ts)) : Spelled strict t.kind t.text :=
  h.spelled t List.mem_cons_self

theorem tail (h : Lexed strict (t :: ts)) : Lexed strict ts where
  spelled u mem := h.spelled u (List.mem_cons_of_mem _ mem)
  inOrder := (List.pairwise_cons.1 h.inOrder).2

theorem comma (h : Lexed strict (t :: ts)) (kind : t.kind = .punctuator .comma) :
    t.text = ",".toList := by
  refine h.head.eq_text ?_
  rw [kind]
  rfl

end Lexed

/-! ## Bounds -/

theorem Span.ofBounds_start_stop (s : Span) : Span.ofBounds s.start s.stop = s := by
  simp [ofBounds, stop]

namespace Bounds

variable {span : Span} {t : Lexeme} {ts us : List Lexeme}

theorem single (t : Lexeme) : Bounds t.span [t] := ⟨t, [], rfl, t.span.ofBounds_start_stop.symm⟩

theorem cons (t : Lexeme) (us : List Lexeme) :
    Bounds (.ofBounds t.span.start (stopAfter t.span.stop us)) (t :: us) := ⟨t, us, rfl, rfl⟩

/-- The span of a bracketed form. -/
theorem brackets (t k : Lexeme) (us : List Lexeme) :
    Bounds (.ofBounds t.span.start k.span.stop) (t :: (us ++ [k])) :=
  ⟨t, us ++ [k], rfl, by rw [stopAfter_append]; rfl⟩

/-- More lexemes behind. -/
theorem extend (h : Bounds span ts) (u : Lexeme) (us : List Lexeme) :
    Bounds (.ofBounds span.start (stopAfter u.span.stop us)) (ts ++ u :: us) := by
  obtain ⟨t, vs, rfl, rfl⟩ := h
  exact ⟨t, vs ++ u :: us, rfl, by rw [stopAfter_append]; rfl⟩

theorem extend_eq (h : Bounds span ts) {u : Lexeme} {stop : Nat}
    (eq : stop = stopAfter u.span.stop us) : Bounds (.ofBounds span.start stop) (ts ++ u :: us) :=
  eq ▸ h.extend u us

/-- The span around two pieces with a lexeme between them. -/
theorem cover {left right : Span} {o : Lexeme} (hl : Bounds left ts) (hr : Bounds right us)
    (inOrder : InOrder (ts ++ o :: us)) : Bounds (left.cover right) (ts ++ o :: us) := by
  obtain ⟨_, behind, across⟩ := List.pairwise_append.1 inOrder
  have apart : left.stop ≤ right.start :=
    hr.le_start fun u mem => hl.stop_le fun t mem' => across t mem' u (List.mem_cons_of_mem _ mem)
  have stop : right.stop = stopAfter o.span.stop us := by
    obtain ⟨u, vs, rfl, rfl⟩ := hr
    have last := InOrder.stop_le (List.pairwise_cons.1 behind).2 u List.mem_cons_self
    exact Span.stop_ofBounds (Nat.le_trans u.span.start_le_stop last)
  have around : left.cover right = .ofBounds left.start (stopAfter o.span.stop us) := by
    have := left.start_le_stop
    have := right.start_le_stop
    rw [Span.cover, ← stop, Nat.min_eq_left (by omega), Nat.max_eq_right (by omega)]
  rw [around]
  exact hl.extend o us

end Bounds

/-! ## Pieces -/

theorem Expr.outline_eq (e : Expr) : ∃ parts, e.outline = .node e.span parts := by
  cases e with
  | property _ _ optional | element _ _ optional | call _ _ optional =>
    cases optional <;> exact ⟨_, rfl⟩
  | update _ leads => cases leads <;> exact ⟨_, rfl⟩
  | yieldValue delegates => cases delegates <;> exact ⟨_, rfl⟩
  | _ => exact ⟨_, rfl⟩

namespace Filled

variable {strict : Bool} {ls parts : List Outline} {t : Lexeme} {ts us : List Lexeme}

/-- A node that takes all lexemes. -/
theorem whole {span : Span} (bounds : Bounds span ts) (h : Filled parts ts) :
    Filled [.node span parts] ts := by
  simpa using node bounds h nil

theorem name (t : Lexeme) : Filled [Identifier.outline ⟨t.text, t.span⟩] [t] :=
  whole (.single t) (.word .nil)

theorem bounds {e : Expr} (h : Filled [e.outline] ts) : Bounds e.span ts := by
  obtain ⟨parts, eq⟩ := e.outline_eq
  rw [eq] at h
  cases h with
  | node bounds _ rest =>
    cases rest
    simpa using bounds

/-- A list with a comma behind its first member. -/
theorem separated_cons {l : Outline} (h : Filled [l] ts) (lexed : Lexed strict (t :: us))
    (kind : t.kind = .punctuator .comma) (rest : Filled (Outline.separated ls) us) :
    Filled (Outline.separated (l :: ls)) (ts ++ t :: us) := by
  cases ls with
  | nil =>
    cases rest
    exact h.append (.lastComma kind (lexed.comma kind) .nil)
  | cons m ls => exact h.append (.fixed kind (lexed.comma kind) rest)

/-- A list of one member may do without a comma. -/
theorem noComma_behind {l : Outline} (h : Filled [l] ts) : Filled [l, .slot .lastComma] ts := by
  have := h.append (.noComma .nil)
  rwa [List.append_nil] at this

/-- A token of a kind with one spelling fills the slot of that kind. -/
theorem token {kind : TokenKind} (h : Lexed strict (t :: us)) (same : t.kind = kind)
    (fixed : kind.text? = some kind.label) (rest : Filled ls ts) :
    Filled (.slot (.fixed kind) :: ls) (t :: ts) :=
  .fixed same (h.head.eq_text (same ▸ fixed)) rest

end Filled

theorem TokenKind.keyStart_eq_computed {kind : TokenKind} (h : kind.keyStart = .computed) :
    kind = .punctuator .openBracket := by
  unfold keyStart at h
  split at h <;> first | rfl | cases h

theorem TokenKind.operandStart_eq_update {kind : TokenKind} {op : UpdateOperator}
    (h : kind.operandStart = .update op) : op.kind = kind := by
  unfold operandStart at h
  split at h
  · next found =>
    cases h
    exact UpdateOperator.ofKind?_eq_some_iff.1 found
  · split at h
    · cases h
    · split at h <;> cases h

theorem TokenKind.operandStart_eq_unary {kind : TokenKind} {op : UnaryOperator}
    (h : kind.operandStart = .unary op) : op.kind = kind := by
  unfold operandStart at h
  split at h
  · cases h
  · split at h
    · next found =>
      cases h
      exact UnaryOperator.ofKind?_eq_some_iff.1 found
    · split at h <;> cases h

theorem TokenKind.operandStart_eq_await {kind : TokenKind} (h : kind.operandStart = .await) :
    kind = .keyword .awaitKw := by
  unfold operandStart at h
  split at h
  · cases h
  · split at h
    · cases h
    · split at h
      · assumption
      · cases h

theorem Lexeme.primaryStart_eq_array {t : Lexeme} (h : t.primaryStart = .array) :
    t.kind = .punctuator .openBracket := by
  unfold primaryStart at h
  split at h <;> first | assumption | cases h

theorem Lexeme.primaryStart_eq_object {t : Lexeme} (h : t.primaryStart = .object) :
    t.kind = .punctuator .openBrace := by
  unfold primaryStart at h
  split at h <;> first | assumption | cases h

theorem filled_of_primaryStart {strict : Bool} {t : Lexeme} {l : Leaf}
    (h : t.primaryStart = .leaf l) (lexed : Lexed strict [t]) : Filled l.outlines [t] := by
  unfold Lexeme.primaryStart at h
  split at h <;> cases h
  case h_2 | h_3 => exact .word .nil
  all_goals exact .token lexed ‹_› rfl .nil

/-- The lexemes fill the outlines of a piece. A link is put behind what it continues. -/
def Piece.Fills : Piece → List Lexeme → Prop
  | .assignment e, ts | .expression e, ts | .primary e, ts | .head e, ts | .callee e, ts
  | .links e, ts | .updated e, ts | .operand e, ts | .chain _ e, ts | .conditional e, ts =>
    Filled [e.outline] ts
  | .tail es, ts => ∀ e us, Filled [e.outline] us →
    Filled (Outline.joined (outlineExpressions (e :: es))) (us ++ ts)
  | .argument a, ts => Filled [a.outline] ts
  | .arguments list, ts => Filled (Outline.separated (outlineArguments list)) ts
  | .elements es, ts => Filled (outlineElements es) ts
  | .key k, ts => Filled k.outlines ts
  | .member m, ts => Filled [m.outline] ts
  | .members ms, ts => Filled (Outline.separated (outlineMembers ms)) ts
  | .element object true e, ts | .call object true e, ts =>
    ∀ q us, Filled [.punctuator .optionalDot] [q] → Filled [object.outline] us →
      Filled [e.outline] (us ++ q :: ts)
  | .element object false e, ts | .call object false e, ts | .access object e, ts
  | .link object e, ts => ∀ us, Filled [object.outline] us → Filled [e.outline] (us ++ ts)
  | .statement s, ts => Filled [s.outline] ts
  | .statements list, ts => Filled (outlineStatements list) ts

theorem Written.fills {strict : Bool} {n : Nat} {p : Piece} {ts rest : List Lexeme}
    (h : Written n p ts rest) (lexed : Lexed strict ts) : p.Fills ts := by
  induction h with
  | yield k _ => exact .whole (.cons _ _) (.token lexed k rfl .nil)
  | yieldValue k _ ih =>
    exact .whole (.cons _ _) (.token lexed k rfl (ih lexed.tail))
  | yieldAll k s _ ih =>
    exact .whole (.cons _ _) (.token lexed k rfl (.token lexed.tail s rfl (ih lexed.tail.tail)))
  | unassigned _ ih => exact ih lexed
  | assigned k _ _ _ target value =>
    have target := target lexed.left
    exact .whole (target.bounds.extend _ _)
      (target.append (.token lexed.right k rfl (value lexed.right.tail)))
  | single _ ih => exact ih lexed
  | sequence _ _ first tail =>
    have first := first lexed.left
    exact .whole (first.bounds.extend _ _) (tail lexed.right _ _ first)
  | tailNil =>
    intro e us first
    rw [List.append_nil]
    exact first
  | tailCons k _ _ ih tail =>
    intro e us first
    exact first.append (.token lexed k rfl (tail lexed.tail.right _ _ (ih lexed.tail.left)))
  | plain _ ih => exact ih lexed
  | spread k _ ih => exact .whole (.cons _ _) (.token lexed k rfl (ih lexed.tail))
  | argumentsNil => exact .nil
  | argumentsLast _ ih => exact (ih lexed).noComma_behind
  | argumentsCons k _ _ ih more =>
    exact (ih lexed.left).separated_cons lexed.right k (more lexed.right.tail)
  | elementsNil => exact .nil
  | elementsHole k _ more =>
    exact .hole k (lexed.comma k) (more lexed.tail)
  | elementsLast _ ih => exact (ih lexed).noComma_behind
  | @elementsCons _ a es _ _ _ _ k _ _ ih more =>
    have first := ih lexed.left
    have more := more lexed.right.tail
    have text := lexed.right.comma k
    cases es with
    | nil =>
      cases more
      exact first.append (.lastComma k text .nil)
    | cons e es => exact first.append (.fixed k text more)
  | keyName _ => exact .name _
  | keyString _ => exact .whole (.single _) (.word .nil)
  | keyNumber _ value => exact .whole (.single _) (.numeral value .nil)
  | keyComputed b k _ ih =>
    have b := TokenKind.keyStart_eq_computed b
    have inside := ih lexed.tail.left
    exact .token lexed b rfl (inside.append (.token lexed.tail.right k rfl .nil))
  | property k _ _ key value =>
    rw [← List.cons_append] at lexed ⊢
    have parts := (key lexed.left).append (.token lexed.right k rfl (value lexed.right.tail))
    exact .whole ((Bounds.cons _ _).extend _ _) parts
  | shorthand _ => exact .name _
  | memberSpread k _ ih => exact .whole (.cons _ _) (.token lexed k rfl (ih lexed.tail))
  | membersNil => exact .nil
  | membersLast _ ih => exact (ih lexed).noComma_behind
  | membersCons k _ _ ih more =>
    exact (ih lexed.left).separated_cons lexed.right k (more lexed.right.tail)
  | number _ value _ => exact .whole (.single _) (.numeral value .nil)
  | leaf start => exact .whole (.single _) (filled_of_primaryStart start lexed)
  | importMeta i d m word =>
    have i := Lexeme.primaryStart_eq_importWord i
    exact .whole (.cons _ _) (.token lexed i rfl (.token lexed.tail d rfl (word ▸ .word .nil)))
  | parenthesized p k _ ih =>
    have p := Lexeme.primaryStart_eq_parenthesized p
    exact .whole (.brackets _ _ _)
      (.token lexed p rfl ((ih lexed.tail.left).append (.token lexed.tail.right k rfl .nil)))
  | array b k _ ih =>
    have b := Lexeme.primaryStart_eq_array b
    exact .whole (.brackets _ _ _)
      (.token lexed b rfl ((ih lexed.tail.left).append (.token lexed.tail.right k rfl .nil)))
  | object b k _ ih =>
    have b := Lexeme.primaryStart_eq_object b
    exact .whole (.brackets _ _ _)
      (.token lexed b rfl ((ih lexed.tail.left).append (.token lexed.tail.right k rfl .nil)))
  | headPrimary _ ih => exact ih lexed
  | newTarget w d _ word =>
    exact .whole (.cons _ _) (.token lexed w rfl (.token lexed.tail d rfl (word ▸ .word .nil)))
  | construct w p k _ _ callee list =>
    have callee := callee lexed.tail.left
    have list := list lexed.tail.right.tail.left
    have close := Filled.token lexed.tail.right.tail.right k rfl .nil
    have inside := callee.append (.token lexed.tail.right p rfl (list.append close))
    refine .whole ?_ (.token lexed w rfl inside)
    exact ⟨_, _, rfl, by simp [stopAfter]⟩
  | constructBare w _ _ ih => exact .whole (.cons _ _) (.token lexed w rfl (ih lexed.tail))
  | calleeHead _ ih => exact ih lexed
  | calleeAccess _ _ object access => exact access lexed.right _ (object lexed.left)
  | linksHead _ ih => exact ih lexed
  | linksLink _ _ object link => exact link lexed.right _ (object lexed.left)
  | @element _ _ _ optional _ _ _ _ b k _ ih =>
    have inside := (ih lexed.tail.left).append (.token lexed.tail.right k rfl .nil)
    have brackets := Filled.token lexed b rfl inside
    cases optional with
    | false =>
      intro us object
      refine .whole ?_ (object.append brackets)
      exact object.bounds.extend_eq (by simp [stopAfter])
    | true =>
      intro q us mark object
      refine .whole ?_ (object.append (mark.append brackets))
      exact object.bounds.extend_eq (by simp [stopAfter])
  | @call _ _ _ optional _ _ _ _ p k _ ih =>
    have inside := (ih lexed.tail.left).append (.token lexed.tail.right k rfl .nil)
    have brackets := Filled.token lexed p rfl inside
    cases optional with
    | false =>
      intro us callee
      refine .whole ?_ (callee.append brackets)
      exact callee.bounds.extend_eq (by simp [stopAfter])
    | true =>
      intro q us mark callee
      refine .whole ?_ (callee.append (mark.append brackets))
      exact callee.bounds.extend_eq (by simp [stopAfter])
  | accessName d _ =>
    intro us object
    exact .whole (object.bounds.extend _ _) (object.append (.token lexed d rfl (.name _)))
  | accessElement _ ih => exact ih lexed
  | linkAccess _ ih => exact ih lexed
  | linkCall _ ih => exact ih lexed
  | optionalName q _ =>
    intro us object
    exact .whole (object.bounds.extend _ _) (object.append (.token lexed q rfl (.name _)))
  | optionalElement q _ ih | optionalCall q _ ih =>
    intro us object
    exact ih lexed.tail _ us (.token lexed q rfl .nil) object
  | updatedLinks _ ih => exact ih lexed
  | updateBehind o _ _ ih =>
    have operand := ih lexed.left
    have mark := Filled.token lexed.right o.symm (UpdateOperator.text?_kind _) .nil
    exact .whole (operand.bounds.extend _ _) (operand.append mark)
  | operandUpdated _ ih => exact ih lexed
  | updateAhead o _ _ ih =>
    have o := TokenKind.operandStart_eq_update o
    exact .whole (.cons _ _) (.token lexed o.symm (UpdateOperator.text?_kind _) (ih lexed.tail))
  | unary o _ ih =>
    have o := TokenKind.operandStart_eq_unary o
    exact .whole (.cons _ _) (.token lexed o.symm (UnaryOperator.text?_kind _) (ih lexed.tail))
  | await o _ ih =>
    have o := TokenKind.operandStart_eq_await o
    exact .whole (.cons _ _) (.token lexed o rfl (ih lexed.tail))
  | chainOperand _ ih => exact ih lexed
  | operationLeft o _ _ _ _ _ _ left right | operationRight o _ _ _ _ _ _ left right =>
    have left := left lexed.left
    have right := right lexed.right.tail
    exact .whole (left.bounds.cover right.bounds lexed.inOrder)
      (left.append (.token lexed.right o.symm (InfixOperator.text?_kind _) right))
  | unconditional _ ih => exact ih lexed
  | conditional q k _ _ _ condition whenTrue whenFalse =>
    have condition := condition lexed.left
    have whenTrue := whenTrue lexed.right.tail.left
    have whenFalse := whenFalse lexed.right.tail.right.tail
    have arms := whenTrue.append (.token lexed.right.tail.right k rfl whenFalse)
    refine .whole ?_ (condition.append (.token lexed.right q rfl arms))
    exact condition.bounds.extend_eq (by simp [stopAfter])
  | declaration w _ q z _ ih =>
    have value := ih lexed.tail.tail.tail.left
    have close := Filled.token lexed.tail.tail.tail.right z rfl .nil
    have assign := Filled.token lexed.tail.tail q rfl (value.append close)
    exact .whole (.brackets _ _ (_ :: _ :: _))
      (.token lexed w (DeclarationKind.text?_kind _) (.append (.name _) assign))
  | block b k _ ih =>
    exact .whole (.brackets _ _ _)
      (.token lexed b rfl ((ih lexed.tail.left).append (.token lexed.tail.right k rfl .nil)))
  | empty z => exact .whole (.single _) (.token lexed z rfl .nil)
  | expression _ z _ ih =>
    rw [← List.cons_append] at lexed ⊢
    have e := ih lexed.left
    exact .whole (e.bounds.extend _ _) (e.append (.token lexed.right z rfl .nil))
  | debugger w z => exact .whole (.cons _ _) (.token lexed w rfl (.token lexed.tail z rfl .nil))
  | statementsNil => exact .nil
  | statementsCons _ _ first more => exact (first lexed.left).append (more lexed.right)

/-! ## Programs -/

theorem parse_eq_ok {strict : Bool} {source : Text} {p : Program} :
    parse strict source = .ok p ↔
      ∃ tokens, scan strict source = .ok tokens ∧ Program.ofTokens maxNesting tokens = .ok p := by
  unfold parse parseWithin
  cases scan strict source with
  | error e => simp [Except.mapError, bind, Except.bind]
  | ok tokens =>
    cases read : Program.ofTokens maxNesting tokens <;>
      simp [Except.mapError, bind, Except.bind, read]

theorem Tiling.lexed {strict : Bool} {offset : Nat} {ts : List Lexeme} {text : Text}
    (h : Tiling strict offset ts text) : Lexed strict ts := ⟨h.spelled, h.inOrder⟩

/-- The tokens of a source fill the outlines of its program. -/
theorem filled_of_parse {strict : Bool} {source : Text} {p : Program}
    (h : parse strict source = .ok p) :
    ∃ tokens, scan strict source = .ok tokens ∧ Filled p.outlines tokens.lexemes ∧
      p.span = ⟨0, Text.size source⟩ := by
  obtain ⟨tokens, scanned, read⟩ := parse_eq_ok.1 h
  obtain ⟨written, span⟩ := Program.written_of_ofTokens read
  have tiling := tiling_of_scan scanned
  obtain ⟨_, list, _, rfl⟩ := scan_eq_ok.1 scanned
  refine ⟨_, scanned, written.fills tiling.lexed, ?_⟩
  rw [span, TokenSequence.source_ofList]
  rfl

/-- No token is lost, repeated or moved: the texts of the tokens fill the slots of the tree. -/
theorem parse_prints {strict : Bool} {source : Text} {p : Program}
    (h : parse strict source = .ok p) :
    ∃ tokens, scan strict source = .ok tokens ∧
      Prints p.slots (tokens.toList.map tokens.text) := by
  obtain ⟨tokens, scanned, filled, _⟩ := filled_of_parse h
  refine ⟨tokens, scanned, ?_⟩
  have prints := filled.prints
  rwa [TokenSequence.lexemes, List.map_map] at prints

/-- In `[,01,];` a hole has a comma, a numeral has a zero in front, and a last comma stands. -/
theorem parse_prints_array :
    ∃ p, parse false ['[', ',', '0', '1', ',', ']', ';'] = .ok p ∧
      p.slots = [.fixed (.punctuator .openBracket), .fixed (.punctuator .comma), .numeral 1,
        .lastComma, .fixed (.punctuator .closeBracket), .fixed (.punctuator .semicolon)] ∧
      ∃ tokens, scan false ['[', ',', '0', '1', ',', ']', ';'] = .ok tokens ∧
        Prints p.slots (tokens.toList.map tokens.text) :=
  ⟨_, rfl, rfl, parse_prints rfl⟩

/-- Each node of the tree has a run of tokens for itself: its span goes from the start of the first
to the end of the last one, and they fill its parts. A hole stands at its comma. So the spans of the
parts lie in the span of the node one after the other, and a name or a string is the piece of the
source that its span denotes. -/
theorem parse_spans {strict : Bool} {source : Text} {p : Program}
    (h : parse strict source = .ok p) :
    ∃ tokens, scan strict source = .ok tokens ∧
      (p.span = ⟨0, Text.size source⟩ ∧ Filled p.outlines tokens.lexemes ∧
        p.span.Nests (p.outlines.filterMap Outline.span?)) ∧
      (∀ span parts, Outline.Inside (.node span parts) p.outlines →
        (∃ ts, ts <:+: tokens.lexemes ∧ Bounds span ts ∧ Filled parts ts) ∧
          span.Nests (parts.filterMap Outline.span?)) ∧
      (∀ span, Outline.Inside (.hole span) p.outlines →
        ∃ k ∈ tokens.lexemes, k.kind = .punctuator .comma ∧ span = .empty k.span.start) ∧
      ∀ span text, Outline.Inside (.node span [.slot (.word text)]) p.outlines →
        span.slice source = some text := by
  obtain ⟨tokens, scanned, filled, whole⟩ := filled_of_parse h
  have tiling := tiling_of_scan scanned
  refine ⟨tokens, scanned, ⟨whole, filled, ?_, filled.siblings tiling.inOrder⟩, ?_, ?_, ?_⟩
  · refine fun c mem => ⟨whole ▸ Nat.zero_le _, filled.stop_le (fun t mem => ?_) c mem⟩
    rw [whole]
    exact tiling.stop_le t mem
  · intro span parts inside
    exact ⟨filled.exists_of_inside inside, filled.nests tiling.inOrder inside⟩
  · intro span inside
    exact filled.hole_of_inside inside
  · intro span text inside
    obtain ⟨ts, run, bounds, parts⟩ := filled.exists_of_inside inside
    cases parts with
    | word rest =>
      cases rest
      obtain ⟨_, _, same, rfl⟩ := bounds
      cases same
      rw [stopAfter, Span.ofBounds_start_stop]
      exact tiling.slice_eq [] rfl _ (run.subset List.mem_cons_self)

/-- In `a('b',);` the statement has a span of eight bytes, and the call one of seven. -/
theorem parse_spans_call :
    ∃ p, (parse false ['a', '(', '\'', 'b', '\'', ',', ')', ';'] = .ok p ∧
      p.outlines = [.node ⟨0, 8⟩ [.node ⟨0, 7⟩ [.node ⟨0, 1⟩ [.slot (.word ['a'])],
        .punctuator .openParen, .node ⟨2, 3⟩ [.slot (.word ['\'', 'b', '\''])], .slot .lastComma,
        .punctuator .closeParen], .punctuator .semicolon]]) ∧
      p.span.Nests (p.outlines.filterMap Outline.span?) := by
  refine Exists.imp (fun p found => ⟨found, ?_⟩) ⟨_, rfl, rfl⟩
  obtain ⟨_, _, ⟨_, _, nests⟩, _⟩ := parse_spans found.1
  exact nests

end EcmaFront
