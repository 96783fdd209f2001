import EcmaFront.Proofs.Tree.Soundness.Program

/-!
# Primary expressions are read as they are written

`Takes r ts rest a` says that the reader `r` takes the lexemes `ts` in front of `rest` and gives `a`.
Each lemma here says so of one form in brackets, given the same of the forms inside. What follows a
form must not continue it: `TokenKind.continuesExpression` and the like tell which tokens would.
-/

namespace EcmaFront

open Reader

/-! ## Tokens that continue a piece -/

namespace TokenKind

/-- Whether the token would belong to an operand before it. -/
def continuesOperand (kind : TokenKind) : Bool :=
  kind.linkStart != .other || (UpdateOperator.ofKind? kind).isSome

def continuesConditional (kind : TokenKind) : Bool :=
  kind.continuesOperand || (InfixOperator.ofKind? kind).isSome || kind == .punctuator .question

def continuesAssignment (kind : TokenKind) : Bool :=
  kind.continuesConditional || kind == .punctuator .arrow || kind.isAssignment

def continuesExpression (kind : TokenKind) : Bool :=
  kind.continuesAssignment || kind == .punctuator .comma

theorem continuesConditional_of_operand {kind : TokenKind} (h : kind.continuesOperand = true) :
    kind.continuesConditional = true := by
  simp [continuesConditional, h]

theorem continuesConditional_of_bindsTighter {k : Nat} {kind : TokenKind}
    (h : kind.bindsTighter k = true) : kind.continuesConditional = true := by
  obtain ⟨op, isOp, _⟩ := (Option.any_eq_true _ _).1 h
  simp [continuesConditional, isOp]

theorem continuesAssignment_of_conditional {kind : TokenKind}
    (h : kind.continuesConditional = true) : kind.continuesAssignment = true := by
  simp [continuesAssignment, h]

theorem continuesExpression_of_assignment {kind : TokenKind} (h : kind.continuesAssignment = true) :
    kind.continuesExpression = true := by
  simp [continuesExpression, h]

theorem isAssignment_eq_false {kind : TokenKind} (h : kind.isAssignment = false) :
    AssignmentOperator.ofKind? kind = none := by
  cases kind <;> simp_all [isAssignment_eq, AssignmentOperator.ofKind?]

/-- An argument starts with no token that ends or separates arguments. -/
theorem startsAssignment_not_close {kind : TokenKind} (h : kind.startsAssignment = true) :
    kind ≠ .punctuator .closeParen ∧ kind ≠ .punctuator .closeBracket ∧
      kind ≠ .punctuator .comma := by
  revert kind
  decide +kernel

/-- An operator between operands belongs to neither of them. -/
theorem continuesOperand_infix (op : InfixOperator) : op.kind.continuesOperand = false := by
  rcases op with op | op <;> cases op <;> rfl

end TokenKind

namespace Expr

variable {n : Nat}

/-! ## Sequences and arguments -/

theorem takes_single {e : Expr} {ts rest : List Lexeme}
    (stop : Stops TokenKind.continuesExpression rest)
    (readFirst : Takes (Nested.within n).assignment ts rest e) :
    Takes (read (.within n)) ts rest e := by
  intro d s
  have noComma : Stops (· == .punctuator .comma) rest :=
    stop.mono (by simp +contextual [TokenKind.continuesExpression])
  refine bind_eq_ok.2 ⟨_, _, readFirst d s, ?_⟩
  exact bind_eq_ok.2 ⟨_, _, nextIs_of_stops noComma, rfl⟩

theorem takes_sequence {first : Expr} {es : List Expr} {k : Lexeme} {ts us rest : List Lexeme}
    (comma : k.kind = .punctuator .comma)
    (readFirst : Takes (Nested.within n).assignment ts (k :: (us ++ rest)) first)
    (readTail : ∀ before, Takes (loop (sequenceStep (.within n)) before) (k :: us) rest
      (before.reverse ++ es)) :
    Takes (read (.within n)) (ts ++ k :: us) rest
      (.sequence (first :: es) (.ofBounds first.span.start (stopAfter k.span.stop us))) := by
  intro d s
  rw [List.append_assoc, List.cons_append]
  refine bind_eq_ok.2 ⟨_, _, readFirst d s, ?_⟩
  refine bind_eq_ok.2 ⟨_, _, nextIs_cons comma, bind_eq_ok.2 ⟨_, _, readTail [first] _ _, ?_⟩⟩
  rw [stopAfter_append]
  exact returnSpan_eq_ok.2 ⟨rfl, rfl⟩

theorem takes_tailNil {rest : List Lexeme} (stop : Stops TokenKind.continuesExpression rest)
    (before : List Expr) :
    Takes (loop (sequenceStep (.within n)) before) [] rest (before.reverse ++ []) := by
  refine .loop_done fun d s => ?_
  have noComma : Stops (· == .punctuator .comma) rest :=
    stop.mono (by simp +contextual [TokenKind.continuesExpression])
  rw [List.append_nil]
  exact bind_eq_ok.2 ⟨_, _, accept?_of_stops noComma, rfl⟩

theorem takes_tailCons {e : Expr} {es : List Expr} {k : Lexeme} {ts us rest : List Lexeme}
    (comma : k.kind = .punctuator .comma)
    (readFirst : Takes (Nested.within n).assignment ts (us ++ rest) e)
    (readTail : ∀ before, Takes (loop (sequenceStep (.within n)) before) us rest
      (before.reverse ++ es)) (before : List Expr) :
    Takes (loop (sequenceStep (.within n)) before) (k :: (ts ++ us)) rest
      (before.reverse ++ e :: es) := by
  have step : Takes (sequenceStep (.within n) before) (k :: ts) (us ++ rest)
      (.again (e :: before)) := fun d s =>
    bind_eq_ok.2 ⟨_, _, accept?_cons comma, bind_eq_ok.2 ⟨_, _, readFirst _ _, rfl⟩⟩
  have tail := readTail (e :: before)
  rw [List.reverse_cons, List.append_assoc] at tail
  exact step.loop_again (progresses_of_collects (collects_sequenceStep (Nested.sound_within n))) tail

theorem takes_plain {e : Expr} {ts rest : List Lexeme} (opens : Opens TokenKind.startsAssignment ts)
    (readE : Takes (Nested.within n).assignment ts rest e) :
    Takes (readArgument (.within n)) ts rest (.plain e) := by
  intro d s
  obtain ⟨t, us, rfl, first, _⟩ := opens
  have noDots := (TokenKind.startsYieldOperand_of_startsAssignment first).2.2
  refine bind_eq_ok.2 ⟨_, _, accept?_of_stops (stops_cons.2 (by simpa using noDots)), ?_⟩
  exact bind_eq_ok.2 ⟨_, _, readE d s, rfl⟩

theorem takes_spread {dots : Lexeme} {e : Expr} {ts rest : List Lexeme}
    (kind : dots.kind = .punctuator .ellipsis)
    (readE : Takes (Nested.within n).assignment ts rest e) :
    Takes (readArgument (.within n)) (dots :: ts) rest
      (.spread e (.ofBounds dots.span.start (stopAfter dots.span.stop ts))) := by
  intro d s
  refine bind_eq_ok.2 ⟨_, _, accept?_cons kind, bind_eq_ok.2 ⟨_, _, readE _ _, ?_⟩⟩
  exact returnSpan_eq_ok.2 ⟨rfl, rfl⟩

theorem exists_of_argument {a : Argument} {ts rest : List Lexeme}
    (h : Written n (.argument a) ts rest) :
    ∃ t us, ts = t :: us ∧ t.kind ≠ .punctuator .closeParen ∧
      t.kind ≠ .punctuator .closeBracket ∧ t.kind ≠ .punctuator .comma := by
  cases h with
  | plain h =>
    obtain ⟨t, us, rfl, first, _⟩ := h.opening
    exact ⟨t, us, rfl, TokenKind.startsAssignment_not_close first⟩
  | spread kind _ => exact ⟨_, _, rfl, by simp [kind]⟩

theorem progresses_argumentsStep : Progresses (argumentsStep (.within n)) :=
  progresses_of_collects (collects_argumentsStep (Nested.sound_within n))

/-- Arguments with their parentheses. -/
theorem takes_readArguments {list : List Argument} {p k : Lexeme} {ts rest : List Lexeme}
    (isOpen : p.kind = .punctuator .openParen) (close : k.kind = .punctuator .closeParen)
    (readList : ∀ before, Takes (loop (argumentsStep (.within n)) before) ts (k :: rest)
      (before.reverse ++ list)) :
    Takes (readArguments (.within n)) (p :: (ts ++ [k])) rest list := by
  intro d s
  rw [List.cons_append, List.append_assoc, List.singleton_append]
  refine bind_eq_ok.2 ⟨_, _, expectOr_cons isOpen, bind_eq_ok.2 ⟨_, _, readList [] _ _, ?_⟩⟩
  refine bind_eq_ok.2 ⟨_, _, expectOr_cons close, ?_⟩
  simp [pure_eq_ok, stopAfter]

/-! ## Literals -/

theorem takes_elementsNil {k : Lexeme} {rest : List Lexeme}
    (close : k.kind = .punctuator .closeBracket) (before : List ArrayElement) :
    Takes (loop (arrayStep (.within n)) before) [k] rest (before.reverse ++ []) := by
  refine .loop_done fun d s => ?_
  rw [List.append_nil]
  refine bind_eq_ok.2 ⟨_, _, rfl, ?_⟩
  simp only [List.singleton_append, List.head?_cons, if_pos close]
  exact bind_eq_ok.2 ⟨_, _, rfl, rfl⟩

theorem progresses_arrayStep : Progresses (arrayStep (.within n)) :=
  progresses_of_collects (collects_arrayStep (Nested.sound_within n))

theorem takes_elementsHole {es : List ArrayElement} {k : Lexeme} {ts rest : List Lexeme}
    (comma : k.kind = .punctuator .comma)
    (readMore : ∀ before, Takes (loop (arrayStep (.within n)) before) ts rest
      (before.reverse ++ es)) (before : List ArrayElement) :
    Takes (loop (arrayStep (.within n)) before) (k :: ts) rest
      (before.reverse ++ .hole (.empty k.span.start) :: es) := by
  have step : Takes (arrayStep (.within n) before) [k] (ts ++ rest)
      (.again (.hole (.empty k.span.start) :: before)) := by
    intro d s
    refine bind_eq_ok.2 ⟨_, _, rfl, ?_⟩
    have notClose : ¬k.kind = .punctuator .closeBracket := by simp [comma]
    simp only [List.singleton_append, List.head?_cons, if_neg notClose, if_pos comma]
    exact bind_eq_ok.2 ⟨_, _, rfl, rfl⟩
  have more := readMore (.hole (.empty k.span.start) :: before)
  rw [List.reverse_cons, List.append_assoc] at more
  exact step.loop_again progresses_arrayStep more

theorem takes_elementsLast {a : Argument} {k : Lexeme} {ts rest : List Lexeme}
    (written : Written n (.argument a) ts (k :: rest)) (close : k.kind = .punctuator .closeBracket)
    (readFirst : Takes (readArgument (.within n)) ts (k :: rest) a) (before : List ArrayElement) :
    Takes (loop (arrayStep (.within n)) before) (ts ++ [k]) rest (before.reverse ++ [.item a]) := by
  refine .loop_done fun d s => ?_
  obtain ⟨t, us, rfl, _, notClose, notComma⟩ := exists_of_argument written
  rw [List.append_assoc, List.singleton_append]
  refine bind_eq_ok.2 ⟨_, _, rfl, ?_⟩
  simp only [List.cons_append, List.head?_cons, if_neg notClose, if_neg notComma]
  have noComma : Stops (· == .punctuator .comma) (k :: rest) := stops_cons.2 (by simp [close])
  refine bind_eq_ok.2 ⟨_, _, readFirst d s, bind_eq_ok.2 ⟨_, _, accept?_of_stops noComma, ?_⟩⟩
  refine bind_eq_ok.2 ⟨_, _, expectOr_cons close, ?_⟩
  simp [pure_eq_ok, stopAfter]

theorem takes_elementsCons {a : Argument} {es : List ArrayElement} {k : Lexeme}
    {ts us rest : List Lexeme} (written : Written n (.argument a) ts (k :: (us ++ rest)))
    (comma : k.kind = .punctuator .comma)
    (readFirst : Takes (readArgument (.within n)) ts (k :: (us ++ rest)) a)
    (readMore : ∀ before, Takes (loop (arrayStep (.within n)) before) us rest
      (before.reverse ++ es)) (before : List ArrayElement) :
    Takes (loop (arrayStep (.within n)) before) (ts ++ k :: us) rest
      (before.reverse ++ .item a :: es) := by
  have step : Takes (arrayStep (.within n) before) (ts ++ [k]) (us ++ rest)
      (.again (.item a :: before)) := by
    intro d s
    obtain ⟨t, vs, rfl, _, notClose, notComma⟩ := exists_of_argument written
    rw [List.append_assoc, List.singleton_append]
    refine bind_eq_ok.2 ⟨_, _, rfl, ?_⟩
    simp only [List.cons_append, List.head?_cons, if_neg notClose, if_neg notComma]
    refine bind_eq_ok.2 ⟨_, _, readFirst d s, bind_eq_ok.2 ⟨_, _, accept?_cons comma, ?_⟩⟩
    simp [pure_eq_ok, stopAfter]
  have more := readMore (.item a :: before)
  rw [List.reverse_cons, List.append_assoc] at more
  have all := step.loop_again progresses_arrayStep more
  rwa [List.append_assoc] at all

theorem readNumeral_eq_ok {t : Lexeme} {value : Nat} (h : Numeral.value? t.text = some value)
    (c : Cursor) : readNumeral t c = .ok value c := by
  simp [readNumeral, Numeral.decode, h, pure_eq_ok]

theorem takes_keyName {t : Lexeme} {rest : List Lexeme} (start : t.kind.keyStart = .name) :
    Takes (readPropertyKey (.within n) t) [t] rest (.name ⟨t.text, t.span⟩) := by
  intro d s
  rw [readPropertyKey, start]
  exact bind_eq_ok.2 ⟨_, _, rfl, rfl⟩

theorem takes_keyString {t : Lexeme} {rest : List Lexeme} (start : t.kind.keyStart = .string) :
    Takes (readPropertyKey (.within n) t) [t] rest (.string t.text t.span) := by
  intro d s
  rw [readPropertyKey, start]
  exact bind_eq_ok.2 ⟨_, _, rfl, rfl⟩

theorem takes_keyNumber {t : Lexeme} {value : Nat} {rest : List Lexeme}
    (start : t.kind.keyStart = .number) (isValue : Numeral.value? t.text = some value) :
    Takes (readPropertyKey (.within n) t) [t] rest (.number value t.span) := by
  intro d s
  rw [readPropertyKey, start]
  exact bind_eq_ok.2 ⟨_, _, rfl, bind_eq_ok.2 ⟨_, _, readNumeral_eq_ok isValue _, rfl⟩⟩

theorem takes_keyComputed {e : Expr} {b k : Lexeme} {ts rest : List Lexeme}
    (start : b.kind.keyStart = .computed) (close : k.kind = .punctuator .closeBracket)
    (readE : Takes (Nested.within n).assignment ts (k :: rest) e) :
    Takes (readPropertyKey (.within n) b) (b :: (ts ++ [k])) rest (.computed e) := by
  intro d s
  rw [readPropertyKey, start, List.cons_append, List.append_assoc, List.singleton_append]
  refine bind_eq_ok.2 ⟨_, _, rfl, bind_eq_ok.2 ⟨_, _, readE _ _, ?_⟩⟩
  refine bind_eq_ok.2 ⟨_, _, expectOr_cons close, ?_⟩
  simp [pure_eq_ok, stopAfter]

theorem keyStart_of_key {key : PropertyKey} {t : Lexeme} {ts rest : List Lexeme}
    (h : Written n (.key key) (t :: ts) rest) : t.kind.keyStart ≠ .other := by
  cases h with
  | keyName start | keyString start | keyNumber start _ | keyComputed start _ _ => simp [start]

/-- A key with a colon behind it is no name that stands for itself. -/
theorem notShorthand_of_key {key : PropertyKey} {t k : Lexeme} {ts rest : List Lexeme}
    (h : Written n (.key key) (t :: ts) (k :: rest)) (colon : k.kind = .punctuator .colon) :
    isShorthand (t :: (ts ++ k :: rest)) = false := by
  cases h with
  | keyName _ | keyString _ | keyNumber _ _ => simp [isShorthand, colon]
  | keyComputed start _ _ =>
    refine Bool.eq_false_iff.2 fun short => ?_
    rw [kind_of_isShorthand short] at start
    cases start

theorem takes_property {key : PropertyKey} {value : Expr} {t k : Lexeme} {ts us rest : List Lexeme}
    (written : Written n (.key key) (t :: ts) (k :: (us ++ rest)))
    (colon : k.kind = .punctuator .colon)
    (readKey : Takes (readPropertyKey (.within n) t) (t :: ts) (k :: (us ++ rest)) key)
    (readValue : Takes (Nested.within n).assignment us rest value) :
    Takes (readMember (.within n)) (t :: (ts ++ k :: us)) rest
      (.property key value (.ofBounds t.span.start (stopAfter k.span.stop us))) := by
  intro d s
  have notDots : t.kind ≠ .punctuator .ellipsis := by
    intro dots
    exact keyStart_of_key written (by rw [dots]; rfl)
  rw [List.cons_append, List.append_assoc, List.cons_append]
  refine bind_eq_ok.2 ⟨_, _, accept?_of_stops (stops_cons.2 (by simpa using notDots)), ?_⟩
  refine bind_eq_ok.2 ⟨_, _, rfl, bind_eq_ok.2 ⟨_, _, get_eq_ok.2 ⟨rfl, rfl⟩, ?_⟩⟩
  simp only [notShorthand_of_key written colon]
  refine bind_eq_ok.2 ⟨_, _, readKey d s, ?_⟩
  have notParen : Stops (· == .punctuator .openParen) (k :: (us ++ rest)) :=
    stops_cons.2 (by simp [colon])
  refine bind_eq_ok.2 ⟨_, _, nextIs_of_stops notParen, ?_⟩
  refine bind_eq_ok.2 ⟨_, _, expectOr_cons colon, bind_eq_ok.2 ⟨_, _, readValue _ _, ?_⟩⟩
  refine returnSpan_eq_ok.2 ⟨rfl, ?_⟩
  simp [stopAfter]

theorem takes_shorthand {t : Lexeme} {rest : List Lexeme} (short : isShorthand (t :: rest) = true) :
    Takes (readMember (.within n)) [t] rest (.shorthand ⟨t.text, t.span⟩) := by
  intro d s
  have name := kind_of_isShorthand short
  rw [List.singleton_append]
  refine bind_eq_ok.2 ⟨_, _, accept?_of_stops (stops_cons.2 (by simp [name])), ?_⟩
  refine bind_eq_ok.2 ⟨_, _, rfl, bind_eq_ok.2 ⟨_, _, get_eq_ok.2 ⟨rfl, rfl⟩, ?_⟩⟩
  simp only [short]
  exact bind_eq_ok.2 ⟨_, _, rfl, rfl⟩

theorem takes_memberSpread {dots : Lexeme} {e : Expr} {ts rest : List Lexeme}
    (kind : dots.kind = .punctuator .ellipsis)
    (readE : Takes (Nested.within n).assignment ts rest e) :
    Takes (readMember (.within n)) (dots :: ts) rest
      (.spread e (.ofBounds dots.span.start (stopAfter dots.span.stop ts))) := by
  intro d s
  refine bind_eq_ok.2 ⟨_, _, accept?_cons kind, bind_eq_ok.2 ⟨_, _, readE _ _, ?_⟩⟩
  exact returnSpan_eq_ok.2 ⟨rfl, rfl⟩

/-- No member starts with the closing brace. -/
theorem notClose_of_member {m : ObjectMember} {ts rest : List Lexeme}
    (h : Written n (.member m) ts rest) (more : List Lexeme) :
    Stops (· == .punctuator .closeBrace) (ts ++ more) := by
  cases h with
  | property _ key _ =>
    refine stops_cons.2 (beq_eq_false_iff_ne.2 fun close => ?_)
    exact keyStart_of_key key (by rw [close]; rfl)
  | shorthand short => exact stops_cons.2 (by simp [kind_of_isShorthand short])
  | memberSpread kind _ => exact stops_cons.2 (by simp [kind])

theorem progresses_objectStep : Progresses (objectStep (.within n)) :=
  progresses_of_collects (collects_objectStep (Nested.sound_within n))

/-! ## Primary expressions -/

theorem takes_number {t : Lexeme} {value : Nat} {rest : List Lexeme}
    (start : t.primaryStart = .number) (isValue : Numeral.value? t.text = some value)
    (detached : attachedSuffix? t rest = none) :
    Takes (readPrimary (.within n)) [t] rest (.leaf (.number value) t.span) := by
  intro d s
  refine bind_eq_ok.2 ⟨_, _, rfl, ?_⟩
  simp only [List.singleton_append, List.head?_cons, start]
  refine bind_eq_ok.2 ⟨_, _, rfl, bind_eq_ok.2 ⟨_, _, get_eq_ok.2 ⟨rfl, rfl⟩, ?_⟩⟩
  simp only [Cursor.past, detached]
  exact bind_eq_ok.2 ⟨_, _, readNumeral_eq_ok isValue _, rfl⟩

theorem takes_leaf {t : Lexeme} {l : Leaf} {rest : List Lexeme} (start : t.primaryStart = .leaf l) :
    Takes (readPrimary (.within n)) [t] rest (.leaf l t.span) := by
  intro d s
  refine bind_eq_ok.2 ⟨_, _, rfl, ?_⟩
  simp only [List.singleton_append, List.head?_cons, start]
  exact bind_eq_ok.2 ⟨_, _, rfl, rfl⟩

theorem readMetaName_eq_ok {name : String} {t : Lexeme} {rest : List Lexeme} {d s : Nat}
    (kind : t.kind = .identifier) (text : t.text = name.toList) :
    readMetaName name ⟨t :: rest, d, s⟩ = .ok () ⟨rest, t.span.stop, s⟩ := by
  refine bind_eq_ok.2 ⟨_, _, expectOr_cons kind, ?_⟩
  simp [text, pure_eq_ok]

theorem takes_importMeta {i dot m : Lexeme} {rest : List Lexeme}
    (start : i.primaryStart = .importWord) (isDot : dot.kind = .punctuator .dot)
    (kind : m.kind = .identifier) (text : m.text = "meta".toList) :
    Takes (readPrimary (.within n)) [i, dot, m] rest
      (.leaf .importMeta (.ofBounds i.span.start m.span.stop)) := by
  intro d s
  refine bind_eq_ok.2 ⟨_, _, rfl, ?_⟩
  simp only [List.cons_append, List.nil_append, List.head?_cons, start]
  refine bind_eq_ok.2 ⟨_, _, rfl, ?_⟩
  simp only [List.getElem?_cons_succ, List.getElem?_cons_zero, Option.map_some, isDot]
  refine bind_eq_ok.2 ⟨_, _, rfl, bind_eq_ok.2 ⟨_, _, rfl, ?_⟩⟩
  exact bind_eq_ok.2 ⟨_, _, readMetaName_eq_ok kind text, returnSpan_eq_ok.2 ⟨rfl, rfl⟩⟩

theorem takes_parenthesized {e : Expr} {p k : Lexeme} {ts rest : List Lexeme}
    (start : p.primaryStart = .parenthesized) (close : k.kind = .punctuator .closeParen)
    (readE : Takes (read (.within n)) ts (k :: rest) e) :
    Takes (readPrimary (.within n)) (p :: (ts ++ [k])) rest
      (.parenthesized e (.ofBounds p.span.start k.span.stop)) := by
  intro d s
  rw [List.cons_append, List.append_assoc, List.singleton_append]
  refine bind_eq_ok.2 ⟨_, _, rfl, ?_⟩
  simp only [List.head?_cons, start]
  refine bind_eq_ok.2 ⟨_, _, get_eq_ok.2 ⟨rfl, rfl⟩, bind_eq_ok.2 ⟨_, _, rfl, ?_⟩⟩
  refine bind_eq_ok.2 ⟨_, _, readE _ _, bind_eq_ok.2 ⟨_, _, expectOr_cons close, ?_⟩⟩
  refine returnSpan_eq_ok.2 ⟨rfl, ?_⟩
  simp [stopAfter]

theorem takes_array {es : List ArrayElement} {b k : Lexeme} {ts rest : List Lexeme}
    (start : b.primaryStart = .array)
    (readList : ∀ before, Takes (loop (arrayStep (.within n)) before) (ts ++ [k]) rest
      (before.reverse ++ es)) :
    Takes (readPrimary (.within n)) (b :: (ts ++ [k])) rest
      (.array es (.ofBounds b.span.start k.span.stop)) := by
  intro d s
  refine bind_eq_ok.2 ⟨_, _, rfl, ?_⟩
  simp only [List.cons_append, List.head?_cons, start]
  refine bind_eq_ok.2 ⟨_, _, get_eq_ok.2 ⟨rfl, rfl⟩, bind_eq_ok.2 ⟨_, _, rfl, ?_⟩⟩
  refine bind_eq_ok.2 ⟨_, _, readList [] _ _, returnSpan_eq_ok.2 ⟨?_, ?_⟩⟩
  · simp [stopAfter, Cursor.nextSpan]
  · simp [stopAfter]

theorem takes_object {ms : List ObjectMember} {b k : Lexeme} {ts rest : List Lexeme}
    (start : b.primaryStart = .object) (close : k.kind = .punctuator .closeBrace)
    (readList : ∀ before, Takes (loop (objectStep (.within n)) before) ts (k :: rest)
      (before.reverse ++ ms)) :
    Takes (readPrimary (.within n)) (b :: (ts ++ [k])) rest
      (.object ms (.ofBounds b.span.start k.span.stop)) := by
  intro d s
  rw [List.cons_append, List.append_assoc, List.singleton_append]
  refine bind_eq_ok.2 ⟨_, _, rfl, ?_⟩
  simp only [List.head?_cons, start]
  refine bind_eq_ok.2 ⟨_, _, get_eq_ok.2 ⟨rfl, rfl⟩, bind_eq_ok.2 ⟨_, _, rfl, ?_⟩⟩
  refine bind_eq_ok.2 ⟨_, _, readList [] _ _, bind_eq_ok.2 ⟨_, _, expectOr_cons close, ?_⟩⟩
  refine returnSpan_eq_ok.2 ⟨rfl, ?_⟩
  simp [stopAfter]

end Expr

end EcmaFront
