import EcmaFront.Proofs.Tree.Written

/-!
# Readers of primary expressions

Each reader takes the tokens that write its result: `Reads n p r` says so of the reader `r` for the
pieces `p`, with `n` levels of nesting. The readers of nested forms are assumed to do so
(`Nested.Sound`); here are the readers of what stands in brackets.
-/

namespace EcmaFront

open Reader

section

variable {α : Type}

/-- What `r` gives is written with the tokens that it takes. -/
def Reads (n : Nat) (p : α → Piece) (r : Reader α) : Prop :=
  ∀ {c a c'}, r c = .ok a c' → ∃ ts, c.Took ts c' ∧ Written n (p a) ts c'.rest

/-- The same, for a form that starts with `t`. -/
def ReadsFrom (t : Lexeme) (n : Nat) (p : α → Piece) (r : Reader α) : Prop :=
  ∀ {c a c'}, c.rest.head? = some t → r c = .ok a c' →
    ∃ ts, c.Took (t :: ts) c' ∧ Written n (p a) (t :: ts) c'.rest

/-- Whether the token is an operator that binds tighter than rank `k`. -/
def TokenKind.bindsTighter (k : Nat) (kind : TokenKind) : Bool :=
  (InfixOperator.ofKind? kind).any fun op => k < op.precedence.rank

/-- A list with the bracket that closes it. -/
def Closed (kind : TokenKind) (P : List α → List Lexeme → List Lexeme → Prop) (list : List α)
    (ts rest : List Lexeme) : Prop :=
  ∃ us k, ts = us ++ [k] ∧ k.kind = kind ∧ P list us (k :: rest)

/-- The readers of nested forms read what is written with at most `n` levels. Those of operands
enter a level themselves. -/
structure Nested.Sound (inner : Nested) (n : Nat) : Prop where
  assignment : Reads n .assignment inner.assignment
  operand : ∀ {c e c'}, inner.operand c = .ok e c' →
    ∃ m ts, n = m + 1 ∧ c.Took ts c' ∧ Written m (.operand e) ts c'.rest
  construct : ∀ {w : Lexeme}, w.kind = .keyword .newKw → ReadsFrom w n .head inner.construct
  rightOperand : ∀ {c e c'}, inner.rightOperand c = .ok e c' →
    ∃ m ts, n = m + 1 ∧ c.Took ts c' ∧ Written m (.chain Precedence.power.rank e) ts c'.rest ∧
      Stops (TokenKind.bindsTighter Precedence.power.rightFloor.rank) c'.rest
  block : ∀ {b : Lexeme}, b.kind = .punctuator .openBrace → ReadsFrom b n .statement inner.block

end

namespace Expr

variable {inner : Nested} {n : Nat} (h : inner.Sound n)

include h

/-! ## Sequences and arguments -/

theorem collects_sequenceStep {before : List Expr} {p : Progress (List Expr) (List Expr)}
    {c c' : Cursor} (ok : sequenceStep inner before c = .ok p c') :
    Collects (fun es ts rest => Written n (.tail es) ts rest ∧ Stops (· == .punctuator .comma) rest)
      before c p c' := by
  obtain ⟨comma?, c₁, first, ok⟩ := bind_eq_ok.1 ok
  cases comma? with
  | some k =>
    obtain ⟨took, kind⟩ := accept?_took first
    obtain ⟨e, c₂, second, ok⟩ := bind_eq_ok.1 ok
    obtain ⟨rfl, rfl⟩ := pure_eq_ok.1 ok
    obtain ⟨ts, took', written⟩ := h.assignment second
    refine .again (List.cons_ne_nil _ _) (took.cons took') ?_
    rintro more us rest eq ⟨tail, stop⟩
    rw [eq] at written
    exact ⟨.tailCons kind written tail, stop⟩
  | none =>
    obtain ⟨rfl, stop⟩ := accept?_eq_none first
    obtain ⟨rfl, rfl⟩ := pure_eq_ok.1 ok
    exact .done (by simp) (.refl _) ⟨.tailNil, stop⟩

theorem reads_read : Reads n .expression (read inner) := by
  intro c e c' ok
  obtain ⟨first, c₁, readFirst, ok⟩ := bind_eq_ok.1 ok
  obtain ⟨ts, took, written⟩ := h.assignment readFirst
  obtain ⟨comma, c₂, look, ok⟩ := bind_eq_ok.1 ok
  cases comma with
  | false =>
    obtain ⟨rfl, _⟩ := nextIs_eq_false look
    obtain ⟨rfl, rfl⟩ := pure_eq_ok.1 ok
    exact ⟨ts, took, .single written⟩
  | true =>
    obtain ⟨rfl, k, head, kind⟩ := nextIs_eq_true look
    obtain ⟨es, c₃, readRest, ok⟩ := bind_eq_ok.1 ok
    obtain ⟨more, us, rfl, took', rest, stop⟩ := loop_collects (collects_sequenceStep h) readRest
    obtain ⟨rfl, rfl⟩ := returnSpan_eq_ok.1 ok
    rw [took'.rest] at written head
    rw [(took.trans took').lastStop, stopAfter_append]
    refine ⟨ts ++ us, took.trans took', ?_⟩
    cases rest with
    | tailNil =>
      -- The comma that was seen is still there.
      exact absurd (stop k head) (by simp [kind])
    | tailCons kind assignment tail => exact .sequence written (.tailCons kind assignment tail)

theorem reads_readArgument : Reads n .argument (readArgument inner) := by
  intro c a c' ok
  obtain ⟨dots?, c₁, first, ok⟩ := bind_eq_ok.1 ok
  cases dots? with
  | none =>
    obtain ⟨rfl, _⟩ := accept?_eq_none first
    obtain ⟨e, c₂, second, ok⟩ := bind_eq_ok.1 ok
    obtain ⟨rfl, rfl⟩ := pure_eq_ok.1 ok
    obtain ⟨ts, took, written⟩ := h.assignment second
    exact ⟨ts, took, .plain written⟩
  | some dots =>
    obtain ⟨took, kind⟩ := accept?_took first
    obtain ⟨e, c₂, second, ok⟩ := bind_eq_ok.1 ok
    obtain ⟨rfl, rfl⟩ := returnSpan_eq_ok.1 ok
    obtain ⟨ts, took', written⟩ := h.assignment second
    rw [(took.cons took').lastStop]
    exact ⟨dots :: ts, took.cons took', .spread kind written⟩

omit h in
theorem separates_arguments :
    Separates (fun a => Written n (.argument a)) (fun list => Written n (.arguments list)) where
  nil := .argumentsNil
  last := .argumentsLast
  cons := .argumentsCons

theorem collects_argumentsStep {before : List Argument}
    {p : Progress (List Argument) (List Argument)} {c c' : Cursor}
    (ok : argumentsStep inner before c = .ok p c') :
    Collects (fun list => Written n (.arguments list)) before c p c' :=
  collects_separatedStep separates_arguments (reads_readArgument h) ok

/-- The arguments of a call with their parentheses. -/
theorem readArguments_reads {list : List Argument} {c c' : Cursor}
    (ok : readArguments inner c = .ok list c') :
    ∃ p ts k, p.kind = .punctuator .openParen ∧ k.kind = .punctuator .closeParen ∧
      c.Took (p :: (ts ++ [k])) c' ∧ Written n (.arguments list) ts (k :: c'.rest) := by
  obtain ⟨p, c₁, first, ok⟩ := bind_eq_ok.1 ok
  obtain ⟨took, openKind⟩ := expect_took first
  obtain ⟨more, c₂, second, ok⟩ := bind_eq_ok.1 ok
  obtain ⟨list', ts, rfl, took', written⟩ := loop_collects (collects_argumentsStep h) second
  obtain ⟨k, c₃, third, ok⟩ := bind_eq_ok.1 ok
  obtain ⟨took'', closeKind⟩ := expect_took third
  obtain ⟨rfl, rfl⟩ := pure_eq_ok.1 ok
  rw [took''.rest] at written
  exact ⟨p, ts, k, openKind, closeKind, took.cons (took'.trans took''), written⟩

/-! ## Literals -/

omit h in
theorem readNumeral_reads {t : Lexeme} {value : Nat} {c c' : Cursor}
    (ok : readNumeral t c = .ok value c') : Numeral.value? t.text = some value ∧ c = c' := by
  unfold readNumeral Numeral.decode at ok
  cases eq : Numeral.value? t.text with
  | none =>
    rw [eq] at ok
    exact absurd ok throw_ne_ok
  | some v =>
    rw [eq] at ok
    obtain ⟨rfl, rfl⟩ := pure_eq_ok.1 ok
    exact ⟨rfl, rfl⟩

theorem collects_arrayStep {before : List ArrayElement}
    {p : Progress (List ArrayElement) (List ArrayElement)} {c c' : Cursor}
    (ok : arrayStep inner before c = .ok p c') :
    Collects (Closed (.punctuator .closeBracket) fun es => Written n (.elements es))
      before c p c' := by
  obtain ⟨next, c₁, look, ok⟩ := bind_eq_ok.1 ok
  obtain ⟨head, rfl⟩ := peek?_eq_ok.1 look
  cases next with
  | none => exact absurd ok failAtEnd_ne_ok
  | some t =>
    dsimp only at ok
    split at ok
    · next close =>
      obtain ⟨_, c₂, first, ok⟩ := bind_eq_ok.1 ok
      obtain ⟨rfl, rfl⟩ := pure_eq_ok.1 ok
      exact .done (by simp) (advance_took head first) ⟨[], t, rfl, close, .elementsNil⟩
    split at ok
    · next comma =>
      obtain ⟨_, c₂, first, ok⟩ := bind_eq_ok.1 ok
      obtain ⟨rfl, rfl⟩ := pure_eq_ok.1 ok
      refine .again (List.cons_ne_nil _ _) (advance_took head first) ?_
      rintro more _ rest _ ⟨us, k, rfl, close, tail⟩
      exact ⟨t :: us, k, rfl, close, .elementsHole comma tail⟩
    obtain ⟨a, c₂, first, ok⟩ := bind_eq_ok.1 ok
    obtain ⟨ts, took, written⟩ := reads_readArgument h first
    obtain ⟨comma?, c₃, second, ok⟩ := bind_eq_ok.1 ok
    cases comma? with
    | some m =>
      obtain ⟨took', kind⟩ := accept?_took second
      obtain ⟨rfl, rfl⟩ := pure_eq_ok.1 ok
      refine .again (by simp) (took.trans took') ?_
      rintro more _ rest eq ⟨us, k, rfl, close, tail⟩
      rw [took'.rest, eq, List.append_assoc us] at written
      exact ⟨ts ++ m :: us, k, by simp, close, .elementsCons kind written tail⟩
    | none =>
      obtain ⟨rfl, _⟩ := accept?_eq_none second
      obtain ⟨k, c₄, third, ok⟩ := bind_eq_ok.1 ok
      obtain ⟨took', close⟩ := expect_took third
      obtain ⟨rfl, rfl⟩ := pure_eq_ok.1 ok
      rw [took'.rest] at written
      exact .done (by simp) (took.trans took') ⟨ts, k, rfl, close, .elementsLast written⟩

theorem readPropertyKey_reads {t : Lexeme} :
    ReadsFrom t n .key (readPropertyKey inner t) := by
  intro c key c' head ok
  unfold readPropertyKey at ok
  cases start : t.kind.keyStart with
  | name =>
    rw [start] at ok
    obtain ⟨_, c₁, first, ok⟩ := bind_eq_ok.1 ok
    obtain ⟨rfl, rfl⟩ := pure_eq_ok.1 ok
    exact ⟨[], advance_took head first, .keyName start⟩
  | string =>
    rw [start] at ok
    obtain ⟨_, c₁, first, ok⟩ := bind_eq_ok.1 ok
    obtain ⟨rfl, rfl⟩ := pure_eq_ok.1 ok
    exact ⟨[], advance_took head first, .keyString start⟩
  | number =>
    rw [start] at ok
    obtain ⟨_, c₁, first, ok⟩ := bind_eq_ok.1 ok
    obtain ⟨value, c₂, second, ok⟩ := bind_eq_ok.1 ok
    obtain ⟨isValue, rfl⟩ := readNumeral_reads second
    obtain ⟨rfl, rfl⟩ := pure_eq_ok.1 ok
    exact ⟨[], advance_took head first, .keyNumber start isValue⟩
  | computed =>
    rw [start] at ok
    obtain ⟨_, c₁, first, ok⟩ := bind_eq_ok.1 ok
    obtain ⟨e, c₂, second, ok⟩ := bind_eq_ok.1 ok
    obtain ⟨ts, took, written⟩ := h.assignment second
    obtain ⟨k, c₃, third, ok⟩ := bind_eq_ok.1 ok
    obtain ⟨took', close⟩ := expect_took third
    obtain ⟨rfl, rfl⟩ := pure_eq_ok.1 ok
    rw [took'.rest] at written
    exact ⟨ts ++ [k], (advance_took head first).cons (took.trans took'),
      .keyComputed start close written⟩
  | other =>
    rw [start] at ok
    exact absurd ok throw_ne_ok

/-- The value of a property with the colon before it. -/
theorem readPropertyValue_reads {key : PropertyKey} {start : Nat} {m : ObjectMember}
    {c c' : Cursor} (ok : readPropertyValue inner key start c = .ok m c') :
    ∃ value k ts, m = .property key value (.ofBounds start (stopAfter k.span.stop ts)) ∧
      k.kind = .punctuator .colon ∧ c.Took (k :: ts) c' ∧
      Written n (.assignment value) ts c'.rest := by
  obtain ⟨paren, c₁, look, ok⟩ := bind_eq_ok.1 ok
  cases paren with
  | true =>
    obtain ⟨_, _, _, ok⟩ := bind_eq_ok.1 ok
    exact absurd ok throw_ne_ok
  | false =>
    obtain ⟨rfl, _⟩ := nextIs_eq_false look
    obtain ⟨k, c₂, first, ok⟩ := bind_eq_ok.1 ok
    obtain ⟨took, kind⟩ := expect_took first
    obtain ⟨value, c₃, second, ok⟩ := bind_eq_ok.1 ok
    obtain ⟨ts, took', written⟩ := h.assignment second
    obtain ⟨rfl, rfl⟩ := returnSpan_eq_ok.1 ok
    rw [(took.cons took').lastStop]
    exact ⟨value, k, ts, rfl, kind, took.cons took', written⟩

theorem reads_readMember : Reads n .member (readMember inner) := by
  intro c m c' ok
  obtain ⟨dots?, c₁, first, ok⟩ := bind_eq_ok.1 ok
  cases dots? with
  | some dots =>
    obtain ⟨took, kind⟩ := accept?_took first
    obtain ⟨e, c₂, second, ok⟩ := bind_eq_ok.1 ok
    obtain ⟨rfl, rfl⟩ := returnSpan_eq_ok.1 ok
    obtain ⟨ts, took', written⟩ := h.assignment second
    rw [(took.cons took').lastStop]
    exact ⟨dots :: ts, took.cons took', .memberSpread kind written⟩
  | none =>
    obtain ⟨rfl, _⟩ := accept?_eq_none first
    obtain ⟨next, c₂, look, ok⟩ := bind_eq_ok.1 ok
    obtain ⟨head, rfl⟩ := peek?_eq_ok.1 look
    cases next with
    | none => exact absurd ok failAtEnd_ne_ok
    | some t =>
      obtain ⟨_, c₂, second, ok⟩ := bind_eq_ok.1 ok
      obtain ⟨rfl, rfl⟩ := get_eq_ok.1 second
      split at ok
      · next short =>
        obtain ⟨_, c₂, third, ok⟩ := bind_eq_ok.1 ok
        obtain ⟨rfl, rfl⟩ := pure_eq_ok.1 ok
        have took := advance_took head third
        rw [took.rest] at short
        exact ⟨[t], took, .shorthand short⟩
      · obtain ⟨key, c₂, third, ok⟩ := bind_eq_ok.1 ok
        obtain ⟨ts, took, isKey⟩ := readPropertyKey_reads h head third
        obtain ⟨value, k, us, rfl, colon, took', written⟩ := readPropertyValue_reads h ok
        rw [took'.rest] at isKey
        exact ⟨t :: (ts ++ k :: us), took.trans took', .property colon isKey written⟩

omit h in
theorem separates_members :
    Separates (fun m => Written n (.member m)) (fun ms => Written n (.members ms)) where
  nil := .membersNil
  last := .membersLast
  cons := .membersCons

theorem collects_objectStep {before : List ObjectMember}
    {p : Progress (List ObjectMember) (List ObjectMember)} {c c' : Cursor}
    (ok : objectStep inner before c = .ok p c') :
    Collects (fun ms => Written n (.members ms)) before c p c' :=
  collects_separatedStep separates_members (reads_readMember h) ok

/-! ## Primary expressions -/

omit h in
theorem readMetaName_reads {name : String} {u : Unit} {c c' : Cursor}
    (ok : readMetaName name c = .ok u c') :
    ∃ t, c.Took [t] c' ∧ t.kind = .identifier ∧ t.text = name.toList := by
  obtain ⟨t, c₁, first, ok⟩ := bind_eq_ok.1 ok
  obtain ⟨took, kind⟩ := expect_took first
  split at ok
  · exact absurd ok throw_ne_ok
  · next same =>
    obtain ⟨_, rfl⟩ := pure_eq_ok.1 ok
    exact ⟨t, took, kind, by simpa using same⟩

theorem readArray_reads {b : Lexeme} (start : b.primaryStart = .array) :
    ReadsFrom b n .primary (readArray inner) := by
  intro c e c' head ok
  obtain ⟨c₁, took, ok⟩ := getAdvance_took head ok
  obtain ⟨es, c₂, first, ok⟩ := bind_eq_ok.1 ok
  obtain ⟨_, _, rfl, took', us, k, rfl, close, written⟩ :=
    loop_collects (collects_arrayStep h) first
  obtain ⟨rfl, rfl⟩ := returnSpan_eq_ok.1 ok
  rw [(took.cons took').lastStop, ← List.cons_append, stopAfter_append, Cursor.nextSpan_of_head head]
  exact ⟨us ++ [k], took.cons took', .array start close written⟩

theorem readObject_reads {b : Lexeme} (start : b.primaryStart = .object) :
    ReadsFrom b n .primary (readObject inner) := by
  intro c e c' head ok
  obtain ⟨c₁, took, ok⟩ := getAdvance_took head ok
  obtain ⟨ms, c₂, first, ok⟩ := bind_eq_ok.1 ok
  obtain ⟨_, us, rfl, took', written⟩ := loop_collects (collects_objectStep h) first
  obtain ⟨k, c₃, second, ok⟩ := bind_eq_ok.1 ok
  obtain ⟨took'', close⟩ := expect_took second
  obtain ⟨rfl, rfl⟩ := returnSpan_eq_ok.1 ok
  rw [took''.rest] at written
  rw [((took.cons took').trans took'').lastStop, stopAfter_append, Cursor.nextSpan_of_head head]
  exact ⟨us ++ [k], (took.cons took').trans took'', .object start close written⟩

theorem readParenthesized_reads {p : Lexeme} (start : p.primaryStart = .parenthesized) :
    ReadsFrom p n .primary (readParenthesized inner) := by
  intro c e c' head ok
  obtain ⟨c₁, took, ok⟩ := getAdvance_took head ok
  obtain ⟨inside, c₂, first, ok⟩ := bind_eq_ok.1 ok
  obtain ⟨us, took', written⟩ := reads_read h first
  obtain ⟨k, c₃, second, ok⟩ := bind_eq_ok.1 ok
  obtain ⟨took'', close⟩ := expect_took second
  obtain ⟨rfl, rfl⟩ := returnSpan_eq_ok.1 ok
  rw [took''.rest] at written
  rw [((took.cons took').trans took'').lastStop, stopAfter_append, Cursor.nextSpan_of_head head]
  exact ⟨us ++ [k], (took.cons took').trans took'', .parenthesized start close written⟩

omit h in
theorem readImportMeta_reads {i : Lexeme} (start : i.primaryStart = .importWord) :
    ReadsFrom i n .primary (readImportMeta i) := by
  intro c e c' head ok
  obtain ⟨kind, _, look, ok⟩ := bind_eq_ok.1 ok
  obtain ⟨second, rfl⟩ := peekKind?_eq_ok.1 look
  split at ok
  · next isDot =>
    obtain ⟨_, c₁, first, ok⟩ := bind_eq_ok.1 ok
    have took := advance_took head first
    rw [took.rest, isDot] at second
    obtain ⟨d, head', dot⟩ := Option.map_eq_some_iff.1 second
    obtain ⟨_, c₂, skip, ok⟩ := bind_eq_ok.1 ok
    have took' := advance_took (by simpa [List.head?_eq_getElem?] using head') skip
    obtain ⟨_, c₃, third, ok⟩ := bind_eq_ok.1 ok
    obtain ⟨m, took'', kind, isMeta⟩ := readMetaName_reads third
    obtain ⟨rfl, rfl⟩ := returnSpan_eq_ok.1 ok
    rw [(took.cons (took'.cons took'')).lastStop]
    exact ⟨[d, m], took.cons (took'.cons took''), .importMeta start dot kind isMeta⟩
  · exact absurd ok throw_ne_ok

omit h in
theorem readNumber_reads {t : Lexeme} {e : Expr} {c c' : Cursor} (start : t.primaryStart = .number)
    (ok : readNumber t c = .ok e c') : c = c' ∧ Written n (.primary e) [t] c.rest := by
  obtain ⟨_, _, first, ok⟩ := bind_eq_ok.1 ok
  obtain ⟨rfl, rfl⟩ := get_eq_ok.1 first
  cases detached : attachedSuffix? t c.rest with
  | some span =>
    rw [detached] at ok
    exact absurd ok throw_ne_ok
  | none =>
    rw [detached] at ok
    obtain ⟨value, c₁, second, ok⟩ := bind_eq_ok.1 ok
    obtain ⟨isValue, rfl⟩ := readNumeral_reads second
    obtain ⟨rfl, rfl⟩ := pure_eq_ok.1 ok
    exact ⟨rfl, .number start isValue detached⟩

theorem reads_readPrimary : Reads n .primary (readPrimary inner) := by
  intro c e c' ok
  obtain ⟨next, _, look, ok⟩ := bind_eq_ok.1 ok
  obtain ⟨head, rfl⟩ := peek?_eq_ok.1 look
  cases next with
  | none => exact absurd ok failAtEnd_ne_ok
  | some t =>
    dsimp only at ok
    cases start : t.primaryStart with
    | number =>
      rw [start] at ok
      obtain ⟨_, c₁, first, ok⟩ := bind_eq_ok.1 ok
      obtain ⟨rfl, written⟩ := readNumber_reads start ok
      exact ⟨[t], advance_took head first, written⟩
    | leaf l =>
      rw [start] at ok
      obtain ⟨_, c₁, first, ok⟩ := bind_eq_ok.1 ok
      obtain ⟨rfl, rfl⟩ := pure_eq_ok.1 ok
      exact ⟨[t], advance_took head first, .leaf start⟩
    | importWord =>
      rw [start] at ok
      obtain ⟨ts, took, written⟩ := readImportMeta_reads start head ok
      exact ⟨t :: ts, took, written⟩
    | parenthesized =>
      rw [start] at ok
      obtain ⟨ts, took, written⟩ := readParenthesized_reads h start head ok
      exact ⟨t :: ts, took, written⟩
    | array =>
      rw [start] at ok
      obtain ⟨ts, took, written⟩ := readArray_reads h start head ok
      exact ⟨t :: ts, took, written⟩
    | object =>
      rw [start] at ok
      obtain ⟨ts, took, written⟩ := readObject_reads h start head ok
      exact ⟨t :: ts, took, written⟩
    | unsupported | other =>
      rw [start] at ok
      exact absurd ok throw_ne_ok

end Expr

end EcmaFront
