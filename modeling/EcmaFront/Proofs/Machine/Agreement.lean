import EcmaFront.Proofs.Machine.Parser
import EcmaFront.Proofs.Tree.Reading

/-!
# Steps that agree with readers

A parser and a cursor that stand at the same place have the same tokens left (`Parser.Stands`). There
a step of the parser agrees with a reader if it meets no fault, gives what the reader gives, and
leaves the parser where the reader leaves the cursor (`Agrees`).

The two may differ in the end of the last token, as long as none has been taken: a parser that starts
late remembers a token that the cursor has never seen. Once a token is taken they are the same again
(`Moves.lastStop`), and only then is that end asked for (`After`, `Agrees.spanFrom`).
-/

namespace EcmaFront

namespace TokenSequence

variable {s : TokenSequence}

/-- The tokens lie in their source, which positions cover, and their texts stand there. -/
structure Fits (s : TokenSequence) : Prop where
  size_le : Text.size s.source ≤ maxPosition
  stop_le : ∀ t ∈ s.toList, t.span.stop ≤ Text.size s.source
  slice_eq : ∀ t ∈ s.toList, t.span.slice s.source = some (s.text t)

/-- The span lies in the source. -/
def Covers (s : TokenSequence) (span : Span) : Prop := span.stop ≤ Text.size s.source

theorem Covers.start_le {span : Span} (h : s.Covers span) : span.start ≤ Text.size s.source :=
  Nat.le_trans span.start_le_stop h

/-- The end of the last one of the first `n` tokens, if there is one. -/
def stopBefore (s : TokenSequence) : Nat → Nat
  | 0 => 0
  | i + 1 => ((s.get? i).map (·.span.stop)).getD 0

theorem getElem?_lexemes (s : TokenSequence) (i : Nat) :
    s.lexemes[i]? = (s.get? i).map fun t => ⟨t.kind, t.span, s.text t⟩ := by
  simp [lexemes, get?, toList]

theorem mem_of_get? {i : Nat} {t : Token} (h : s.get? i = some t) : t ∈ s.toList :=
  Array.mem_toList_iff.2 (Array.mem_of_getElem? h)

theorem lt_length_of_get? {i : Nat} {t : Token} (h : s.get? i = some t) : i < s.length :=
  (Array.getElem?_eq_some_iff.1 h).1

namespace Fits

theorem cut_eq (h : s.Fits) {t : Token} (mem : t ∈ s.toList) :
    s.cut t = .ok ⟨t.kind, t.span, s.text t⟩ := by
  have small := Nat.le_trans (h.stop_le t mem) h.size_le
  simp [cut, Span.checkedStop_eq small, h.slice_eq t mem, bind, Except.bind, pure, Except.pure]

theorem stopBefore_le (h : s.Fits) (n : Nat) : s.stopBefore n ≤ Text.size s.source := by
  cases n with
  | zero => exact Nat.zero_le _
  | succ i =>
    rw [stopBefore]
    cases found : s.get? i with
    | none => exact Nat.zero_le _
    | some t => exact h.stop_le t (mem_of_get? found)

end Fits

end TokenSequence

namespace Parser

variable {tokens : TokenSequence} {depth : Nat} {p₀ p p' p'' : Parser} {c c' c'' : Cursor}

/-- The parser, when so many forms are open. -/
def withDepth (p : Parser) (depth : Nat) : Parser := { p with depth := depth }

/-- The parser, in which `depth` forms are open, and the cursor stand at the same token. -/
structure Stands (tokens : TokenSequence) (depth : Nat) (p : Parser) (c : Cursor) : Prop where
  fits : tokens.Fits
  tokens_eq : p.tokens = tokens
  depth_eq : p.depth = depth
  position_le : p.position ≤ tokens.length
  lastStop_eq : p.lastStop = tokens.stopBefore p.position
  rest_eq : c.rest = tokens.lexemes.drop p.position
  sourceStop_eq : c.sourceStop = Text.size tokens.source

/-- The parser and the cursor move forward. -/
structure Moves (tokens : TokenSequence) (depth : Nat) (p : Parser) (c : Cursor) (p' : Parser)
    (c' : Cursor) : Prop where
  stands : Stands tokens depth p' c'
  le : p.position ≤ p'.position
  lastStop : c.lastStop = p.lastStop ∨ p.position < p'.position → c'.lastStop = p'.lastStop

/-- The parser and the cursor stand at the same token, after one that they have taken. -/
structure After (tokens : TokenSequence) (depth : Nat) (p₀ p : Parser) (c : Cursor) : Prop where
  stands : Stands tokens depth p c
  lt : p₀.position < p.position
  lastStop : c.lastStop = p.lastStop

namespace Stands

theorem start (fits : tokens.Fits) : Stands tokens 0 (.start tokens) (.start tokens) :=
  ⟨fits, rfl, rfl, Nat.zero_le _, rfl, rfl, rfl⟩

theorem moves (h : Stands tokens depth p c) : Moves tokens depth p c p c where
  stands := h
  le := Nat.le_refl _
  lastStop same := same.resolve_right (Nat.lt_irrefl _)

theorem getElem?_rest (h : Stands tokens depth p c) (i : Nat) :
    c.rest[i]? = (p.tokens.get? (p.position + i)).map fun t =>
      ⟨t.kind, t.span, p.tokens.text t⟩ := by
  rw [h.rest_eq, List.getElem?_drop, TokenSequence.getElem?_lexemes, h.tokens_eq]

theorem head?_rest (h : Stands tokens depth p c) :
    c.rest.head? = (p.tokens.get? p.position).map fun t =>
      ⟨t.kind, t.span, p.tokens.text t⟩ := by
  rw [List.head?_eq_getElem?, h.getElem?_rest, Nat.add_zero]

theorem length_rest (h : Stands tokens depth p c) :
    c.rest.length = tokens.length - p.position := by
  rw [h.rest_eq, List.length_drop]
  simp [TokenSequence.lexemes, TokenSequence.toList, TokenSequence.length]

/-- The next token lies in the source. -/
theorem covers (h : Stands tokens depth p c) {i : Nat} {t : Lexeme} (next : c.rest[i]? = some t) :
    tokens.Covers t.span := by
  rw [h.getElem?_rest] at next
  obtain ⟨t', found, rfl⟩ := Option.map_eq_some_iff.1 next
  rw [h.tokens_eq] at found
  exact h.fits.stop_le t' (TokenSequence.mem_of_get? found)

theorem covers_head (h : Stands tokens depth p c) {t : Lexeme} (next : c.rest.head? = some t) :
    tokens.Covers t.span := h.covers (List.head?_eq_getElem? ▸ next)

theorem nextSpan_eq (h : Stands tokens depth p c) : p.nextSpan = c.nextSpan := by
  have head := h.head?_rest
  unfold nextSpan Cursor.nextSpan
  cases rest : c.rest with
  | nil =>
    rw [rest] at head
    rw [Option.map_eq_none_iff.1 head.symm, h.tokens_eq, h.sourceStop_eq]
  | cons t rest' =>
    rw [rest] at head
    obtain ⟨t', found, eq⟩ := Option.map_eq_some_iff.1 head.symm
    rw [found, ← eq]

theorem covers_nextSpan (h : Stands tokens depth p c) :
    c.nextSpan.start ≤ Text.size tokens.source := by
  unfold Cursor.nextSpan
  split
  · next t rest eq => exact (h.covers_head (t := t) (by rw [eq]; rfl)).start_le
  · exact Nat.le_of_eq h.sourceStop_eq

theorem lastStop_le (h : Stands tokens depth p c) : p.lastStop ≤ Text.size tokens.source :=
  h.lastStop_eq ▸ h.fits.stopBefore_le _

end Stands

theorem Stands.withDepth (h : Stands tokens depth p c) (n : Nat) :
    Stands tokens n (p.withDepth n) c :=
  ⟨h.fits, h.tokens_eq, rfl, h.position_le, h.lastStop_eq, h.rest_eq, h.sourceStop_eq⟩

namespace Moves

theorem trans (h : Moves tokens depth p c p' c') (h' : Moves tokens depth p' c' p'' c'') :
    Moves tokens depth p c p'' c'' where
  stands := h'.stands
  le := Nat.le_trans h.le h'.le
  lastStop same := by
    refine h'.lastStop ?_
    have := h.le
    obtain same | moved := same
    · exact .inl (h.lastStop (.inl same))
    · by_cases first : p.position < p'.position
      · exact .inl (h.lastStop (.inr first))
      · exact .inr (by omega)

theorem after (h : Moves tokens depth p c p' c') (lt : p.position < p'.position) :
    After tokens depth p p' c' := ⟨h.stands, lt, h.lastStop (.inr lt)⟩

end Moves

theorem After.step (h : After tokens depth p₀ p c) (moves : Moves tokens depth p c p' c') :
    After tokens depth p₀ p' c' :=
  ⟨moves.stands, Nat.lt_of_lt_of_le h.lt moves.le, moves.lastStop (.inl h.lastStop)⟩

theorem After.of_le (h : After tokens depth p p' c') (le : p₀.position ≤ p.position) :
    After tokens depth p₀ p' c' := ⟨h.stands, Nat.lt_of_le_of_lt le h.lt, h.lastStop⟩

/-- At the parser and the cursor the step meets no fault and does what the reader does; `Q` tells of
the result and of the places that are reached with it. -/
inductive Agrees (tokens : TokenSequence) (depth : Nat) {α : Type} (x : Step α) (r : Reader α)
    (p : Parser) (c : Cursor) (Q : α → Parser → Cursor → Prop) : Prop
  | ok {a : α} {p' : Parser} {c' : Cursor} (run : x p = .ok (.ok a, p')) (read : r c = .ok a c')
    (moves : Moves tokens depth p c p' c') (post : Q a p' c')
  | error {e : SyntaxError} {p' : Parser} {c' : Cursor} (run : x p = .ok (.error e, p'))
    (read : r c = .error e c') (moves : Moves tokens depth p c p' c')
    (inside : e.offset ≤ Text.size tokens.source)

/-- The step has taken a token and given an expression in the source. -/
def Parsed (tokens : TokenSequence) (depth : Nat) (p₀ : Parser) (e : Expr) (p : Parser)
    (c : Cursor) : Prop := After tokens depth p₀ p c ∧ tokens.Covers e.span

namespace Agrees

open Checked (bind_ok bind_error)
open Reader (Progress)

variable {α β σ : Type} {x : Step α} {f : α → Step β} {r : Reader α} {g : α → Reader β}
  {Q : α → Parser → Cursor → Prop} {Q' : β → Parser → Cursor → Prop}

/-! ## Sequences -/

theorem mono {Q₁ Q₂ : α → Parser → Cursor → Prop} (h : Agrees tokens depth x r p c Q₁)
    (le : ∀ {a p' c'}, Moves tokens depth p c p' c' → Q₁ a p' c' → Q₂ a p' c') :
    Agrees tokens depth x r p c Q₂ := by
  cases h with
  | ok run read moves post => exact .ok run read moves (le moves post)
  | error run read moves inside => exact .error run read moves inside

theorem pure (h : Stands tokens depth p c) {a : α} (post : Q a p c) :
    Agrees tokens depth (Pure.pure a) (Pure.pure a) p c Q := .ok rfl rfl h.moves post

theorem throw (h : Stands tokens depth p c) {e : SyntaxError}
    (inside : e.offset ≤ Text.size tokens.source) :
    Agrees tokens depth (throw e : Step α) (MonadExcept.throw e) p c Q :=
  .error rfl rfl h.moves inside

theorem throw_bind (h : Stands tokens depth p c) {e : SyntaxError} {f : α → Step β}
    {g : α → Reader β} (inside : e.offset ≤ Text.size tokens.source) :
    Agrees tokens depth (MonadExcept.throw e >>= f) (MonadExcept.throw e >>= g) p c Q' :=
  .error rfl rfl h.moves inside

theorem throw_bind_right (h : Stands tokens depth p c) {e : SyntaxError} {g : α → Reader β}
    (inside : e.offset ≤ Text.size tokens.source) :
    Agrees tokens depth (MonadExcept.throw e) (MonadExcept.throw e >>= g) p c Q' :=
  .error rfl rfl h.moves inside

/-- What agrees after a move agrees before it. -/
theorem of_moves {x' : Step α} {r' : Reader α} (moves : Moves tokens depth p c p' c')
    (run : x' p = x p') (read : r' c = r c') (h : Agrees tokens depth x r p' c' Q) :
    Agrees tokens depth x' r' p c Q := by
  cases h with
  | ok run' read' moves' post =>
    exact .ok (run.trans run') (read.trans read') (moves.trans moves') post
  | error run' read' moves' inside =>
    exact .error (run.trans run') (read.trans read') (moves.trans moves') inside

/-- Both go on from where they have moved to, each with its own result. -/
theorem after_ok {α' : Type} {r : Reader α'} {g : α' → Reader β} {a : α} {a' : α'}
    (moves : Moves tokens depth p c p' c') (run : x p = .ok (.ok a, p')) (read : r c = .ok a' c')
    (h : Agrees tokens depth (f a) (g a') p' c' Q') :
    Agrees tokens depth (x >>= f) (r >>= g) p c Q' :=
  of_moves moves (bind_ok run) (Reader.bind_of_ok read g) h

theorem bind (h : Agrees tokens depth x r p c Q)
    (next : ∀ {a p' c'}, Moves tokens depth p c p' c' → Q a p' c' →
      Agrees tokens depth (f a) (g a) p' c' Q') :
    Agrees tokens depth (x >>= f) (r >>= g) p c Q' := by
  cases h with
  | ok run read moves post =>
    exact after_ok moves run read (next moves post)
  | error run read moves inside =>
    exact .error (bind_error run) (by simp [Bind.bind, EStateM.bind, read]) moves inside

/-- After the first token the two agree on its end. -/
theorem andThen (after : After tokens depth p₀ p c) (h : Agrees tokens depth x r p c Q)
    (next : ∀ {a p' c'}, After tokens depth p₀ p' c' → Q a p' c' →
      Agrees tokens depth (f a) (g a) p' c' Q') :
    Agrees tokens depth (x >>= f) (r >>= g) p c Q' :=
  h.bind fun moves post => next (after.step moves) post

/-! ## Looking ahead -/

theorem current_run (h : Stands tokens depth p c) : Step.current p = .ok (.ok c.rest.head?, p) := by
  rw [h.head?_rest, Step.current]
  cases found : p.tokens.get? p.position with
  | none => rfl
  | some t =>
    have mem := TokenSequence.mem_of_get? found
    simp [(h.tokens_eq ▸ h.fits : p.tokens.Fits).cut_eq mem, Except.map]

theorem current (h : Stands tokens depth p c) {f : Option Lexeme → Step β}
    {g : Option Lexeme → Reader β}
    (none : c.rest.head? = none → Agrees tokens depth (f none) (g none) p c Q')
    (some : ∀ {t}, c.rest.head? = some t → Agrees tokens depth (f (some t)) (g (some t)) p c Q') :
    Agrees tokens depth (Step.current >>= f) (Reader.peek? >>= g) p c Q' := by
  refine after_ok h.moves (current_run h) rfl ?_
  cases head : c.rest.head? with
  | none => exact none head
  | some t => exact some head

theorem peekKind_run (h : Stands tokens depth p c) (ahead : Nat) :
    Step.peekKind? ahead p = .ok (.ok (c.rest[ahead]?.map (·.kind)), p) := by
  rw [h.getElem?_rest, Step.peekKind?, Option.map_map]
  rfl

theorem peekKind (h : Stands tokens depth p c) {ahead : Nat} {f : Option TokenKind → Step β}
    {g : Option TokenKind → Reader β}
    (next : ∀ kind, c.rest[ahead]?.map (·.kind) = kind →
      Agrees tokens depth (f kind) (g kind) p c Q') :
    Agrees tokens depth (Step.peekKind? ahead >>= f) (Reader.peekKind? ahead >>= g) p c Q' :=
  after_ok h.moves (peekKind_run h ahead) rfl (next _ rfl)

/-- The step looks ahead, which the reader does not. -/
theorem lookAhead (h : Stands tokens depth p c) {ahead : Nat} {f : Option TokenKind → Step β}
    {r : Reader β} (next : Agrees tokens depth (f (c.rest[ahead]?.map (·.kind))) r p c Q') :
    Agrees tokens depth (Step.peekKind? ahead >>= f) r p c Q' :=
  of_moves h.moves (bind_ok (peekKind_run h ahead)) rfl next

theorem nextIs_run (h : Stands tokens depth p c) (kind : TokenKind) :
    Step.nextIs kind p = .ok (.ok (c.rest.head?.any (·.kind == kind)), p) := by
  rw [h.head?_rest, Step.nextIs, Option.any_map]

theorem ifNextIs (h : Stands tokens depth p c) {kind : TokenKind} {x y : Step β} {r s : Reader β}
    (yes : ∀ t, c.rest.head? = some t → t.kind = kind → Agrees tokens depth x r p c Q')
    (no : Agrees tokens depth y s p c Q') :
    Agrees tokens depth (Step.nextIs kind >>= fun b => if b then x else y)
      (Reader.nextIs kind >>= fun b => if b then r else s) p c Q' := by
  refine after_ok h.moves (nextIs_run h kind) rfl ?_
  cases next : c.rest.head?.any (·.kind == kind) with
  | false => exact no
  | true =>
    obtain ⟨t, head, same⟩ := (Option.any_eq_true _ _).1 next
    exact yes t head (by simpa using same)

/-- The reader looks at its cursor, which the step does not. -/
theorem get {g : Cursor → Reader α} (h : Agrees tokens depth x (g c) p c Q) :
    Agrees tokens depth x (MonadState.get >>= g) p c Q := by
  cases h with
  | ok run read moves post => exact .ok run read moves post
  | error run read moves inside => exact .error run read moves inside

theorem check {v : Checked α} {a : α} (eq : v = .ok a) (h : Stands tokens depth p c)
    {r : Reader β} (next : Agrees tokens depth (f a) r p c Q') :
    Agrees tokens depth (Checked.check v >>= f) r p c Q' :=
  of_moves h.moves (bind_ok (Checked.check_run eq p)) rfl next

/-! ## Taking tokens -/

theorem bump_run (h : Stands tokens depth p c) {t : Lexeme} (head : c.rest.head? = some t) :
    Step.bump p = .ok (.ok t, { p with position := p.position + 1, lastStop := t.span.stop }) := by
  rw [h.head?_rest] at head
  obtain ⟨t', found, rfl⟩ := Option.map_eq_some_iff.1 head
  have mem := TokenSequence.mem_of_get? found
  have fits : p.tokens.Fits := h.tokens_eq ▸ h.fits
  have small := Nat.le_trans (fits.stop_le t' mem) fits.size_le
  simp [Step.bump, found, fits.cut_eq mem, Span.checkedStop_eq small, Bind.bind, Except.bind,
    Pure.pure, Except.pure]

theorem advance_run {t : Lexeme} (head : c.rest.head? = some t) :
    Reader.advance c = .ok () (c.past t c.rest.tail) := by
  unfold Reader.advance
  split
  · next eq =>
    rw [eq] at head
    obtain rfl := Option.some.inj head
    rw [eq]
    rfl
  · next eq => simp [eq] at head

theorem moves_bump (h : Stands tokens depth p c) {t : Lexeme} (head : c.rest.head? = some t) :
    Moves tokens depth p c { p with position := p.position + 1, lastStop := t.span.stop }
      (c.past t c.rest.tail) := by
  have next := head
  rw [h.head?_rest] at next
  obtain ⟨t', found, rfl⟩ := Option.map_eq_some_iff.1 next
  refine ⟨⟨h.fits, h.tokens_eq, h.depth_eq, ?_, ?_, ?_, h.sourceStop_eq⟩, Nat.le_succ _, fun _ => rfl⟩
  · rw [← h.tokens_eq]
    exact TokenSequence.lt_length_of_get? found
  · rw [← h.tokens_eq]
    simp [TokenSequence.stopBefore, found]
  · change c.rest.tail = _
    rw [h.rest_eq, List.tail_drop]

/-- The step takes the token that is known to come next. -/
theorem bump (h : Stands tokens depth p c) {t : Lexeme} (head : c.rest.head? = some t)
    {f : Lexeme → Step β} {g : Unit → Reader β}
    (next : ∀ {p' c'}, Moves tokens depth p c p' c' → After tokens depth p p' c' →
      c'.rest = c.rest.tail → Agrees tokens depth (f t) (g ()) p' c' Q') :
    Agrees tokens depth (Step.bump >>= f) (Reader.advance >>= g) p c Q' := by
  have moves := moves_bump h head
  exact after_ok moves (bump_run h head) (advance_run head)
    (next moves (moves.after (Nat.lt_succ_self _)) rfl)

theorem failAtEnd (h : Stands tokens depth p c) {expected : Option TokenKind} :
    Agrees tokens depth (Step.failAtEnd expected) (Reader.failAtEnd expected : Reader α) p c Q := by
  refine .error (e := .unexpectedEnd expected (Text.size p.tokens.source)) rfl ?_ h.moves ?_
  · rw [h.tokens_eq, ← h.sourceStop_eq]
    rfl
  · rw [h.tokens_eq]
    exact Nat.le_refl _

theorem accept (h : Stands tokens depth p c) {kind : TokenKind} {f : Option Lexeme → Step β}
    {g : Option Lexeme → Reader β}
    (some : ∀ {t p' c'}, Moves tokens depth p c p' c' → After tokens depth p p' c' →
      tokens.Covers t.span → Agrees tokens depth (f (some t)) (g (some t)) p' c' Q')
    (none : Agrees tokens depth (f none) (g none) p c Q') :
    Agrees tokens depth (Step.accept? kind >>= f) (Reader.accept? kind >>= g) p c Q' := by
  have look := nextIs_run h kind
  cases found : c.rest.head?.any (·.kind == kind) with
  | true =>
    obtain ⟨t, head, same⟩ := (Option.any_eq_true _ _).1 found
    have moves := moves_bump h head
    rw [found] at look
    have run : Step.accept? kind p = .ok (.ok (.some t), _) :=
      (bind_ok look).trans (bind_ok (bump_run h head))
    have read : Reader.accept? kind c = .ok (.some t) (c.past t c.rest.tail) := by
      obtain ⟨rest, eq⟩ := List.head?_eq_some_iff.1 head
      simp [Reader.accept?, eq, (by simpa using same : t.kind = kind)]
    exact after_ok moves run read
      (some moves (moves.after (Nat.lt_succ_self _)) (h.covers_head head))
  | false =>
    rw [found] at look
    have run : Step.accept? kind p = .ok (.ok .none, p) := (bind_ok look).trans rfl
    have read : Reader.accept? kind c = .ok .none c := by
      unfold Reader.accept?
      split
      · next eq => exact if_neg (by simpa [eq] using found)
      · rfl
    exact after_ok h.moves run read none

theorem expectOr (h : Stands tokens depth p c) {mismatch : TokenKind → Span → SyntaxError}
    {kind : TokenKind} (offset : ∀ kind span, (mismatch kind span).offset = span.start) :
    Agrees tokens depth (Step.expectOr mismatch kind) (Reader.expectOr mismatch kind) p c
      fun t p' c' => After tokens depth p p' c' ∧ c.rest.head? = some t := by
  have look := current_run h
  match head : c.rest.head? with
  | none =>
    rw [head] at look
    have empty : c.rest = [] := List.head?_eq_none_iff.1 head
    have read : Reader.expectOr mismatch kind c = Reader.failAtEnd (some kind) c := by
      rw [Reader.expectOr, empty]
      rfl
    exact of_moves h.moves ((bind_ok look).trans rfl) read (failAtEnd h)
  | some t =>
    rw [head] at look
    obtain ⟨rest, eq⟩ := List.head?_eq_some_iff.1 head
    by_cases same : t.kind = kind
    · have moves := moves_bump h head
      refine .ok ((bind_ok look).trans ?_) ?_ moves ⟨moves.after (Nat.lt_succ_self _), rfl⟩
      · simp only [same, if_true]
        exact bump_run h head
      · simp [Reader.expectOr, eq, same]
    · refine .error (e := mismatch t.kind t.span) ((bind_ok look).trans ?_) ?_ h.moves ?_
      · simp only [same, if_false]
        rfl
      · simp [Reader.expectOr, eq, same]
      · rw [offset]
        exact (h.covers_head head).start_le

theorem expect (h : Stands tokens depth p c) {kind : TokenKind} :
    Agrees tokens depth (Step.expect kind) (Reader.expect kind) p c
      fun t p' c' => After tokens depth p p' c' ∧ c.rest.head? = some t :=
  expectOr h fun _ _ => rfl

theorem expectInDeclaration (h : Stands tokens depth p c) {kind : TokenKind} :
    Agrees tokens depth (Step.expectInDeclaration kind) (Reader.expectInDeclaration kind) p c
      fun t p' c' => After tokens depth p p' c' ∧ c.rest.head? = some t :=
  expectOr h fun _ _ => rfl

/-- Once a token is taken, a span up to its end is the same for both. -/
theorem spanFrom (after : After tokens depth p₀ p c) {start : Nat}
    (le : start ≤ Text.size tokens.source) {f : Span → Step β} {g : Span → Reader β}
    (next : ∀ span, tokens.Covers span → Agrees tokens depth (f span) (g span) p c Q') :
    Agrees tokens depth (Step.spanFrom start >>= f) (Reader.spanFrom start >>= g) p c Q' := by
  have ordered : start ≤ max p.lastStop start := Nat.le_max_right ..
  have run : Step.spanFrom start p = .ok (.ok (.ofBounds start (max p.lastStop start)), p) := by
    rw [Step.spanFrom, Span.checkedOfBounds_eq ordered]
    rfl
  have read : Reader.spanFrom start c = .ok (.ofBounds start (max p.lastStop start)) c := by
    rw [Reader.spanFrom, after.lastStop]
  refine after_ok after.stands.moves run read (next _ ?_)
  have := after.stands.lastStop_le
  rw [TokenSequence.Covers, Span.stop_ofBounds ordered]
  omega

/-- An expression that ends with the last token taken. -/
theorem parsed (after : After tokens depth p₀ p c) {start : Nat}
    (le : start ≤ Text.size tokens.source) {make : Span → Expr}
    (span_make : ∀ span, (make span).span = span) :
    Agrees tokens depth (do return make (← Step.spanFrom start))
      (do return make (← Reader.spanFrom start)) p c (Parsed tokens depth p₀) :=
  spanFrom after le fun span covers => pure after.stands ⟨after, (span_make span).symm ▸ covers⟩

/-! ## Loops -/

/-- What a step of a loop keeps, where each step that asks for another one takes a token. -/
def Goes (I : σ → Parser → Cursor → Prop) (Q : β → Parser → Cursor → Prop) (p : Parser) :
    Progress σ β → Parser → Cursor → Prop
  | .again s, p', c' => p.position < p'.position ∧ I s p' c'
  | .done b, p', c' => Q b p' c'

theorem loop {step : σ → Step (Progress σ β)} {step' : σ → Reader (Progress σ β)}
    {I : σ → Parser → Cursor → Prop} (h : Stands tokens depth p c) {s : σ} (init : I s p c)
    (each : ∀ s {p c}, Stands tokens depth p c → I s p c →
      Agrees tokens depth (step s) (step' s) p c (Goes I Q' p)) :
    Agrees tokens depth (Step.loop step s) (Reader.loop step' s) p c Q' := by
  suffices ∀ n, c.rest.length < n →
      Agrees tokens depth (Step.repeatUpTo step n s) (Reader.repeatUpTo step' n s) p c Q' by
    have all := this (c.rest.length + 1) (Nat.lt_succ_self _)
    have run : Step.loop step s p = Step.repeatUpTo step (c.rest.length + 1) s p := by
      rw [Step.loop, h.length_rest, h.tokens_eq]
    have read : Reader.loop step' s c = Reader.repeatUpTo step' (c.rest.length + 1) s c := rfl
    exact of_moves h.moves run read all
  intro n
  induction n generalizing s p c with
  | zero => exact fun lt => absurd lt (Nat.not_lt_zero _)
  | succ n ih =>
    intro lt
    refine (each s h init).bind fun {progress p' c'} moves goes => ?_
    cases progress with
    | done b => exact pure moves.stands goes
    | again s' =>
      refine ih moves.stands goes.2 ?_
      have := goes.1
      have := moves.stands.position_le
      have := h.length_rest
      have := moves.stands.length_rest
      omega

/-- A loop behind a token that is taken before it, with a result of no account. -/
abbrev Collects (tokens : TokenSequence) (depth : Nat) (p₀ : Parser) (x : Step (Progress σ β))
    (r : Reader (Progress σ β)) (p : Parser) (c : Cursor) : Prop :=
  Agrees tokens depth x r p c
    (Goes (fun _ => After tokens depth p₀) (fun _ => After tokens depth p₀) p)

theorem collect {step : σ → Step (Progress σ β)} {step' : σ → Reader (Progress σ β)} {s : σ}
    (after : After tokens depth p₀ p c)
    (each : ∀ s {p c}, After tokens depth p₀ p c →
      Collects tokens depth p₀ (step s) (step' s) p c) :
    Agrees tokens depth (Step.loop step s) (Reader.loop step' s) p c
      fun _ p' c' => After tokens depth p₀ p' c' :=
  loop after.stands after fun s _ _ _ after => each s after

theorem goes_again {s : σ} (after : After tokens depth p₀ p c) (more : After tokens depth p p' c') :
    Goes (fun _ => After tokens depth p₀) Q' p (.again s) p' c' :=
  ⟨more.lt, more.of_le (Nat.le_of_lt after.lt)⟩

/-! ## Nested forms -/

theorem nested_over (h : Stands tokens maxNesting p c) :
    Agrees tokens maxNesting (Step.nested x) Reader.tooDeep p c Q := by
  refine .error (e := .nestingTooDeep c.nextSpan) ?_ rfl h.moves h.covers_nextSpan
  rw [Step.nested, if_pos (Nat.le_of_eq h.depth_eq.symm), h.nextSpan_eq]

/-- One form further in, the step agrees with what the reader reads with one level less. -/
theorem nested (h : Stands tokens depth p c) (lt : depth < maxNesting)
    {Q₁ : α → Parser → Cursor → Prop}
    (inside : Agrees tokens (depth + 1) x r (p.withDepth (depth + 1)) c Q₁)
    (outside : ∀ {a p' c'}, Q₁ a p' c' → Q a (p'.withDepth depth) c') :
    Agrees tokens depth (Step.nested x) r p c Q := by
  have small : depth + 1 ≤ maxPosition := Nat.le_trans lt (by decide)
  have run {outcome : Except SyntaxError α} {p' : Parser}
      (run : x (p.withDepth (depth + 1)) = .ok (outcome, p')) (same : p'.depth = depth + 1) :
      Step.nested x p = .ok (outcome, p'.withDepth depth) := by
    have notOver : ¬ maxNesting ≤ p.depth := by rw [h.depth_eq]; omega
    rw [Step.nested, if_neg notOver, h.depth_eq, Checked.add_eq small]
    change (x (p.withDepth (depth + 1)) >>= _) = _
    rw [run]
    change (Checked.sub p'.depth 1 >>= _) = _
    rw [same, Checked.add_sub_cancel]
    rfl
  have back {p' : Parser} {c' : Cursor}
      (moves : Moves tokens (depth + 1) (p.withDepth (depth + 1)) c p' c') :
      Moves tokens depth p c (p'.withDepth depth) c' :=
    ⟨moves.stands.withDepth depth, moves.le, moves.lastStop⟩
  cases inside with
  | ok run' read moves post => exact .ok (run run' moves.stands.depth_eq) read (back moves) (outside post)
  | error run' read moves inside => exact .error (run run' moves.stands.depth_eq) read (back moves) inside

end Agrees

end Parser

end EcmaFront
