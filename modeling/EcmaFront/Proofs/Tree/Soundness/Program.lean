import EcmaFront.Proofs.Tree.Soundness.Operator

/-!
# Readers of statements and programs

The readers at each level of nesting are sound by induction on the level (`Nested.sound_within`), so
what is read from a whole sequence of tokens is a list of statements written with all of them.
-/

namespace EcmaFront

open Reader

namespace TokenKind

theorem statementStart_eq_declaration {kind : TokenKind} {d : DeclarationKind}
    (h : kind.statementStart = .declaration d) : kind = d.kind := by
  have all : ∀ kind : TokenKind, ∀ d ∈ DeclarationKind.all,
      kind.statementStart = .declaration d → kind = d.kind := by
    decide +kernel
  exact all kind d (by cases d <;> decide) h

/-- The other starts that stand for one kind of token. -/
theorem statementStart_eq (kind : TokenKind) :
    (kind.statementStart = .empty → kind = .punctuator .semicolon) ∧
      (kind.statementStart = .block ↔ kind = .punctuator .openBrace) ∧
      (kind.statementStart = .debugger → kind = .keyword .debuggerKw) := by
  revert kind
  decide +kernel

theorem ne_openBrace_of_statementStart {kind : TokenKind} (h : kind.statementStart ≠ .block) :
    kind ≠ .punctuator .openBrace :=
  fun brace => h (kind.statementStart_eq.2.1.2 brace)

end TokenKind

namespace Statement

variable {inner : Nested} {n : Nat} (h : inner.Sound n)

include h

theorem readDeclaration_reads {w : Lexeme} {kind : DeclarationKind} (isKind : w.kind = kind.kind) :
    ReadsFrom w n .statement (readDeclaration inner kind) := by
  intro c s c' head ok
  obtain ⟨_, _, first, ok⟩ := bind_eq_ok.1 ok
  obtain ⟨rfl, rfl⟩ := get_eq_ok.1 first
  rw [Cursor.nextSpan_of_head head] at ok
  obtain ⟨_, c₁, second, ok⟩ := bind_eq_ok.1 ok
  have tookWord := advance_took head second
  obtain ⟨i, c₂, third, ok⟩ := bind_eq_ok.1 ok
  obtain ⟨tookName, name⟩ := expectInDeclaration_took third
  obtain ⟨q, c₃, fourth, ok⟩ := bind_eq_ok.1 ok
  obtain ⟨tookAssign, assign⟩ := expectInDeclaration_took fourth
  obtain ⟨value, c₄, fifth, ok⟩ := bind_eq_ok.1 ok
  obtain ⟨ts, tookValue, isValue⟩ := h.assignment fifth
  obtain ⟨z, c₅, sixth, ok⟩ := bind_eq_ok.1 ok
  obtain ⟨tookEnd, semicolon⟩ := expectInDeclaration_took sixth
  obtain ⟨rfl, rfl⟩ := returnSpan_eq_ok.1 ok
  rw [tookEnd.rest] at isValue
  rw [tookEnd.lastStop]
  exact ⟨i :: q :: (ts ++ [z]),
    tookWord.cons (tookName.cons (tookAssign.cons (tookValue.trans tookEnd))),
    .declaration isKind name assign semicolon isValue⟩

theorem readExpression_reads {t : Lexeme} (notBrace : t.kind ≠ .punctuator .openBrace) :
    ReadsFrom t n .statement (readExpression inner) := by
  intro c s c' head ok
  obtain ⟨e, c₁, first, ok⟩ := bind_eq_ok.1 ok
  obtain ⟨ts, took, written⟩ := Expr.reads_read h first
  obtain ⟨z, c₂, second, ok⟩ := bind_eq_ok.1 ok
  obtain ⟨tookEnd, semicolon⟩ := expect_took second
  obtain ⟨rfl, rfl⟩ := returnSpan_eq_ok.1 ok
  obtain ⟨t', us, rfl, _⟩ := written.opening
  obtain rfl : t' = t := by simpa [took.rest] using head
  rw [tookEnd.rest] at written
  rw [tookEnd.lastStop]
  exact ⟨us ++ [z], took.trans tookEnd, .expression notBrace semicolon written⟩

theorem readFrom_reads {t : Lexeme} : ReadsFrom t n .statement (readFrom inner t) := by
  intro c s c' head ok
  unfold readFrom at ok
  cases start : t.kind.statementStart with
  | declaration kind =>
    rw [start] at ok
    exact readDeclaration_reads h (TokenKind.statementStart_eq_declaration start) head ok
  | empty =>
    rw [start] at ok
    obtain ⟨_, c₁, first, ok⟩ := bind_eq_ok.1 ok
    obtain ⟨rfl, rfl⟩ := pure_eq_ok.1 ok
    exact ⟨[], advance_took head first, .empty (t.kind.statementStart_eq.1 start)⟩
  | block =>
    rw [start] at ok
    exact h.block (t.kind.statementStart_eq.2.1.1 start) head ok
  | debugger =>
    rw [start] at ok
    obtain ⟨_, c₁, first, ok⟩ := bind_eq_ok.1 ok
    obtain ⟨z, c₂, second, ok⟩ := bind_eq_ok.1 ok
    obtain ⟨tookEnd, semicolon⟩ := expect_took second
    obtain ⟨rfl, rfl⟩ := returnSpan_eq_ok.1 ok
    rw [tookEnd.lastStop]
    exact ⟨[z], (advance_took head first).trans tookEnd,
      .debugger (t.kind.statementStart_eq.2.2 start) semicolon⟩
  | importWord =>
    rw [start] at ok
    obtain ⟨kind, _, look, ok⟩ := bind_eq_ok.1 ok
    obtain ⟨_, rfl⟩ := peekKind?_eq_ok.1 look
    split at ok
    · exact readExpression_reads h (TokenKind.ne_openBrace_of_statementStart (by simp [start]))
        head ok
    · exact absurd ok throw_ne_ok
  | unsupported =>
    rw [start] at ok
    exact absurd ok throw_ne_ok
  | expression =>
    rw [start] at ok
    exact readExpression_reads h (TokenKind.ne_openBrace_of_statementStart (by simp [start]))
      head ok

theorem collects_blockStep {before : List Statement}
    {p : Progress (List Statement) (List Statement)} {c c' : Cursor}
    (ok : blockStep inner before c = .ok p c') :
    Collects (Closed (.punctuator .closeBrace) fun list => Written n (.statements list))
      before c p c' := by
  obtain ⟨next, _, look, ok⟩ := bind_eq_ok.1 ok
  obtain ⟨head, rfl⟩ := peek?_eq_ok.1 look
  cases next with
  | none => exact absurd ok failAtEnd_ne_ok
  | some t =>
    dsimp only at ok
    split at ok
    · next close =>
      obtain ⟨_, c₁, first, ok⟩ := bind_eq_ok.1 ok
      obtain ⟨rfl, rfl⟩ := pure_eq_ok.1 ok
      exact .done (by simp) (advance_took head first) ⟨[], t, rfl, close, .statementsNil⟩
    · obtain ⟨s, c₁, first, ok⟩ := bind_eq_ok.1 ok
      obtain ⟨ts, took, written⟩ := readFrom_reads h head first
      obtain ⟨rfl, rfl⟩ := pure_eq_ok.1 ok
      refine .again (List.cons_ne_nil _ _) took ?_
      rintro more _ rest eq ⟨us, k, rfl, close, tail⟩
      rw [eq, List.append_assoc us] at written
      exact ⟨t :: ts ++ us, k, by simp, close, .statementsCons written tail⟩

theorem readBlock_reads {b : Lexeme} (brace : b.kind = .punctuator .openBrace) :
    ReadsFrom b (n + 1) .statement (readBlock inner) := by
  intro c s c' head ok
  obtain ⟨_, _, first, ok⟩ := bind_eq_ok.1 ok
  obtain ⟨rfl, rfl⟩ := get_eq_ok.1 first
  rw [Cursor.nextSpan_of_head head] at ok
  obtain ⟨b', c₁, second, ok⟩ := bind_eq_ok.1 ok
  obtain ⟨took, _⟩ := expect_took second
  obtain rfl : b' = b := by simpa [took.rest] using head
  obtain ⟨list, c₂, third, ok⟩ := bind_eq_ok.1 ok
  obtain ⟨_, _, rfl, took', us, k, rfl, close, written⟩ :=
    loop_collects (collects_blockStep h) third
  obtain ⟨rfl, rfl⟩ := returnSpan_eq_ok.1 ok
  rw [(took.cons took').lastStop, ← List.cons_append, stopAfter_append]
  exact ⟨us ++ [k], took.cons took', .block brace close written⟩

end Statement

namespace Nested

theorem sound_none : none.Sound 0 where
  assignment := nofun
  operand := nofun
  construct _ := nofun
  rightOperand := nofun
  block _ := nofun

theorem Sound.outside {inner : Nested} {n : Nat} (h : inner.Sound n) :
    (outside inner).Sound (n + 1) where
  assignment := Expr.reads_readAssignment h
  operand ok := by
    obtain ⟨ts, took, written⟩ := Expr.reads_readOperand h ok
    exact ⟨n, ts, rfl, took, written⟩
  construct := Expr.readConstruct_reads h
  rightOperand ok := by
    obtain ⟨ts, took, written, stop⟩ := Expr.readChain_reads h ok
    exact ⟨n, ts, rfl, took, written, stop⟩
  block := Statement.readBlock_reads h

theorem sound_within (n : Nat) : (within n).Sound n := by
  induction n with
  | zero => exact sound_none
  | succ n ih => exact ih.outside

end Nested

namespace Program

theorem collects_step {inner : Nested} {n : Nat} (h : inner.Sound n) {before : List Statement}
    {p : Progress (List Statement) (List Statement)} {c c' : Cursor}
    (ok : step inner before c = .ok p c') :
    Collects (fun list ts rest => Written n (.statements list) ts rest ∧ rest = [])
      before c p c' := by
  obtain ⟨s?, c₁, first, ok⟩ := bind_eq_ok.1 ok
  obtain ⟨next, _, look, first⟩ := bind_eq_ok.1 first
  obtain ⟨head, rfl⟩ := peek?_eq_ok.1 look
  cases next with
  | none =>
    obtain ⟨rfl, rfl⟩ := pure_eq_ok.1 first
    obtain ⟨rfl, rfl⟩ := pure_eq_ok.1 ok
    exact .done (by simp) (.refl _) ⟨.statementsNil, List.head?_eq_none_iff.1 head⟩
  | some t =>
    obtain ⟨s, c₂, second, first⟩ := bind_eq_ok.1 first
    obtain ⟨ts, took, written⟩ := Statement.readFrom_reads h head second
    obtain ⟨rfl, rfl⟩ := pure_eq_ok.1 first
    obtain ⟨rfl, rfl⟩ := pure_eq_ok.1 ok
    refine .again (List.cons_ne_nil _ _) took ?_
    rintro more us rest eq ⟨tail, stop⟩
    rw [eq] at written
    exact ⟨.statementsCons written tail, stop⟩

theorem read_reads {inner : Nested} {n : Nat} (h : inner.Sound n) {p : Program} {c c' : Cursor}
    (ok : read inner c = .ok p c') :
    Written n (.statements p.statements) c.rest [] ∧ p.span = .ofBounds 0 c.sourceStop := by
  obtain ⟨list, c₁, first, ok⟩ := bind_eq_ok.1 ok
  obtain ⟨_, ts, rfl, took, written, done⟩ := loop_collects (collects_step h) first
  obtain ⟨_, _, second, ok⟩ := bind_eq_ok.1 ok
  obtain ⟨rfl, rfl⟩ := get_eq_ok.1 second
  obtain ⟨rfl, rfl⟩ := pure_eq_ok.1 ok
  rw [done] at written
  rw [took.rest, done, took.sourceStop, List.append_nil]
  exact ⟨written, rfl⟩

/-- A program that is read from tokens is written with them, and nests at most `limit` levels
deep. -/
theorem written_of_ofTokens {limit : Nat} {tokens : TokenSequence} {p : Program}
    (ok : ofTokens limit tokens = .ok p) :
    Written limit (.statements p.statements) tokens.lexemes [] ∧
      p.span = .ofBounds 0 (Text.size tokens.source) := by
  unfold ofTokens at ok
  split at ok
  · next found =>
    cases ok
    exact read_reads (Nested.sound_within limit) found
  · cases ok

end Program

end EcmaFront
