import EcmaFront.Proofs.Tree.Blame.Operator
import EcmaFront.Proofs.Tree.Completeness.Program

/-!
# Errors in programs

The readers at each level of nesting report, by induction on the level (`Nested.reports_within`). So
an error of a source blames the right tokens, and its span can be cut out of the source.

* `slice_of_syntactic`: the span of an error is a piece of the source.
* `parse_blames`: which token an error names, and where reading stopped.
-/

namespace EcmaFront

open Reader

variable {c₀ : Cursor} {strict : Bool} {n : Nat}

/-! ## Statements -/

namespace Statement

variable (h : (Nested.within n).Reports c₀)

include h

theorem reports_readDeclaration (kind : DeclarationKind) :
    Reports c₀ (readDeclaration (.within n) kind) := by
  refine .bind .get fun _ => .bind .advance fun _ => .bind (.expectInDeclaration _) fun _ => ?_
  refine .bind (.expectInDeclaration _) fun _ => .bind h.assignment fun _ => ?_
  exact .bind (.expectInDeclaration _) fun _ => .returnSpan ..

theorem reports_readExpression : Reports c₀ (readExpression (.within n)) :=
  .bind (Expr.reports_read h) fun _ => .bind (.expect _) fun _ => .returnSpan ..

theorem reports_readFrom {t : Lexeme} {c : Cursor} (reaches : c₀.Reaches c)
    (head : c.rest.head? = some t) : (readFrom (.within n) t).ReportsAt c₀ c := by
  have unsupported : (throw (.unsupported t.kind t.span) : Reader Statement).ReportsAt c₀ c :=
    .throw reaches (.unsupported (reaches.covers_head head))
  unfold readFrom
  cases t.kind.statementStart with
  | declaration kind => exact (reports_readDeclaration h kind).here reaches
  | empty => exact .andThen (Reports.advance.here reaches) fun _ => .pure _
  | block => exact h.block.here reaches
  | debugger =>
    refine .andThen (Reports.advance.here reaches) fun _ => ?_
    exact .bind (.expect _) fun _ => .returnSpan ..
  | importWord =>
    refine .bind ((Reports.peekKind? 1).here reaches) fun kind c' look reaches' => ?_
    obtain ⟨_, rfl⟩ := peekKind?_eq_ok.1 look
    exact .ite (fun _ => (reports_readExpression h).here reaches') fun _ => unsupported
  | unsupported => exact unsupported
  | expression => exact (reports_readExpression h).here reaches

theorem reports_readBlock : Reports c₀ (readBlock (.within n)) := by
  have progresses : Progresses (blockStep (.within n)) :=
    progresses_of_collects (collects_blockStep (Nested.sound_within n))
  refine .bind .get fun _ => .bind (.expect _) fun _ => ?_
  refine .bind (.loop progresses (fun before => ?_) _) fun _ => .returnSpan ..
  refine .peek .failAtEnd fun reaches head => .ite (fun _ => ?_) fun _ => ?_
  · exact .andThen (Reports.advance.here reaches) fun _ => .pure _
  · exact .andThen (reports_readFrom h reaches head) fun _ => .pure _

end Statement

namespace Nested

theorem reports_none : none.Reports c₀ := by
  have deep {α : Type} {c : Cursor} (reaches : c₀.Reaches c) :
      (tooDeep : Reader α).ReportsAt c₀ c := .of_error rfl reaches .deep
  exact ⟨⟨deep⟩, ⟨deep⟩, fun _ reaches _ => deep reaches, ⟨deep⟩, ⟨deep⟩⟩

theorem reports_within (lexed : Lexed strict c₀.rest) (n : Nat) : (within n).Reports c₀ := by
  induction n with
  | zero => exact reports_none
  | succ n ih =>
    exact ⟨Expr.reports_readAssignment lexed ih, Expr.reports_readOperand ih lexed,
      Expr.reports_readConstruct ih, Expr.reports_readChain lexed ih _,
      Statement.reports_readBlock ih⟩

end Nested

/-! ## Programs -/

namespace Program

theorem reports_step (h : (Nested.within n).Reports c₀) (before : List Statement) :
    Reports c₀ (step (.within n) before) := by
  have reads : Reports c₀ (Statement.read? (.within n)) := by
    refine .peek (fun reaches _ => .pure _ reaches) fun reaches head => ?_
    exact .andThen (Statement.reports_readFrom h reaches head) fun _ => .pure _
  refine .bind reads fun s? => ?_
  cases s? with
  | none => exact .pure _
  | some s => exact .pure _

theorem reports_read (lexed : Lexed strict c₀.rest) : Reports c₀ (read (.within n)) := by
  have steps := reports_step (Nested.reports_within lexed n)
  exact .bind (.loop progresses_step steps _) fun _ => .bind .get fun _ => .pure _

end Program

/-! ## Spans of errors -/

/-- What stands between two positions of a text is a piece of it. -/
theorem Text.IsBoundary.exists_slice {source : Text} {span : Span}
    (start : source.IsBoundary span.start) (stop : source.IsBoundary span.stop) :
    ∃ inside, span.slice source = some inside := by
  obtain ⟨before, after, rfl, size⟩ := start
  obtain ⟨before', after', eq, size'⟩ := stop
  rcases List.append_eq_append_iff.1 eq with ⟨inside, rfl, rfl⟩ | ⟨inside, rfl, rfl⟩
  · refine ⟨inside, Span.slice_eq_some_iff.2 ⟨before, after', by simp, size, ?_⟩⟩
    simp only [Text.size_append, Span.stop] at size'
    omega
  · refine ⟨[], Span.slice_eq_some_iff.2 ⟨before' ++ inside, after, by simp, size, ?_⟩⟩
    simp only [Text.size_append, Span.stop, Text.size_nil] at size size' ⊢
    omega

/-- The ends of a lexeme stand between two characters of the source. -/
theorem Tiling.isBoundary {lexemes : List Lexeme} {source : Text}
    (h : Tiling strict 0 lexemes source) {t : Lexeme} (mem : t ∈ lexemes) :
    source.IsBoundary t.span.start ∧ source.IsBoundary t.span.stop := by
  obtain ⟨before, after, eq, start, length⟩ :=
    Span.slice_eq_some_iff.1 (h.slice_eq [] rfl t mem)
  rw [List.nil_append] at eq
  refine ⟨⟨before, t.text ++ after, by simp [eq], start⟩, ⟨before ++ t.text, after, eq, ?_⟩⟩
  rw [Text.size_append, start, length, Span.stop]

/-- The span of some lexemes in a row is a piece of the source. -/
theorem Tiling.exists_slice {lexemes us : List Lexeme} {source : Text} {span : Span}
    (h : Tiling strict 0 lexemes source) (run : us <:+: lexemes) (bounds : Bounds span us) :
    ∃ inside, span.slice source = some inside := by
  have inOrder : InOrder us := List.Pairwise.sublist run.sublist h.inOrder
  obtain ⟨t, vs, rfl, rfl⟩ := bounds
  have start := (h.isBoundary (run.subset List.mem_cons_self)).1
  obtain ⟨u, mem, eq⟩ := exists_stopAfter t vs
  have stop := (h.isBoundary (run.subset mem)).2
  have le := Nat.le_trans t.span.start_le_stop (inOrder.stop_le t List.mem_cons_self)
  refine Text.IsBoundary.exists_slice start ?_
  rwa [Span.stop_ofBounds le, eq]

theorem Tiling.exists_slice_of_covers {source : Text} {span : Span}
    (h : Tiling strict 0 c₀.rest source) (covers : c₀.Covers span) :
    ∃ inside, span.slice source = some inside := by
  obtain ⟨us, run, bounds⟩ := covers
  exact h.exists_slice run bounds

theorem Span.slice_empty (source : Text) :
    (Span.empty (Text.size source)).slice source = some [] :=
  slice_eq_some_iff.2 ⟨source, [], by simp, rfl, rfl⟩

/-- The span of an error is a piece of the source; at its end, one without bytes. -/
theorem SyntaxError.Blames.exists_slice {c : Cursor} {e : SyntaxError} {source : Text}
    (h : e.Blames c₀ c) (reaches : c₀.Reaches c) (tiling : Tiling strict 0 c₀.rest source)
    (whole : c₀.sourceStop = Text.size source) : ∃ inside, e.span.slice source = some inside := by
  have ended : ∃ inside, (Span.empty c.sourceStop).slice source = some inside := by
    obtain ⟨_, taken⟩ := reaches
    exact ⟨[], by rw [taken.sourceStop, whole, Span.slice_empty]⟩
  cases h with
  | declaration head | token head | expression head =>
    exact tiling.exists_slice_of_covers (reaches.covers_head head)
  | unsupported covers | target covers | number covers | mixed covers =>
    exact tiling.exists_slice_of_covers covers
  | ended => exact ended
  | @name taken t took misnames =>
    obtain ⟨front, w, d, name, rfl, _⟩ := misnames
    refine tiling.exists_slice ⟨front ++ [w, d], c.rest, ?_⟩ (.single t)
    rw [took.rest]
    simp
  | deep =>
    cases rest : c.rest with
    | nil => simpa [SyntaxError.span, Cursor.nextSpan, rest] using ended
    | cons t more =>
      have head : c.rest.head? = some t := by rw [rest]; rfl
      have covers := reaches.covers_head head
      rw [← Cursor.nextSpan_of_head head] at covers
      exact tiling.exists_slice_of_covers covers

/-! ## Sources -/

theorem parse_eq_syntactic {source : Text} {e : SyntaxError} :
    parse strict source = .error (.syntactic e) ↔
      ∃ tokens c, scan strict source = .ok tokens ∧
        Program.read (.within maxNesting) (.start tokens) = .error e c := by
  unfold parse parseWithin Program.ofTokens
  cases scan strict source with
  | error e => simp [Except.mapError, bind, Except.bind]
  | ok tokens =>
    cases read : Program.read (.within maxNesting) (.start tokens) <;>
      simp [Except.mapError, bind, Except.bind, read]

/-- The error of a source blames the right tokens. -/
theorem blames_of_read {source : Text} {tokens : TokenSequence} {e : SyntaxError} {c : Cursor}
    (scanned : scan strict source = .ok tokens)
    (failed : Program.read (.within maxNesting) (.start tokens) = .error e c) :
    (Cursor.start tokens).Reaches c ∧ e.Blames (.start tokens) c :=
  have tiling : Tiling strict 0 (Cursor.start tokens).rest source := tiling_of_scan scanned
  ((Program.reports_read tiling.lexed).here ⟨[], .refl _⟩).error failed

theorem source_of_scan {source : Text} {tokens : TokenSequence}
    (scanned : scan strict source = .ok tokens) : tokens.source = source := by
  obtain ⟨_, list, _, rfl⟩ := scan_eq_ok.1 scanned
  exact TokenSequence.source_ofList ..

theorem slice_of_syntactic {source : Text} {e : SyntaxError}
    (failed : parse strict source = .error (.syntactic e)) :
    ∃ inside, e.span.slice source = some inside := by
  obtain ⟨tokens, c, scanned, failed⟩ := parse_eq_syntactic.1 failed
  obtain ⟨reaches, blames⟩ := blames_of_read scanned failed
  refine blames.exists_slice reaches (tiling_of_scan scanned) ?_
  rw [Cursor.start, source_of_scan scanned]

/-- The kind that an error has found is that of the token last taken or of the next one, and other
than what it expected, unless that token misnames a meta property. -/
theorem SyntaxError.Blames.found {c : Cursor} {e : SyntaxError} {found : TokenKind}
    {taken : List Lexeme} (h : e.Blames c₀ c) (took : c₀.Took taken c)
    (isFound : e.found? = some found) (supported : ∀ span, e ≠ .unsupported found span) :
    ∃ t, (taken.getLast? = some t ∨ c.rest.head? = some t) ∧ t.kind = found ∧ t.span = e.span ∧
      (e.expected? = some found → Misnames taken t) := by
  cases h with
  | @declaration _ t head other | @token _ t head other =>
    obtain rfl : t.kind = found := Option.some.inj isFound
    exact ⟨t, .inr head, rfl, rfl, fun same => absurd (Option.some.inj same).symm other⟩
  | @expression t head =>
    obtain rfl : t.kind = found := Option.some.inj isFound
    exact ⟨t, .inr head, rfl, rfl, nofun⟩
  | @name taken' t took' misnames =>
    obtain rfl : t.kind = found := Option.some.inj isFound
    obtain rfl : taken = taken' := List.append_cancel_right (took.rest.symm.trans took'.rest)
    have ⟨front, w, d, _, last, _⟩ := misnames
    exact ⟨t, .inl (by simp [last]), rfl, rfl, fun _ => misnames⟩
  | @unsupported kind span =>
    obtain rfl : kind = found := Option.some.inj isFound
    exact absurd rfl (supported span)
  | ended | target | number | mixed | deep => cases isFound

/-- An error of a source is about the place where reading stopped. If it names a token that stands
in the way, this is the last one taken or the first one left, with its kind and its span, and of
another kind than the one expected, unless it is a wrong name behind `new.` or `import.`. It says
that the tokens have ended only where they have, and points at the end of the source then. Its span
is a piece of the source. -/
theorem parse_blames {source : Text} {e : SyntaxError}
    (failed : parse strict source = .error (.syntactic e)) :
    ∃ tokens c taken, scan strict source = .ok tokens ∧
      Program.read (.within maxNesting) (.start tokens) = .error e c ∧
      tokens.lexemes = taken ++ c.rest ∧
      (∀ found, e.found? = some found → (∀ span, e ≠ .unsupported found span) →
        ∃ t, (taken.getLast? = some t ∨ c.rest.head? = some t) ∧ t.kind = found ∧
          t.span = e.span ∧ (e.expected? = some found → Misnames taken t)) ∧
      (∀ expected offset, e = .unexpectedEnd expected offset →
        c.rest = [] ∧ offset = Text.size source) ∧
      ∃ inside, e.span.slice source = some inside := by
  obtain ⟨tokens, c, scanned, read⟩ := parse_eq_syntactic.1 failed
  obtain ⟨⟨taken, took⟩, blames⟩ := blames_of_read scanned read
  refine ⟨tokens, c, taken, scanned, read, took.rest, fun found => blames.found took, ?_,
    slice_of_syntactic failed⟩
  rintro expected offset rfl
  cases blames with
  | ended done =>
    refine ⟨done, ?_⟩
    rw [took.sourceStop, Cursor.start, source_of_scan scanned]

/-- In `let a 1;` a number stands in the way of the equals sign. -/
theorem parse_blames_number :
    ∃ e tokens taken t, ∃ c : Cursor,
      parse false ['l', 'e', 't', ' ', 'a', ' ', '1', ';'] = .error (.syntactic e) ∧
      e.expected? = some (.assignment .assign) ∧ e.found? = some .number ∧
      scan false ['l', 'e', 't', ' ', 'a', ' ', '1', ';'] = .ok tokens ∧
      tokens.lexemes = taken ++ c.rest ∧ (taken.getLast? = some t ∨ c.rest.head? = some t) ∧
      t.kind = .number ∧ t.span = ⟨6, 1⟩ := by
  let e : SyntaxError := .malformedDeclaration (.assignment .assign) .number ⟨6, 1⟩
  have failed : parse false ['l', 'e', 't', ' ', 'a', ' ', '1', ';'] = .error (.syntactic e) := rfl
  obtain ⟨tokens, c, taken, scanned, _, lexemes, named, _, _⟩ := parse_blames failed
  obtain ⟨t, place, kind, span, _⟩ := named .number rfl nofun
  exact ⟨e, tokens, taken, t, c, failed, rfl, rfl, scanned, lexemes, place, kind, span⟩

/-- In `import.foo;` an identifier is blamed for not being an identifier. -/
theorem meta_name_blamed :
    ∃ e, parse false ['i', 'm', 'p', 'o', 'r', 't', '.', 'f', 'o', 'o', ';'] =
        .error (.syntactic e) ∧
      e.expected? = some .identifier ∧ e.found? = some .identifier ∧
      e.message = "expected identifier, found identifier" :=
  ⟨.unexpectedToken .identifier .identifier ⟨7, 3⟩, rfl, rfl, rfl, rfl⟩

end EcmaFront
