import EcmaFront.Proofs.Machine.Lines
import EcmaFront.Proofs.Token.Failure
import EcmaFront.Proofs.Tree.Blame.Program

/-!
# Where diagnostics point

The diagnostic of an error stands at a span of the file, with the position of its start. The span of
a syntax error is a piece of the source. That of a lexical error is one byte, so it is a piece of
the source only if the character there is no wider.

* `Lexer.StandsIn.exists_character`: the character at which a lexical error points.
* `location_of_parse`: when the span of a diagnostic is a piece of the source.
-/

namespace EcmaFront

/-- One byte is a piece of the text if the character there is no wider. -/
theorem Span.slice_byte (before : Text) (c : Char) (rest : Text) :
    (⟨Text.size before, 1⟩ : Span).slice (before ++ c :: rest) =
      if c.utf8Size = 1 then some [c] else none := by
  have drop : (before ++ c :: rest).dropBytes? (Text.size before) = some (c :: rest) :=
    Text.dropBytes?_eq_some_iff.2 ⟨before, rfl, rfl⟩
  have wide := c.utf8Size_pos
  rw [slice, drop, Option.bind_some, Text.takeBytes?]
  by_cases one : c.utf8Size = 1
  · simp [one, Text.takeBytes?]
  · rw [if_neg one, if_neg (by omega)]

/-- The error points at the character: the one that is unexpected, or else a quote or the null
character, which are one byte wide. -/
inductive LexicalError.PointsAt (c : Char) : LexicalError → Prop
  | unexpected {offset line : Nat} : PointsAt c (.unexpectedCharacter c offset line)
  | unterminated {offset line : Nat} : c.utf8Size = 1 → PointsAt c (.unterminatedString offset line)
  | exhausted {offset line : Nat} : c.utf8Size = 1 → PointsAt c (.exhausted offset line)

namespace Lexer

/-- An error points at a character of the source. -/
theorem StandsIn.exists_character {source : Text} {s s' : Lexer} {e : LexicalError}
    (h : s.StandsIn source) (step : s.next = (.error e, s')) :
    ∃ before c rest, source = before ++ c :: rest ∧ e.offset = Text.size before ∧
      e.PointsAt c := by
  obtain ⟨before, source_eq, offset, _⟩ := h.skipTrivia
  unfold Lexer.next nextAfterTrivia at step
  split at step
  · cases step
  next c cs rest_eq =>
  rw [rest_eq] at source_eq
  split at step
  · cases step
  · next front =>
    cases step
    have narrow : c.utf8Size = 1 := by
      obtain rfl | rfl := Front.quote_of_failed (.inl front) <;> rfl
    exact ⟨before, c, cs, source_eq, offset, .unterminated narrow⟩
  · next inside front =>
    cases step
    obtain ⟨rest, eq⟩ := Front.split_of_exhausted front
    refine ⟨before ++ inside, '\x00', rest, ?_, ?_, .exhausted rfl⟩
    · rw [source_eq, eq, List.append_assoc]
    · simp [LexicalError.offset, Lexer.move, offset]
  · cases step
    exact ⟨before, c, cs, source_eq, offset, .unexpected⟩

end Lexer

theorem parse_eq_lexical {strict : Bool} {source : Text} {e : LexicalError} :
    parse strict source = .error (.lexical e) ↔ scan strict source = .error e := by
  unfold parse parseWithin
  cases scan strict source with
  | error e' => simp [Except.mapError, bind, Except.bind]
  | ok tokens =>
    cases read : Program.ofTokens maxNesting tokens <;>
      simp [Except.mapError, bind, Except.bind, read]

/-- The diagnostic of an error stands at a span, with the line and the column of its start. The span
is a piece of the source, unless the error is a character wider than one byte that no token starts
with: a span of one byte cannot hold it. -/
theorem location_of_parse {strict : Bool} {source : Text} {e : SourceError}
    (fits : Text.size source ≤ maxPosition) (failed : parse strict source = .error e)
    (file : String) :
    ∃ span, (e.toDiagnostic file source).location =
        .span file span ((LineIndex.ofText source).lineColumnOf span.start) ∧
      ((∃ inside, span.slice source = some inside) ↔
        ∀ c offset line, e = .lexical (.unexpectedCharacter c offset line) → c.utf8Size = 1) := by
  cases e with
  | syntactic e =>
    refine ⟨_, SourceError.location_eq (by simp) file source, ?_⟩
    exact iff_of_true (slice_of_syntactic failed) nofun
  | lexical e =>
    have all := (scan_eq_error fits).1 (parse_eq_lexical.1 failed)
    obtain ⟨s, s', reached, step⟩ := Lexer.Reached.start.exists_next all
    obtain ⟨before, c, rest, rfl, offset, points⟩ := reached.standsIn.exists_character step
    have slice := Span.slice_byte before c rest
    rw [← offset] at slice
    refine ⟨⟨e.offset, 1⟩, SourceError.location_eq ?_ file _, ?_⟩
    · rintro size ⟨⟩
      cases points
    rw [slice]
    cases points with
    | unexpected => simp
    | unterminated one | exhausted one => simp [one]

/-- In `é #` the sharp sign is one byte, behind the two of the letter. -/
theorem location_of_parse_sharp :
    ∃ e span, parse false ['é', ' ', '#'] = .error e ∧
      (e.toDiagnostic "a.js" ['é', ' ', '#']).location =
        .span "a.js" span ((LineIndex.ofText ['é', ' ', '#']).lineColumnOf span.start) ∧
      ∃ inside, span.slice ['é', ' ', '#'] = some inside := by
  have failed : parse false ['é', ' ', '#'] =
      .error (.lexical (.unexpectedCharacter '#' 3 1)) := rfl
  obtain ⟨span, location, slice⟩ := location_of_parse (by decide) failed "a.js"
  refine ⟨_, span, failed, location, slice.2 ?_⟩
  rintro c offset line ⟨⟩
  rfl

-- The sign is looked for among all characters that start names.
set_option maxRecDepth 8000 in
/-- The diagnostic for `€`, three bytes wide, stands at a span that cuts it in two. -/
theorem wide_character_cut :
    ∃ e span position, parse false ['€'] = .error e ∧
      (e.toDiagnostic "a.js" ['€']).location = .span "a.js" span position ∧
      span.slice ['€'] = none :=
  ⟨.lexical (.unexpectedCharacter '€' 0 1), ⟨0, 1⟩, _, rfl, rfl, rfl⟩

end EcmaFront
