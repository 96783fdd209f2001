import EcmaFront.Proofs.Machine.Calls
import EcmaFront.Proofs.Machine.Lines
import EcmaFront.Proofs.Machine.Scanning

/-!
# No fault

A source with fewer bytes than the last position is scanned and parsed, and its errors are located,
without a fault. So it is also by a scanner or a parser that has failed before.

* `checkedParse_eq`: the program of a source is found, or the error that keeps it from being one.
* `Raised`: the errors that scanners and parsers of a source answer with.
* `faultless_of_reached`: each request and each call is answered as the total functions answer it, and
  each error has its diagnostic.
-/

namespace EcmaFront

/-- The errors of a source, whatever its scanners and parsers have been asked for. -/
inductive Raised (strict : Bool) (source : Text) : SourceError → Prop
  | next {s s' : Scanner} {e : LexicalError} : Scanner.Reached strict source s →
    s.next = .ok (.error e, s') → Raised strict source (.lexical e)
  | all {s s' : Scanner} {e : LexicalError} : Scanner.Reached strict source s →
    s.all = .ok (.error e, s') → Raised strict source (.lexical e)
  | scan {e : LexicalError} : Scanner.scan strict source = .ok (.error e) →
    Raised strict source (.lexical e)
  | call {tokens : TokenSequence} {p p' : Parser} {k : Parser.Call} {e : SyntaxError} :
    Scanner.scan strict source = .ok (.ok tokens) → Parser.Reached tokens p →
    Parser.call k p = .ok (.error e, p') → Raised strict source (.syntactic e)

variable {strict : Bool} {source : Text}

/-- An error points at a byte of the source, or at its end. -/
theorem LexicalError.PointsInto.offset_le {e : LexicalError} (h : e.PointsInto source) :
    e.offset ≤ Text.size source := by
  obtain ⟨before, ⟨rest, rfl⟩, offset, _⟩ := h.place
  rw [offset, Text.size_append]
  exact Nat.le_add_right ..

/-- A call is answered as the reader answers it, with an error in the source if at all. -/
theorem Parser.Reached.call_eq {tokens : TokenSequence} {p : Parser}
    (scanned : EcmaFront.scan strict source = .ok tokens) (h : Parser.Reached tokens p)
    (k : Parser.Call) :
    ∃ p', Parser.call k p = .ok ((k.read maxNesting).answer p.cursor, p') ∧
      ∀ e, (k.read maxNesting).answer p.cursor = .error e → e.offset ≤ Text.size source := by
  have stands := h.stands (TokenSequence.fits_of_scan scanned)
  obtain ⟨p', run, _, _, inside⟩ := (Parser.agrees_call stands k).answer_eq
  obtain ⟨_, _, _, rfl⟩ := scan_eq_ok.1 scanned
  rw [TokenSequence.source_ofList] at inside
  exact ⟨p', run, inside⟩

theorem answer_program (tokens : TokenSequence) :
    (Parser.Call.program.read maxNesting).answer (Parser.start tokens).cursor =
      Program.ofTokens maxNesting tokens :=
  (Program.ofTokens_eq_answer maxNesting tokens).symm

/-- The program of a source, scanned and parsed with partial operations. -/
def checkedParse (strict : Bool) (source : Text) : Checked (Except SourceError Program) := do
  match ← Scanner.scan strict source with
  | .ok tokens =>
    let (answer, _) ← Parser.call .program (.start tokens)
    return answer.mapError .syntactic
  | .error e => return .error (.lexical e)

/-- The whole front end meets no fault. -/
theorem checkedParse_eq (fits : Text.size source < maxPosition) (strict : Bool) :
    checkedParse strict source = .ok (parse strict source) := by
  simp only [checkedParse, Scanner.scan_eq fits, parse, parseWithin, bind, Except.bind]
  cases scanned : scan strict source with
  | error e => rfl
  | ok tokens =>
    obtain ⟨p, run, _⟩ := Parser.Reached.start.call_eq scanned .program
    simp only [run, answer_program]
    rfl

theorem Raised.start_le {e : SourceError} (fits : Text.size source < maxPosition)
    (h : Raised strict source e) : e.span.start ≤ Text.size source := by
  cases h with
  | next reached failed =>
    obtain ⟨l, asked, rfl⟩ := reached.exists_lexer (Nat.le_of_lt fits)
    rw [Scanner.next_ofLexer fits asked.standsIn] at failed
    obtain ⟨failed, _⟩ := Prod.mk.inj (Except.ok.inj failed)
    exact (asked.pointsInto_of_next failed).offset_le
  | all reached failed =>
    obtain ⟨l, asked, rfl⟩ := reached.exists_lexer (Nat.le_of_lt fits)
    obtain ⟨s, run⟩ := Scanner.all_ofLexer fits asked.standsIn
    obtain ⟨failed, _⟩ := Prod.mk.inj (Except.ok.inj (run.symm.trans failed))
    cases list : l.all with
    | ok tokens =>
      rw [list] at failed
      cases failed
    | error e' =>
      rw [list] at failed
      cases failed
      exact (asked.pointsInto_of_all list).offset_le
  | scan failed =>
    rw [Scanner.scan_eq fits] at failed
    have failed := (scan_eq_error (Nat.le_of_lt fits)).1 (Except.ok.inj failed)
    exact (Lexer.Reached.start.pointsInto_of_all failed).offset_le
  | call scanned reached failed =>
    rw [Scanner.scan_eq fits] at scanned
    obtain ⟨p', run, inside⟩ := reached.call_eq (Except.ok.inj scanned) _
    obtain ⟨failed, _⟩ := Prod.mk.inj (Except.ok.inj (run.symm.trans failed))
    exact inside _ failed

/-- In a source with fewer bytes than the last position, every request to a scanner and every call of
a parser is answered without a fault, whatever has been asked of them before; the answers are those of
the lexer and of the readers. The diagnostic of every error is found without a fault. -/
theorem faultless_of_reached (fits : Text.size source < maxPosition) (strict : Bool) :
    (∀ s, Scanner.Reached strict source s → ∃ l, Lexer.Reached strict source l ∧
      s = .ofLexer source l ∧ s.next = .ok (l.next.1, .ofLexer source l.next.2) ∧
      ∃ s', s.all = .ok (l.all.map (.ofList source), s')) ∧
    Scanner.scan strict source = .ok (scan strict source) ∧
    (∀ tokens, Scanner.scan strict source = .ok (.ok tokens) →
      ∀ p, Parser.Reached tokens p → ∀ k,
        ∃ p', Parser.call k p = .ok ((k.read maxNesting).answer p.cursor, p')) ∧
    ∀ e, Raised strict source e → ∀ file,
      e.checkedDiagnostic file source = .ok (e.toDiagnostic file source) := by
  refine ⟨fun s reached => ?_, Scanner.scan_eq fits, fun tokens scanned p reached k => ?_,
    fun e raised file => e.checkedDiagnostic_eq file fits (raised.start_le fits)⟩
  · obtain ⟨l, asked, rfl⟩ := reached.exists_lexer (Nat.le_of_lt fits)
    have stands := asked.standsIn
    exact ⟨l, asked, rfl, Scanner.next_ofLexer fits stands, Scanner.all_ofLexer fits stands⟩
  · rw [Scanner.scan_eq fits] at scanned
    obtain ⟨p', run, _⟩ := reached.call_eq (Except.ok.inj scanned) k
    exact ⟨p', run⟩

/-- The first call of a parser for `a b;` fails at `b`. The diagnostic of its error is found, and the
next call is answered. -/
theorem faultless_of_reached_error :
    ∃ tokens e p, Scanner.scan false ['a', ' ', 'b', ';'] = .ok (.ok tokens) ∧
      Parser.call .statement (.start tokens) = .ok (.error e, p) ∧ e.offset = 2 ∧
      (∀ file, (SourceError.syntactic e).checkedDiagnostic file ['a', ' ', 'b', ';'] =
        .ok ((SourceError.syntactic e).toDiagnostic file ['a', ' ', 'b', ';'])) ∧
      ∃ answer p', Parser.call .statement p = .ok (answer, p') := by
  have fits : Text.size ['a', ' ', 'b', ';'] < maxPosition := by decide
  let tokens : TokenSequence := .ofList ['a', ' ', 'b', ';']
    [⟨.identifier, ⟨0, 1⟩⟩, ⟨.identifier, ⟨2, 1⟩⟩, ⟨.punctuator .semicolon, ⟨3, 1⟩⟩]
  obtain ⟨_, scanned, calls, diagnostics⟩ := faultless_of_reached fits false
  have scanned : Scanner.scan false ['a', ' ', 'b', ';'] = .ok (.ok tokens) := scanned
  obtain ⟨p, failed⟩ := calls tokens scanned _ .start .statement
  obtain ⟨p', answered⟩ := calls tokens scanned p (.call .start failed) .statement
  have raised := Raised.call scanned .start failed
  exact ⟨tokens, _, p, scanned, failed, rfl, diagnostics _ raised, _, p', answered⟩

end EcmaFront
