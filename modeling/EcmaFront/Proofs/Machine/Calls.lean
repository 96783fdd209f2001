import EcmaFront.Proofs.Machine.Statement
import EcmaFront.Proofs.Token.Tiling

/-!
# Calls of one parser

A parser can be asked again and again, also after an error. Each call leaves it between two tokens
with no form open, so nothing of its past but its place shows in the next answer.

* `Parser.Reached`: the parsers that are reached by calls.
* `answer_of_reached`: what the next call answers and where it leaves the parser.
-/

namespace EcmaFront

namespace TokenSequence

variable {s : TokenSequence}

/-- The tokens after the first `n`. -/
def dropFirst (s : TokenSequence) (n : Nat) : TokenSequence := .ofList s.source (s.toList.drop n)

@[simp] theorem toList_dropFirst (s : TokenSequence) (n : Nat) :
    (s.dropFirst n).toList = s.toList.drop n := toList_ofList ..

@[simp] theorem source_dropFirst (s : TokenSequence) (n : Nat) :
    (s.dropFirst n).source = s.source := source_ofList ..

theorem text_dropFirst (s : TokenSequence) (n : Nat) (t : Token) :
    (s.dropFirst n).text t = s.text t := by
  rw [text, text, source_dropFirst]

theorem lexemes_dropFirst (s : TokenSequence) (n : Nat) :
    (s.dropFirst n).lexemes = s.lexemes.drop n := by
  simp only [lexemes, toList_dropFirst, text_dropFirst, List.map_drop]

theorem Fits.dropFirst (h : s.Fits) (n : Nat) : (s.dropFirst n).Fits where
  size_le := by simpa using h.size_le
  stop_le t mem := by
    rw [toList_dropFirst] at mem
    simpa using h.stop_le t (List.mem_of_mem_drop mem)
  slice_eq t mem := by
    rw [toList_dropFirst] at mem
    simpa [text_dropFirst] using h.slice_eq t (List.mem_of_mem_drop mem)

/-- The tokens of a source lie in it. -/
theorem fits_of_scan {strict : Bool} {source : Text} (scanned : scan strict source = .ok s) :
    s.Fits := by
  have tiling := tiling_of_scan scanned
  obtain ⟨size_le, list, _, rfl⟩ := scan_eq_ok.1 scanned
  have lexeme {t : Token} (mem : t ∈ (ofList source list).toList) :
      ⟨t.kind, t.span, (ofList source list).text t⟩ ∈ (ofList source list).lexemes :=
    List.mem_map_of_mem mem
  refine ⟨by simpa using size_le, fun t mem => ?_, fun t mem => ?_⟩
  · simpa using tiling.stop_le _ (lexeme mem)
  · simpa using tiling.slice_eq [] rfl _ (lexeme mem)

end TokenSequence

namespace Parser

variable {tokens : TokenSequence} {depth : Nat} {p p' : Parser} {c c' : Cursor}

/-- The parsers that are reached from the first token by calls, whatever these answer. -/
inductive Reached (tokens : TokenSequence) : Parser → Prop
  | start : Reached tokens (.start tokens)
  | call {p p' : Parser} {k : Call} {answer : Except SyntaxError k.Result} :
    Reached tokens p → Parser.call k p = .ok (answer, p') → Reached tokens p'

/-- The cursor that stands where the parser does. -/
def cursor (p : Parser) : Cursor :=
  ⟨p.tokens.lexemes.drop p.position, p.lastStop, Text.size p.tokens.source⟩

theorem Stands.cursor (h : Stands tokens depth p c) : Stands tokens depth p p.cursor :=
  ⟨h.fits, h.tokens_eq, h.depth_eq, h.position_le, h.lastStop_eq, by rw [Parser.cursor, h.tokens_eq],
    by rw [Parser.cursor, h.tokens_eq]⟩

theorem Stands.cursor_eq (h : Stands tokens depth p c) (lastStop : c.lastStop = p.lastStop) :
    p.cursor = c := by
  rw [Parser.cursor, h.tokens_eq, ← h.rest_eq, ← h.sourceStop_eq, ← lastStop]

/-- A parser that is reached by calls is the same as one that has never seen the tokens it has
taken. -/
theorem Stands.fresh (h : Stands tokens depth p c) :
    Stands tokens depth p (.start (tokens.dropFirst p.position)) :=
  ⟨h.fits, h.tokens_eq, h.depth_eq, h.position_le, h.lastStop_eq,
    by rw [Cursor.start, TokenSequence.lexemes_dropFirst], by simp [Cursor.start]⟩

namespace Reached

theorem stands (fits : tokens.Fits) (h : Reached tokens p) : Stands tokens 0 p p.cursor := by
  induction h with
  | start => exact (Stands.start fits).cursor
  | @call p p' k answer _ run ih =>
    cases agrees_call ih k with
    | ok run' _ moves _ | error run' _ moves _ =>
      obtain ⟨_, rfl⟩ := Prod.mk.inj (Except.ok.inj (run.symm.trans run'))
      exact moves.stands.cursor

end Reached

end Parser

namespace Reader

variable {α : Type}

/-- What a reader answers at a cursor. -/
def answer (r : Reader α) (c : Cursor) : Except SyntaxError α :=
  match r c with
  | .ok a _ => .ok a
  | .error e _ => .error e

/-- Where a reader leaves a cursor. -/
def place (r : Reader α) (c : Cursor) : Cursor :=
  match r c with
  | .ok _ c' | .error _ c' => c'

end Reader

theorem Program.ofTokens_eq_answer (limit : Nat) (tokens : TokenSequence) :
    ofTokens limit tokens = (read (.within limit)).answer (.start tokens) := by
  rw [ofTokens, Reader.answer]
  cases read (.within limit) (.start tokens) <;> rfl

namespace Parser

variable {tokens : TokenSequence} {depth : Nat} {p q : Parser} {c : Cursor}

/-- A step that agrees with a reader gives its answer. -/
theorem Agrees.answer_eq {α : Type} {x : Step α} {r : Reader α} {Q : α → Parser → Cursor → Prop}
    (h : Agrees tokens depth x r p c Q) :
    ∃ p', x p = .ok (r.answer c, p') ∧ Moves tokens depth p c p' (r.place c) ∧
      (∀ a, r.answer c = .ok a → Q a p' (r.place c)) ∧
      ∀ e, r.answer c = .error e → e.offset ≤ Text.size tokens.source := by
  cases h with
  | @ok a p' c' run read moves post =>
    have answer : r.answer c = .ok a := by rw [Reader.answer, read]
    have place : r.place c = c' := by rw [Reader.place, read]
    rw [answer, place]
    refine ⟨p', run, moves, fun a' same => Except.ok.inj same ▸ post, fun e same => ?_⟩
    cases same
  | @error e p' c' run read moves inside =>
    have answer : r.answer c = .error e := by rw [Reader.answer, read]
    have place : r.place c = c' := by rw [Reader.place, read]
    rw [answer, place]
    refine ⟨p', run, moves, fun a same => ?_, fun e' same => Except.error.inj same ▸ inside⟩
    cases same

/-- Two parsers at one cursor have as many tokens left. -/
theorem Stands.position_eq {depth' n : Nat} (h : Stands tokens depth p c)
    (h' : Stands (tokens.dropFirst n) depth' q c) (le : n ≤ tokens.length) :
    p.position = n + q.position := by
  have left := h.length_rest.symm.trans h'.length_rest
  have whole : (tokens.dropFirst n).length = tokens.length - n := by
    have := congrArg List.length (TokenSequence.toList_dropFirst tokens n)
    rwa [List.length_drop] at this
  have := h.position_le
  have := h'.position_le
  omega

end Parser

/-- A call meets no fault, answers what the reader does at the parser's cursor, and moves on with it:
forward to a place between two tokens, where no form is open. An answer that is no error takes a
token, if one is left. Whatever was asked before, the answer is that of a fresh parser of the tokens
that are left, which takes as many of them. At the end there is no statement, and nothing changes. -/
theorem answer_of_reached {strict : Bool} {source : Text} {tokens : TokenSequence} {p : Parser}
    (scanned : scan strict source = .ok tokens) (reached : Parser.Reached tokens p) :
    (∀ k, ∃ answer p', Parser.call k p = .ok (answer, p') ∧
      answer = (k.read maxNesting).answer p.cursor ∧
      p'.cursor = (k.read maxNesting).place p.cursor ∧
      p.position ≤ p'.position ∧ p'.position ≤ tokens.length ∧ p'.depth = 0 ∧
      p'.lastStop = tokens.stopBefore p'.position ∧
      ((∃ a, answer = .ok a) → p.position < tokens.length → p.position < p'.position) ∧
      ∃ q, Parser.call k (.start (tokens.dropFirst p.position)) = .ok (answer, q) ∧
        p'.position = p.position + q.position) ∧
    (p.position = tokens.length → Parser.call .statement p = .ok (.ok none, p)) := by
  have fits := TokenSequence.fits_of_scan scanned
  have stands := reached.stands fits
  refine ⟨fun k => ?_, fun atEnd => ?_⟩
  · obtain ⟨p', run, moves, post, _⟩ := (Parser.agrees_call stands k).answer_eq
    -- The same parser agrees with the cursor of a fresh one, which has another end before it.
    obtain ⟨p'', run', moves', _⟩ := (Parser.agrees_call stands.fresh k).answer_eq
    obtain ⟨q, run'', moves'', _⟩ :=
      (Parser.agrees_call (.start (fits.dropFirst p.position)) k).answer_eq
    obtain ⟨same, rfl⟩ := Prod.mk.inj (Except.ok.inj (run.symm.trans run'))
    have stands' := moves.stands
    refine ⟨_, p', run, rfl, stands'.cursor_eq (moves.lastStop (.inl rfl)), moves.le,
      stands'.position_le, stands'.depth_eq, stands'.lastStop_eq, ?_, q, same ▸ run'', ?_⟩
    · rintro ⟨a, answer⟩
      exact post a answer
    · exact moves'.stands.position_eq moves''.stands stands.position_le
  · have none : p.tokens.get? p.position = none := by
      rw [stands.tokens_eq, atEnd]
      exact Array.getElem?_eq_none (Nat.le_refl _)
    have look : Parser.Step.current p = .ok (.ok .none, p) := by rw [Parser.Step.current, none]
    exact (Checked.bind_ok look).trans rfl

/-- After `a` the semicolon is missing, and the call fails; the next call reads `b;`. -/
theorem answer_of_reached_error :
    ∃ tokens p, scan false ['a', ' ', 'b', ';'] = .ok tokens ∧ Parser.Reached tokens p ∧
      p.position = 1 ∧ ∃ answer p' q, Parser.call .statement p = .ok (answer, p') ∧
        Parser.call .statement (.start (tokens.dropFirst 1)) = .ok (answer, q) ∧
        p'.position = 1 + q.position := by
  let tokens : TokenSequence := .ofList ['a', ' ', 'b', ';']
    [⟨.identifier, ⟨0, 1⟩⟩, ⟨.identifier, ⟨2, 1⟩⟩, ⟨.punctuator .semicolon, ⟨3, 1⟩⟩]
  have scanned : scan false ['a', ' ', 'b', ';'] = .ok tokens := rfl
  have failed : Parser.call .statement (.start tokens) =
      .ok (.error (.unexpectedToken (.punctuator .semicolon) .identifier ⟨2, 1⟩),
        ⟨tokens, 1, 1, 0⟩) := rfl
  have reached : Parser.Reached tokens ⟨tokens, 1, 1, 0⟩ := .call .start failed
  obtain ⟨answer, p', run, _, _, _, _, _, _, _, q, run', same⟩ :=
    (answer_of_reached scanned reached).1 .statement
  exact ⟨tokens, _, scanned, reached, rfl, answer, p', q, run, run', same⟩

end EcmaFront
