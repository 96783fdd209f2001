import EcmaFront.Proofs.Token.Joined

/-!
# Lexemes with other trivia between them

The lexemes of a scanned source are scanned again wherever they are written with spaces between
them. `Trivia.Closed` are the pieces of trivia that what follows cannot change, and
`Lexeme.respaced` are the lexemes with such trivia behind each, where they then stand.

* `Lexer.all_of_respaced`: what a lexer reads where they are written.
* `scan_respaced`: the lexemes of a source with other trivia are the same, further on or back.
-/

namespace EcmaFront

/-- Spaces, closed block comments, and line comments with the line break that ends them. -/
inductive Trivia.Closed : Text → Prop
  | nil : Closed []
  | space {c : Char} {t : Text} : Text.isSpace c = true → Closed t → Closed (c :: t)
  | line {inside t : Text} {c : Char} : (∀ d ∈ inside, Text.isLineBreak d = false) →
    Text.isLineBreak c = true → Closed t → Closed ('/' :: '/' :: (inside ++ c :: t))
  | block {inside t : Text} : ¬ Text.HoldsClose (inside ++ ['*']) → Closed t →
    Closed ('/' :: '*' :: (inside ++ '*' :: '/' :: t))

/-- Closed trivia is a gap in front of anything. -/
theorem Trivia.Closed.gap {t : Text} (h : Closed t) (rest : Text) : Gap t rest := by
  induction h with
  | nil => exact .nil
  | space space _ ih => exact .space space ih
  | @line _ _ c plain breaks _ ih =>
    have space : Text.isSpace c = true := by rw [Text.isSpace, breaks, Bool.or_true]
    refine .line plain ?_ (.space space ih)
    rintro _ ⟨⟩
    exact breaks
  | block noClose _ ih => exact .block noClose ih

/-- Each text with its gap behind it. -/
def Text.weave (texts gaps : List Text) : Text := (texts.zipWith (· ++ ·) gaps).flatten

/-- The lexemes, each with its gap behind it, from `offset` on. -/
def Lexeme.respaced (offset : Nat) : List Lexeme → List Text → List Lexeme
  | l :: more, gap :: gaps =>
    let moved : Lexeme := ⟨l.kind, ⟨offset, Text.size l.text⟩, l.text⟩
    moved :: respaced (moved.span.stop + Text.size gap) more gaps
  | _, _ => []

/-- Gaps that may stand behind texts: each is closed and starts with a space, and only the last may
be empty. -/
structure Trivia.Spacing (gaps : List Text) : Prop where
  closed : ∀ gap ∈ gaps, Closed gap
  separated : ∀ gap ∈ gaps, Text.Separated gap
  inside : ∀ gap ∈ gaps.dropLast, gap ≠ []

namespace Trivia.Spacing

variable {gap : Text} {gaps : List Text}

theorem tail (h : Spacing (gap :: gaps)) : Spacing gaps where
  closed := (List.forall_mem_cons.1 h.closed).2
  separated := (List.forall_mem_cons.1 h.separated).2
  inside := by
    cases gaps with
    | nil => nofun
    | cons => exact (List.forall_mem_cons.1 h.inside).2

/-- What is written behind a text is over or starts with a space. -/
theorem separated_weave (h : Spacing (gap :: gaps)) (texts : List Text) :
    Text.Separated (gap ++ Text.weave texts gaps) := by
  have separated := h.separated gap List.mem_cons_self
  cases gap with
  | cons c cs => exact separated
  | nil =>
    cases gaps with
    | nil => simp [Text.weave, Spelled.separated_nil]
    | cons => exact absurd rfl (h.inside [] List.mem_cons_self)

end Trivia.Spacing

/-- Lexemes with spaces between them are read one by one. -/
theorem Lexer.all_of_respaced {s : Lexer} {lexemes : List Lexeme} {lead : Text} {gaps : List Text}
    (front : s.rest = lead ++ Text.weave (lexemes.map (·.text)) gaps)
    (spelled : ∀ l ∈ lexemes, Spelled s.strict l.kind l.text)
    (closed : Trivia.Closed lead) (spacing : Trivia.Spacing gaps)
    (each : gaps.length = lexemes.length) :
    s.all = .ok ((Lexeme.respaced (s.offset + Text.size lead) lexemes gaps).map Lexeme.token) ∧
      Tiling s.strict s.offset (Lexeme.respaced (s.offset + Text.size lead) lexemes gaps)
        s.rest := by
  induction lexemes generalizing s lead gaps with
  | nil =>
    obtain rfl := List.eq_nil_of_length_eq_zero each
    have front : s.rest = lead ++ [] := front
    have skip := (skipTrivia_of_gap (closed.gap _) front).trans (skipTrivia_of_none rfl)
    constructor
    · rw [all_eq, next, skip]
      rfl
    · rw [front, List.append_nil]
      exact .done (closed.gap [])
  | cons l more ih =>
    obtain ⟨gap, gaps, rfl⟩ := List.exists_cons_of_length_eq_add_one each
    obtain ⟨first, others⟩ := List.forall_mem_cons.1 spelled
    have separated := spacing.separated_weave (more.map (·.text))
    let left := gap ++ Text.weave (more.map (·.text)) gaps
    have front : s.rest = lead ++ (l.text ++ left) := by
      rw [front]
      simp [left, Text.weave]
    have skip := (skipTrivia_of_gap (closed.gap _) front).trans
      (skipTrivia_of_none (first.piece?_append separated))
    let after := (s.move lead (l.text ++ left)).move l.text left
    obtain ⟨all, tiling⟩ := @ih after gap gaps rfl others
      (spacing.closed gap List.mem_cons_self) spacing.tail (Nat.succ.inj each)
    constructor
    · rw [all_of_spelled skip rfl first separated, all]
      rfl
    · rw [front]
      exact .lexeme (closed.gap _) first tiling

theorem Lexeme.map_respaced {α : Type} {f : Lexeme → α}
    (hf : ∀ l span, f ⟨l.kind, span, l.text⟩ = f l) {lexemes : List Lexeme} {gaps : List Text}
    (each : gaps.length = lexemes.length) (offset : Nat) :
    (respaced offset lexemes gaps).map f = lexemes.map f := by
  induction lexemes generalizing gaps offset with
  | nil => rfl
  | cons l more ih =>
    obtain ⟨gap, gaps, rfl⟩ := List.exists_cons_of_length_eq_add_one each
    simp only [respaced, List.map_cons, hf, ih (Nat.succ.inj each)]

/-- Lexemes that the lexical grammar spells are scanned where they are written. -/
theorem scan_of_respaced {strict : Bool} {lead : Text} {lexemes : List Lexeme} {gaps : List Text}
    (spelled : ∀ l ∈ lexemes, Spelled strict l.kind l.text) (closed : Trivia.Closed lead)
    (spacing : Trivia.Spacing gaps) (each : gaps.length = lexemes.length)
    (fits : Text.size (lead ++ Text.weave (lexemes.map (·.text)) gaps) ≤ maxPosition) :
    ∃ tokens, scan strict (lead ++ Text.weave (lexemes.map (·.text)) gaps) = .ok tokens ∧
      tokens.lexemes = Lexeme.respaced (Text.size lead) lexemes gaps := by
  let woven := lead ++ Text.weave (lexemes.map (·.text)) gaps
  have ⟨all, tiling⟩ := Lexer.all_of_respaced (s := .start strict woven) rfl spelled closed
    spacing each
  have tiling : Tiling strict 0 (Lexeme.respaced (0 + Text.size lead) lexemes gaps) woven := tiling
  refine ⟨_, scan_eq_ok.2 ⟨fits, _, all, rfl⟩, tiling.lexemes_ofList.trans ?_⟩
  rw [Nat.zero_add]

/-- The lexemes of a scanned source, written with other trivia between them, are scanned again: the
same kinds and texts, where they are then written. Each gap behind a lexeme starts with a space, and
the last may be empty. Trivia alone has no lexemes. -/
theorem scan_respaced {strict : Bool} {source lead : Text} {tokens : TokenSequence}
    {gaps : List Text} (scanned : scan strict source = .ok tokens) (closed : Trivia.Closed lead)
    (spacing : Trivia.Spacing gaps) (each : gaps.length = tokens.lexemes.length)
    (fits : Text.size (lead ++ Text.weave (tokens.lexemes.map (·.text)) gaps) ≤ maxPosition) :
    (∃ tokens', scan strict (lead ++ Text.weave (tokens.lexemes.map (·.text)) gaps) = .ok tokens' ∧
      tokens'.lexemes = Lexeme.respaced (Text.size lead) tokens.lexemes gaps ∧
      tokens'.lexemes.map (fun l => (l.kind, l.text)) =
        tokens.lexemes.map (fun l => (l.kind, l.text))) ∧
    ∃ none, scan strict lead = .ok none ∧ none.lexemes = [] := by
  constructor
  · obtain ⟨tokens', scanned', same⟩ :=
      scan_of_respaced (tiling_of_scan scanned).spelled closed spacing each fits
    refine ⟨tokens', scanned', same, ?_⟩
    rw [same, Lexeme.map_respaced (fun _ _ => rfl) each]
  · have alone : lead ++ Text.weave ([].map Lexeme.text) [] = lead := List.append_nil lead
    have fits : Text.size lead ≤ maxPosition := by
      rw [Text.size_append] at fits
      omega
    rw [← alone] at fits ⊢
    exact scan_of_respaced nofun closed ⟨nofun, nofun, nofun⟩ rfl fits

/-- A string with slashes in it, behind a line comment and a block comment. -/
theorem scan_respaced_comments :
    ∃ tokens, scan false ['a', '"', '/', '/', '"'] = .ok tokens ∧
      ∃ tokens', scan false ("//b\na /**/".toList ++ ['"', '/', '/', '"']) = .ok tokens' ∧
        tokens'.lexemes =
          [⟨.identifier, ⟨4, 1⟩, ['a']⟩, ⟨.string, ⟨10, 4⟩, ['"', '/', '/', '"']⟩] := by
  let tokens : TokenSequence :=
    .ofList ['a', '"', '/', '/', '"'] [⟨.identifier, ⟨0, 1⟩⟩, ⟨.string, ⟨1, 4⟩⟩]
  have scanned : scan false ['a', '"', '/', '/', '"'] = .ok tokens := rfl
  have closed : Trivia.Closed ['/', '/', 'b', '\n'] :=
    @Trivia.Closed.line ['b'] [] '\n' (List.forall_mem_singleton.2 rfl) rfl .nil
  have block : Trivia.Closed [' ', '/', '*', '*', '/'] :=
    .space rfl (@Trivia.Closed.block [] [] (fun close => by simpa using close.length_le) .nil)
  have blank : Text.Separated [' ', '/', '*', '*', '/'] := by
    rintro c ⟨⟩
    rfl
  have spacing : Trivia.Spacing [[' ', '/', '*', '*', '/'], []] :=
    ⟨by simp [block, Trivia.Closed.nil], by simp [blank, Spelled.separated_nil], by simp⟩
  obtain ⟨tokens', scanned', same, _⟩ := (scan_respaced scanned closed spacing rfl (by decide)).1
  exact ⟨tokens, scanned, tokens', scanned', same⟩

end EcmaFront
