import EcmaFront.Proofs.Token.Spaced
import EcmaFront.Proofs.Tree.Completeness.Program
import EcmaFront.Proofs.Tree.Grammar.Realizable.Operator
import EcmaFront.Proofs.Tree.Grammar.Slots

/-!
# Parsing accepts exactly the grammar

A source has a tree, spans aside, if and only if the tree is in the grammar, nests no deeper than the
limit, and the tokens of the source are the lexemes of the tree. One such source is the text of the
tree, in which single spaces stand between the lexemes: parsing is the inverse of printing.

* `parse_iff_grammatical`.
-/

namespace EcmaFront

/-! ## Printed slots -/

theorem prints_filterMap (slots : List Slot) : Prints slots (slots.filterMap Slot.text?) := by
  induction slots with
  | nil => exact .nil
  | cons slot slots ih =>
    cases slot with
    | fixed kind => exact .fixed ih
    | word text => exact .word ih
    | numeral value => exact .numeral 0 ih
    | lastComma => exact .noComma ih

/-- A number that no lexeme touches has nothing attached. -/
theorem Apart.detached {ts : List Lexeme} (h : Apart ts) : Detached ts := by
  induction ts with
  | nil => trivial
  | cons t ts ih =>
    obtain ⟨first, rest⟩ := List.pairwise_cons.1 h
    refine ⟨fun _ => ?_, ih rest⟩
    cases ts with
    | nil => rfl
    | cons u us =>
      have far := first u List.mem_cons_self
      have apart : u.span.start ≠ t.span.stop := by omega
      exact if_pos apart

namespace Program

variable {strict : Bool} {source : Text} {p q : Program}

/-! ## Trees that agree up to spans -/

theorem nesting_bare (p : Program) : p.bare.nesting = p.nesting :=
  nesting_bareStatements p.statements

theorem nesting_eq (same : q.bare = p.bare) : q.nesting = p.nesting := by
  rw [← nesting_bare q, same, nesting_bare]

theorem slots_eq (same : q.bare = p.bare) : q.slots = p.slots := by
  rw [← slots_bare q, same, slots_bare]

/-! ## Sources and trees -/

theorem texts_lexemes (tokens : TokenSequence) :
    tokens.lexemes.map (·.text) = tokens.toList.map tokens.text := by
  rw [TokenSequence.lexemes, List.map_map]
  rfl

/-- Whatever is parsed is in the grammar, and its source is laid out for it. -/
theorem isGrammatical_of_parse (h : parse strict source = .ok q) :
    q.IsGrammatical strict ∧ q.nesting ≤ maxNesting ∧ q.LaidOut strict source := by
  obtain ⟨tokens, scanned, read⟩ := parse_eq_ok.1 h
  obtain ⟨written, _⟩ := written_of_ofTokens read
  have tiling := tiling_of_scan scanned
  refine ⟨written.grammatical tiling.spelled, ?_, tokens, scanned, ?_, ?_⟩
  · exact nestingStatements_le.2 written.nestsWithin
  · rw [← texts_lexemes]
    exact (written.fills tiling.lexed).prints
  · simpa using written.detached nofun trivial

/-- A source that is laid out for a tree of the grammar has the tree. -/
theorem exists_parse (grammatical : p.IsGrammatical strict) (nests : p.nesting ≤ maxNesting)
    (laid : p.LaidOut strict source) : ∃ q, parse strict source = .ok q ∧ q.bare = p.bare := by
  obtain ⟨tokens, scanned, prints, detached⟩ := laid
  have lays : Lays strict p.bare.slots tokens.lexemes := by
    refine ⟨(tiling_of_scan scanned).spelled, ?_⟩
    rw [slots_bare, texts_lexemes]
    exact prints
  have nests : ∀ s ∈ p.bare.statements, s.nesting ≤ maxNesting := by
    rw [← nesting_bare] at nests
    exact nestingStatements_le.1 nests
  have all : ∀ s ∈ p.bare.statements, (Piece.statement s).Realizable strict maxNesting :=
    fun s mem => (grammatical s mem).realizable (nests s mem)
  have detached : Detached (tokens.lexemes ++ []) := by
    rw [List.append_nil]
    exact detached
  obtain ⟨list, same, written⟩ := realized_statements all lays detached
  refine ⟨_, parse_eq_ok.2 ⟨tokens, scanned, ofTokens_of_written written⟩, ?_⟩
  rw [bare, same]
  rfl

/-- The text of a tree of the grammar is laid out for it. -/
theorem laidOut_text (grammatical : p.IsGrammatical strict) (fits : Text.size p.text ≤ maxPosition) :
    p.LaidOut strict p.text := by
  have spelled : ∀ text ∈ p.texts, ∃ kind, Spelled strict kind text := by
    intro text mem
    obtain ⟨slot, mem, prints⟩ := List.mem_filterMap.1 mem
    rw [← slots_bare] at mem
    exact areSpelled_statements (fun s mem => (grammatical s mem).spelled) slot mem text prints
  obtain ⟨tokens, scanned, texts, apart⟩ := scan_of_spelled spelled fits
  refine ⟨tokens, scanned, ?_, apart.detached⟩
  rw [← texts_lexemes, texts]
  exact prints_filterMap p.slots

end Program

/-- A source has a tree, spans aside, if and only if the tree is in the grammar, nests no deeper than
the limit, and the tokens of the source are its lexemes. So if the text of the tree has a size that
positions cover, some source has the tree if and only if the tree is in the grammar and nests no
deeper than the limit, and then the text of the tree is such a source. -/
theorem parse_iff_grammatical (strict : Bool) (p : Program) :
    (∀ source, (∃ q, parse strict source = .ok q ∧ q.bare = p.bare) ↔
      p.IsGrammatical strict ∧ p.nesting ≤ maxNesting ∧ p.LaidOut strict source) ∧
    (Text.size p.text ≤ maxPosition →
      ((∃ source q, parse strict source = .ok q ∧ q.bare = p.bare) ↔
        p.IsGrammatical strict ∧ p.nesting ≤ maxNesting) ∧
      (p.IsGrammatical strict → p.nesting ≤ maxNesting →
        ∃ q, parse strict p.text = .ok q ∧ q.bare = p.bare)) := by
  have exact_form : ∀ source, (∃ q, parse strict source = .ok q ∧ q.bare = p.bare) ↔
      p.IsGrammatical strict ∧ p.nesting ≤ maxNesting ∧ p.LaidOut strict source := by
    intro source
    constructor
    · rintro ⟨q, parsed, same⟩
      obtain ⟨grammatical, nests, tokens, scanned, prints, detached⟩ :=
        Program.isGrammatical_of_parse parsed
      rw [Program.IsGrammatical, same] at grammatical
      rw [Program.slots_eq same] at prints
      exact ⟨grammatical, Program.nesting_eq same ▸ nests, tokens, scanned, prints, detached⟩
    · rintro ⟨grammatical, nests, laid⟩
      exact Program.exists_parse grammatical nests laid
  refine ⟨exact_form, fun fits => ?_⟩
  have print : p.IsGrammatical strict → p.nesting ≤ maxNesting →
      ∃ q, parse strict p.text = .ok q ∧ q.bare = p.bare :=
    fun grammatical nests =>
      (exact_form p.text).2 ⟨grammatical, nests, Program.laidOut_text grammatical fits⟩
  refine ⟨⟨?_, fun ⟨grammatical, nests⟩ => ⟨p.text, print grammatical nests⟩⟩, print⟩
  rintro ⟨source, found⟩
  obtain ⟨grammatical, nests, _⟩ := (exact_form source).1 found
  exact ⟨grammatical, nests⟩

/-- The outer `new` of `new new a(b).c;` has no arguments. Its text has other spaces. -/
theorem parse_iff_grammatical_new :
    ∃ p, parse false ['n', 'e', 'w', ' ', 'n', 'e', 'w', ' ', 'a', '(', 'b', ')', '.', 'c', ';'] =
        .ok p ∧ p.IsGrammatical false ∧
      p.text = ['n', 'e', 'w', ' ', 'n', 'e', 'w', ' ', 'a', ' ', '(', ' ', 'b', ' ', ')', ' ', '.',
        ' ', 'c', ' ', ';'] ∧ ∃ q, parse false p.text = .ok q ∧ q.bare = p.bare := by
  let a : Expr := .leaf (.identifier ['a']) ⟨8, 1⟩
  let b : Argument := .plain (.leaf (.identifier ['b']) ⟨10, 1⟩)
  let callee : Expr := .property (.construct a [b] ⟨4, 8⟩) ⟨['c'], ⟨13, 1⟩⟩ false ⟨4, 10⟩
  let p : Program := ⟨[.expression (.constructBare callee ⟨0, 14⟩) ⟨0, 15⟩], ⟨0, 15⟩⟩
  have parsed : parse false ['n', 'e', 'w', ' ', 'n', 'e', 'w', ' ', 'a', '(', 'b', ')', '.', 'c',
      ';'] = .ok p := rfl
  obtain ⟨exact_form, printed⟩ := parse_iff_grammatical false p
  obtain ⟨grammatical, nests, _⟩ := (exact_form _).1 ⟨p, parsed, rfl⟩
  have text : p.text = ['n', 'e', 'w', ' ', 'n', 'e', 'w', ' ', 'a', ' ', '(', ' ', 'b', ' ', ')',
      ' ', '.', ' ', 'c', ' ', ';'] := rfl
  have fits : Text.size p.text ≤ maxPosition := by
    rw [text]
    decide
  exact ⟨p, parsed, grammatical, text, (printed fits).2 grammatical nests⟩

end EcmaFront
