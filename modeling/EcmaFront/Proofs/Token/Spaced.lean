import EcmaFront.Proofs.Token.Tiling

/-!
# Texts with spaces between them

The lexical grammar is as wide as the scanner: texts that it spells, with single spaces between
them, are scanned one by one (`scan_of_spelled`). A space keeps each token apart from the next.
-/

namespace EcmaFront

/-- Texts with a space in front of each. -/
def Text.spaced (texts : List Text) : Text := texts.flatMap (' ' :: ·)

theorem Text.separated_spaced (texts : List Text) : Text.Separated (spaced texts) := by
  cases texts with
  | nil => exact Spelled.separated_nil
  | cons t texts =>
    rintro c ⟨⟩
    rfl

theorem Text.intercalate_cons (t : Text) (texts : List Text) :
    [' '].intercalate (t :: texts) = t ++ spaced texts := by
  induction texts generalizing t with
  | nil => simp [spaced]
  | cons u texts ih => simp [ih, spaced]

/-! ## No trivia in front of a token -/

theorem Trivia.piece?_of_first {c : Char} (notSpace : Text.isSpace c = false) (notSlash : c ≠ '/')
    (cs : Text) : piece? (c :: cs) = none := by
  simp [piece?, notSpace, startsLineComment, startsBlockComment, notSlash]

/-- A space in front of a text without trivia in front. -/
theorem Trivia.piece?_space {t : Text} (none : piece? t = none) :
    piece? (' ' :: t) = some ([' '], t) := by
  have space : Text.isSpace ' ' = true := by decide
  have tail : t.takeWhile Text.isSpace = [] ∧ t.dropWhile Text.isSpace = t := by
    cases t with
    | nil => exact ⟨rfl, rfl⟩
    | cons c cs =>
      have notSpace : Text.isSpace c = false := by
        unfold piece? at none
        split at none
        · cases none
        · next notSpace => simpa using notSpace
      simp [notSpace]
  simp [piece?, space, Text.run, tail]

/-- An operator is no space, and a slash with more behind it is followed by no slash or star. -/
theorem Spelling.first_of_operator {row : String × TokenKind} (h : row ∈ operators) :
    ∃ c cs, row.1.toList = c :: cs ∧ Text.isSpace c = false ∧
      (c = '/' → ∀ d ∈ cs.head?, d ≠ '/' ∧ d ≠ '*') := by
  have all : ∀ row ∈ operators, Text.isSpace (row.1.toList.headD ' ') = false ∧
      (row.1.toList.headD ' ' = '/' →
        row.1.toList.tail.head?.all (fun d => d != '/' && d != '*') = true) := by
    decide +kernel
  cases spelling : row.1.toList with
  | nil => exact absurd spelling (ne_nil_of_mem_operators row h)
  | cons c cs =>
    have first := all row h
    rw [spelling] at first
    refine ⟨c, cs, rfl, first.1, fun slash d head => ?_⟩
    simpa [Option.mem_def.1 head] using first.2 slash

namespace Spelled

variable {strict : Bool} {kind : TokenKind} {text rest : Text}

theorem piece?_append (h : Spelled strict kind text) (separated : Text.Separated rest) :
    Trivia.piece? (text ++ rest) = none := by
  have notSpace {c : Char} (part : Text.isNamePart c = true ∨ c.isDigit = true) :
      Text.isSpace c = false := by
    rw [Bool.eq_false_iff]
    intro space
    have := (Text.notPart_of_isSpace space).2
    simp [this] at part
  cases h with
  | operator mem =>
    obtain ⟨c, cs, spelling, space, second⟩ := Spelling.first_of_operator mem
    rw [spelling, List.cons_append]
    by_cases slash : c = '/'
    · have behind : ∀ d ∈ (cs ++ rest).head?, d ≠ '/' ∧ d ≠ '*' := by
        intro d head
        cases cs with
        | nil =>
          have space := separated d head
          constructor <;> rintro rfl <;> revert space <;> decide
        | cons e cs => exact second slash d head
      subst slash
      generalize cs ++ rest = tail at behind
      cases tail with
      | nil => simp [Trivia.piece?, space, Trivia.startsLineComment, Trivia.startsBlockComment]
      | cons d tail =>
        obtain ⟨notSlash, notStar⟩ := behind d rfl
        simp [Trivia.piece?, space, Trivia.startsLineComment, Trivia.startsBlockComment, notSlash,
          notStar]
    · exact Trivia.piece?_of_first space slash _
  | name word =>
    obtain ⟨c, cs, rfl, start, _⟩ := word
    refine Trivia.piece?_of_first (notSpace (.inl (Text.isNamePart_of_isNameStart start))) ?_ _
    rintro rfl
    revert start
    decide
  | number nonempty digits =>
    obtain ⟨c, cs, rfl⟩ := List.exists_cons_of_ne_nil nonempty
    have digit := digits c List.mem_cons_self
    refine Trivia.piece?_of_first (notSpace (.inr digit)) ?_ _
    rintro rfl
    revert digit
    decide
  | string raw =>
    obtain ⟨quote, body, rfl | rfl, _, rfl⟩ := raw
    · exact Trivia.piece?_of_first (by decide) (by decide) _
    · exact Trivia.piece?_of_first (by decide) (by decide) _

end Spelled

/-! ## Scanning -/

/-- No lexeme touches another one. -/
def Apart (ts : List Lexeme) : Prop := ts.Pairwise fun t u => t.span.stop < u.span.start

namespace Lexer

variable {s : Lexer} {kind : TokenKind} {text rest : Text}

/-- A spelled text in front of a space or of the end is the next token. -/
theorem all_of_spelled {s' : Lexer} (skip : s.skipTrivia = s') (front : s'.rest = text ++ rest)
    (spelled : Spelled s'.strict kind text) (separated : Text.Separated rest) :
    s.all = (s'.move text rest).all.map (⟨kind, ⟨s'.offset, Text.size text⟩⟩ :: ·) := by
  cases text with
  | nil => exact absurd rfl spelled.ne_nil
  | cons c cs =>
    have read := spelled.read_append separated
    rw [all_eq, next, skip, nextAfterTrivia, front]
    simp only [List.cons_append, read]
    simp [move, Span.ofBounds]

/-- Spelled texts with a space in front of each are read one by one. -/
theorem all_of_spaced {texts : List Text} (front : s.rest = Text.spaced texts)
    (spelled : ∀ t ∈ texts, ∃ kind, Spelled s.strict kind t) :
    ∃ ts, s.all = .ok (ts.map Lexeme.token) ∧ Tiling s.strict s.offset ts s.rest ∧
      ts.map (·.text) = texts ∧ Apart ts ∧ ∀ t ∈ ts, s.offset < t.span.start := by
  induction texts generalizing s with
  | nil =>
    have front : s.rest = [] := front
    have skip := skipTrivia_of_none (by rw [front]; rfl)
    refine ⟨[], ?_, front ▸ .done .nil, rfl, .nil, nofun⟩
    rw [all_eq, next, skip, nextAfterTrivia, front]
    rfl
  | cons text texts ih =>
    obtain ⟨⟨kind, first⟩, others⟩ := List.forall_mem_cons.1 spelled
    have separated := Text.separated_spaced texts
    have none := first.piece?_append separated
    have front : s.rest = [' '] ++ (text ++ Text.spaced texts) := front
    have piece : Trivia.piece? s.rest = some ([' '], text ++ Text.spaced texts) := by
      rw [front]
      exact Trivia.piece?_space none
    have skip := (skipTrivia_of_piece? piece).trans (skipTrivia_of_none (by simpa using none))
    let after := (s.move [' '] (text ++ Text.spaced texts)).move text (Text.spaced texts)
    obtain ⟨ts, all, tiling, rfl, apart, ahead⟩ := @ih after rfl others
    refine ⟨⟨kind, ⟨s.offset + 1, Text.size text⟩, text⟩ :: ts, ?_, ?_, rfl, .cons ahead apart, ?_⟩
    · rw [all_of_spelled skip rfl first separated, all]
      rfl
    · rw [front]
      exact .lexeme (.space (by decide) .nil) first tiling
    · refine List.forall_mem_cons.2 ⟨Nat.lt_succ_self _, fun t mem => ?_⟩
      have far : s.offset + 1 + Text.size text < t.span.start := ahead t mem
      omega

end Lexer

/-- Texts that the lexical grammar spells, with single spaces between them, are scanned one by
one. -/
theorem scan_of_spelled {strict : Bool} {texts : List Text}
    (spelled : ∀ t ∈ texts, ∃ kind, Spelled strict kind t)
    (fits : Text.size ([' '].intercalate texts) ≤ maxPosition) :
    ∃ tokens, scan strict ([' '].intercalate texts) = .ok tokens ∧
      tokens.lexemes.map (·.text) = texts ∧ Apart tokens.lexemes := by
  have read : ∃ ts, (Lexer.start strict ([' '].intercalate texts)).all = .ok (ts.map Lexeme.token) ∧
      Tiling strict 0 ts ([' '].intercalate texts) ∧ ts.map (·.text) = texts ∧ Apart ts := by
    cases texts with
    | nil => exact ⟨[], rfl, .done .nil, rfl, .nil⟩
    | cons text texts =>
      rw [Text.intercalate_cons]
      obtain ⟨⟨kind, first⟩, others⟩ := List.forall_mem_cons.1 spelled
      have separated := Text.separated_spaced texts
      let start := Lexer.start strict (text ++ Text.spaced texts)
      have skip : start.skipTrivia = start :=
        Lexer.skipTrivia_of_none (first.piece?_append separated)
      have rest : (start.move text (Text.spaced texts)).rest = Text.spaced texts := rfl
      obtain ⟨ts, all, tiling, rfl, apart, ahead⟩ := Lexer.all_of_spaced rest others
      refine ⟨⟨kind, ⟨0, Text.size text⟩, text⟩ :: ts, ?_, ?_, rfl, .cons ahead apart⟩
      · rw [Lexer.all_of_spelled skip rfl first separated, all]
        rfl
      · exact .lexeme .nil first tiling
  obtain ⟨ts, all, tiling, same, apart⟩ := read
  refine ⟨_, scan_eq_ok.2 ⟨fits, _, all, rfl⟩, ?_⟩
  rw [tiling.lexemes_ofList]
  exact ⟨same, apart⟩

end EcmaFront
