import EcmaFront.Proofs.Machine.Pieces
import EcmaFront.Proofs.Token.Line

/-!
# The scanner of bytes is the lexer

A scanner stands where a lexer of its source does (`Scanner.ofLexer`): the bytes that the one has left
are those of the text that the other has left. Every piece of trivia and every token moves both past
the same text, and what a scanner asks of its numbers holds as long as the source has fewer bytes than
the last position.

* `Scanner.next_of_few`, `Scanner.next_ofLexer`: the scanner meets no fault and gives the next token
  of the lexer, as long as positions can count the lines.
* `Scanner.eq_of_next`: in any source it gives nothing else.
* `Scanner.all_ofLexer`, `Scanner.scan_eq`: so it does for all tokens that are left.
* `Scanner.Reached.line_eq`, `Scanner.Reached.line_eq_of_next`: its line is that of its position.
-/

namespace EcmaFront

namespace Lexer

variable {source : Text} {l : Lexer}

/-- A lexer counts no more lines than there are positions, if the source has fewer line feeds. -/
theorem StandsIn.line_le (h : l.StandsIn source) (few : source.count '\n' < maxPosition) :
    l.line ≤ maxPosition := by
  obtain ⟨before, rfl, _, line⟩ := h
  rw [List.count_append] at few
  omega

theorem next_of_piece? {taken rest : Text} (h : Trivia.piece? l.rest = some (taken, rest)) :
    l.next = (l.move taken rest).next := by
  rw [next, skipTrivia_of_piece? h, ← next]

theorem next_of_none (h : Trivia.piece? l.rest = none) : l.next = l.nextAfterTrivia := by
  rw [next, skipTrivia_of_none h]

end Lexer

namespace Scanner

open Checked (check_run bind_ok bind_error bind_fault)

variable {source taken rest : Text} {l : Lexer}

/-- The scanner stands between two parts of its source. -/
structure IsBetween (s : Scanner) (before rest : Text) : Prop where
  source_eq : s.source = before ++ rest
  position_eq : s.position = Text.size before

namespace IsBetween

variable {s : Scanner} {before : Text}

theorem bytes_eq (h : s.IsBetween before rest) : s.bytes = rest.bytes := by
  rw [bytes, h.source_eq, h.position_eq, Text.bytes_append, ← Text.length_bytes, List.drop_left]

theorem inside (h : s.IsBetween before (taken ++ rest)) :
    s.position + Text.size taken ≤ s.source.bytes.length := by
  rw [Text.length_bytes, h.source_eq, h.position_eq, Text.size_append, Text.size_append]
  omega

end IsBetween

/-- The scanner that stands where a lexer of the source does. -/
def ofLexer (source : Text) (l : Lexer) : Scanner := ⟨l.strict, source, l.offset, l.line⟩

theorem exists_isBetween (h : l.StandsIn source) :
    ∃ before, (ofLexer source l).IsBetween before l.rest := by
  obtain ⟨before, source_eq, offset, _⟩ := h
  exact ⟨before, source_eq, offset⟩

theorem bytes_ofLexer (h : l.StandsIn source) : (ofLexer source l).bytes = l.rest.bytes := by
  obtain ⟨before, between⟩ := exists_isBetween h
  exact between.bytes_eq

theorem rest_ofLexer (h : l.StandsIn source) : (ofLexer source l).rest = l.rest := by
  obtain ⟨before, rfl, offset, _⟩ := h
  have cut : (before ++ l.rest).dropBytes? l.offset = some l.rest :=
    Text.dropBytes?_eq_some_iff.2 ⟨before, rfl, offset.symm⟩
  exact congrArg (Option.getD · []) cut

/-- The bytes after the first ones. -/
theorem drop_ofLexer (h : l.StandsIn source) (eq : l.rest = taken ++ rest) :
    (ofLexer source l).source.bytes.drop (l.offset + Text.size taken) = rest.bytes := by
  have moved := bytes_ofLexer (h.move eq)
  exact moved

/-! ## Moving forward -/

theorem get_run (s : Scanner) : (get : Scan Scanner) s = .ok (.ok s, s) := rfl

theorem advance_run {s : Scanner} {length : Nat}
    (inside : s.position + length ≤ s.source.bytes.length) :
    Scan.advance length s = .ok (.ok (), { s with position := s.position + length }) := by
  refine (bind_ok (get_run s)).trans ?_
  rw [if_pos inside]
  rfl

theorem addLines_run {s : Scanner} {count : Nat} (few : s.line + count ≤ maxPosition) :
    Scan.addLines count s = .ok (.ok (), { s with line := s.line + count }) :=
  (bind_ok (get_run s)).trans (bind_ok (check_run (Checked.add_eq few) s))

theorem addLines_overflow {s : Scanner} {count : Nat} (many : maxPosition < s.line + count) :
    Scan.addLines count s = .error .overflow := by
  refine (bind_ok (get_run s)).trans (bind_fault ?_)
  rw [Checked.check, Checked.add_eq_overflow many]
  rfl

theorem token_run {s : Scanner} {kind : TokenKind} {start : Nat} (le : start ≤ s.position) :
    Scan.token kind start s = .ok (.ok ⟨kind, .ofBounds start s.position⟩, s) :=
  (bind_ok (get_run s)).trans (bind_ok (check_run (Span.checkedOfBounds_eq le) s))

theorem advance_ofLexer (h : l.StandsIn source) (eq : l.rest = taken ++ rest) :
    Scan.advance (Text.size taken) (ofLexer source l) =
      .ok (.ok (), ⟨l.strict, source, l.offset + Text.size taken, l.line⟩) := by
  obtain ⟨before, between⟩ := exists_isBetween h
  rw [eq] at between
  exact advance_run between.inside

/-- A text in which no line ends is passed without counting. -/
theorem advance_within_line (h : l.StandsIn source) (eq : l.rest = taken ++ rest)
    (plain : '\n' ∉ taken) :
    Scan.advance (Text.size taken) (ofLexer source l) =
      .ok (.ok (), ofLexer source (l.move taken rest)) := by
  rw [advance_ofLexer h eq, ofLexer, Lexer.move, List.count_eq_zero.2 plain]
  rfl

/-- Moves past a text, and counts the lines that end in it. -/
theorem pass_ofLexer (few : source.count '\n' < maxPosition) (h : l.StandsIn source)
    (eq : l.rest = taken ++ rest) :
    (do Scan.advance (Text.size taken); Scan.addLines (taken.count '\n')) (ofLexer source l) =
      .ok (.ok (), ofLexer source (l.move taken rest)) := by
  refine (bind_ok (advance_ofLexer h eq)).trans (addLines_run ?_)
  exact (h.move eq).line_le few

/-- Cuts a token off, in which no line ends. -/
theorem take_ofLexer (h : l.StandsIn source) (eq : l.rest = taken ++ rest) (plain : '\n' ∉ taken)
    (kind : TokenKind) :
    (do Scan.advance (Text.size taken); Scan.token kind l.offset) (ofLexer source l) =
      .ok (.ok ⟨kind, .ofBounds l.offset (l.move taken rest).offset⟩,
        ofLexer source (l.move taken rest)) :=
  (bind_ok (advance_within_line h eq plain)).trans (token_run (Nat.le_add_right ..))

/-! ## Trivia -/

theorem skipSpaces_ofLexer (few : source.count '\n' < maxPosition) (h : l.StandsIn source) :
    Scan.skipSpaces (ofLexer source l) =
      .ok (.ok (), ofLexer source (l.move (l.rest.takeWhile Text.isSpace)
        (l.rest.dropWhile Text.isSpace))) := by
  refine (bind_ok (get_run _)).trans ?_
  rw [rest_ofLexer h]
  exact pass_ofLexer few h List.takeWhile_append_dropWhile.symm

theorem skipSpaces_overflow (h : l.StandsIn source)
    (many : maxPosition < l.line + (l.rest.takeWhile Text.isSpace).count '\n') :
    Scan.skipSpaces (ofLexer source l) = .error .overflow := by
  have eq : l.rest = l.rest.takeWhile Text.isSpace ++ l.rest.dropWhile Text.isSpace :=
    List.takeWhile_append_dropWhile.symm
  refine (bind_ok (get_run _)).trans ?_
  rw [rest_ofLexer h]
  exact (bind_ok (advance_ofLexer h eq)).trans (addLines_overflow many)

/-- A line comment is skipped up to the first line break, whatever the line. -/
theorem skipLineComment_run {s : Scanner} {before t : Text} (h : s.IsBetween before t) :
    Scan.skipLineComment s =
      .ok (.ok (), { s with position := s.position + Text.size (Trivia.lineComment t).1 }) := by
  refine (bind_ok (get_run _)).trans ?_
  rw [h.bytes_eq, Bytes.untilLineBreak_bytes]
  rw [← List.takeWhile_append_dropWhile (p := fun c => !Text.isLineBreak c) (l := t)] at h
  exact advance_run h.inside

theorem not_mem_lineComment (t : Text) : '\n' ∉ (Trivia.lineComment t).1 := fun mem =>
  absurd (List.mem_takeWhile_imp mem) (by decide)

theorem skipLineComment_ofLexer (h : l.StandsIn source) :
    Scan.skipLineComment (ofLexer source l) =
      .ok (.ok (), ofLexer source (l.move (Trivia.lineComment l.rest).1
        (Trivia.lineComment l.rest).2)) := by
  obtain ⟨before, between⟩ := exists_isBetween h
  rw [skipLineComment_run between, ofLexer, Lexer.move,
    List.count_eq_zero.2 (not_mem_lineComment l.rest)]
  rfl

/-- A block comment is skipped through its end, and the lines that end in it are counted. -/
theorem skipBlockComment_run {s : Scanner} {before t : Text} (h : s.IsBetween before t)
    (starts : Trivia.startsBlockComment t = true)
    (few : s.line + (Trivia.blockComment t).1.count '\n' ≤ maxPosition) :
    Scan.skipBlockComment s =
      .ok (.ok (), { s with
        position := s.position + Text.size (Trivia.blockComment t).1
        line := s.line + (Trivia.blockComment t).1.count '\n' }) := by
  obtain ⟨cs, rfl⟩ := Trivia.eq_of_startsBlockComment starts
  have front : Scan.cutFront 2 (Text.bytes ('/' :: '*' :: cs)) = .ok (Text.bytes cs) := by
    rw [Text.bytes_ascii (by decide), Text.bytes_ascii (by decide)]
    rfl
  have length := Bytes.size_blockComment cs
  have eq := (Trivia.blockComment_append ('/' :: '*' :: cs)).symm
  have comment : Scan.cutBack (Text.size (Trivia.blockComment ('/' :: '*' :: cs)).1)
      (Text.bytes ('/' :: '*' :: cs)) =
      .ok (Text.bytes (Trivia.blockComment ('/' :: '*' :: cs)).1) := by
    have whole : Text.bytes ('/' :: '*' :: cs) =
        Text.bytes (Trivia.blockComment ('/' :: '*' :: cs)).1 ++
          Text.bytes (Trivia.blockComment ('/' :: '*' :: cs)).2 := by
      rw [← Text.bytes_append, ← eq]
    rw [Scan.cutBack, whole, ← Text.length_bytes, List.take_left, if_pos]
    rw [List.length_append]
    exact Nat.le_add_right ..
  refine (bind_ok (get_run _)).trans ?_
  rw [h.bytes_eq]
  refine (bind_ok (check_run front _)).trans ?_
  rw [← length]
  refine (bind_ok (check_run comment _)).trans ?_
  rw [Bytes.count_bytes (d := '\n') (by decide)]
  rw [eq] at h
  exact (bind_ok (advance_run h.inside)).trans (addLines_run few)

theorem skipBlockComment_ofLexer (few : source.count '\n' < maxPosition) (h : l.StandsIn source)
    (starts : Trivia.startsBlockComment l.rest = true) :
    Scan.skipBlockComment (ofLexer source l) =
      .ok (.ok (), ofLexer source (l.move (Trivia.blockComment l.rest).1
        (Trivia.blockComment l.rest).2)) := by
  obtain ⟨before, between⟩ := exists_isBetween h
  have moved := h.move (Trivia.blockComment_append l.rest).symm
  exact skipBlockComment_run between starts (moved.line_le few)

/-! ## Tokens -/

theorem name_ofLexer (h : l.StandsIn source) :
    let word := l.rest.takeWhile Text.isNamePart
    let after := l.move word (l.rest.dropWhile Text.isNamePart)
    Scan.name (ofLexer source l) =
      .ok (.ok ⟨Spelling.nameKind l.strict word, .ofBounds l.offset after.offset⟩,
        ofLexer source after) := by
  intro word after
  have eq : l.rest = word ++ l.rest.dropWhile Text.isNamePart :=
    List.takeWhile_append_dropWhile.symm
  have cut : (l.rest.takeBytes? (Text.size word)).elim (.error .noSlice) .ok =
      (.ok word : Checked Text) := by
    rw [Text.takeBytes?_eq_some_iff.2 ⟨_, eq, rfl⟩, Option.elim_some]
  have plain : '\n' ∉ word := fun mem => absurd (List.mem_takeWhile_imp mem) (by decide +kernel)
  refine (bind_ok (get_run _)).trans ?_
  rw [rest_ofLexer h]
  exact (bind_ok (check_run cut _)).trans (take_ofLexer h eq plain _)

theorem number_ofLexer (h : l.StandsIn source) :
    let digits := l.rest.takeWhile Char.isDigit
    let after := l.move digits (l.rest.dropWhile Char.isDigit)
    Scan.number (ofLexer source l) =
      .ok (.ok ⟨.number, .ofBounds l.offset after.offset⟩, ofLexer source after) := by
  intro digits after
  have plain : '\n' ∉ digits := fun mem => absurd (List.mem_takeWhile_imp mem) (by decide)
  refine (bind_ok (get_run _)).trans ?_
  rw [bytes_ofLexer h, Bytes.length_takeWhile_isDigit]
  exact take_ofLexer h List.takeWhile_append_dropWhile.symm plain _

/-- What a lexer answers for the front of its rest, which starts with `c`. -/
def answerOf (l : Lexer) (c : Char) : Front → Except LexicalError (Option Token) × Lexer
  | .token kind text rest =>
    let after := l.move text rest
    (.ok (some ⟨kind, .ofBounds l.offset after.offset⟩), after)
  | .unterminated => (.error (.unterminatedString l.offset l.line), l)
  | .exhausted before =>
    let atNull := l.move before []
    (.error (.exhausted atNull.offset atNull.line), l)
  | .unexpected => (.error (.unexpectedCharacter c l.offset l.line), l)

theorem nextAfterTrivia_eq {c : Char} {cs : Text} (eq : l.rest = c :: cs) :
    l.nextAfterTrivia = answerOf l c (Front.read l.strict c cs) := by
  simp only [Lexer.nextAfterTrivia, eq]
  cases Front.read l.strict c cs <;> rfl

section String

variable {quote : Char} {cs : Text} (quotes : quote = '\'' ∨ quote = '"')
  (eq : l.rest = quote :: cs)

include quotes

theorem ascii_quote : quote.toNat < 128 ∧ quote ≠ '\n' := by
  obtain rfl | rfl := quotes <;> decide

include eq

/-- A string is told by its ending among the characters. -/
theorem string_run (h : l.StandsIn source) :
    Scan.string quote.toUInt8 (ofLexer source l) =
      Scan.stringTo (.ofQuoted (l.offset + 1) 0 (Quoted.read quote cs)) (ofLexer source l) := by
  obtain ⟨narrow, _⟩ := ascii_quote quotes
  have inside : (ofLexer source l).source.bytes.drop (l.offset + 1) = Text.bytes cs := by
    have eq : l.rest = [quote] ++ cs := eq
    rw [← drop_ofLexer h eq, Text.size_cons, Text.utf8Size_ascii narrow]
    rfl
  refine (bind_ok (get_run _)).trans ?_
  rw [← Bytes.walk_bytes narrow, ← inside]
  rfl

theorem stringTo_exhausted (few : source.count '\n' < maxPosition) (h : l.StandsIn source)
    {before : Text} (read : Quoted.read quote cs = .exhausted before) :
    Scan.stringTo (.ofQuoted (l.offset + 1) 0 (.exhausted before)) (ofLexer source l) =
      .ok (.error (.exhausted (l.move (quote :: before) []).offset
        (l.move (quote :: before) []).line), ofLexer source l) := by
  obtain ⟨narrow, noFeed⟩ := ascii_quote quotes
  obtain ⟨after, cs_eq⟩ := Quoted.prefix_of_exhausted read
  have moved := h.move (show l.rest = (quote :: before) ++ after by rw [eq, ← cs_eq]; rfl)
  have line : (quote :: before).count '\n' = 0 + before.count '\n' := by
    simp [noFeed]
  have fits : l.line + (0 + before.count '\n') ≤ maxPosition := line ▸ moved.line_le few
  have offset : l.offset + 1 + Text.size before = l.offset + Text.size (quote :: before) := by
    rw [Text.size_cons, Text.utf8Size_ascii narrow, Nat.add_assoc]
  refine (bind_ok (get_run _)).trans ((bind_ok (check_run (Checked.add_eq fits) _)).trans ?_)
  rw [offset, ← line]
  rfl

theorem stringTo_closed (few : source.count '\n' < maxPosition) (h : l.StandsIn source)
    {body rest : Text} (read : Quoted.read quote cs = .closed body rest) :
    Scan.stringTo (.ofQuoted (l.offset + 1) 0 (.closed body rest)) (ofLexer source l) =
      .ok (.ok ⟨.string, .ofBounds l.offset (l.move (quote :: body ++ [quote]) rest).offset⟩,
        ofLexer source (l.move (quote :: body ++ [quote]) rest)) := by
  obtain ⟨narrow, noFeed⟩ := ascii_quote quotes
  have cut : l.rest = (quote :: body ++ [quote]) ++ rest := by
    rw [eq, ← Quoted.append_of_read read]
    simp
  have line : (quote :: body ++ [quote]).count '\n' = 0 + body.count '\n' := by
    simp [noFeed]
  have stop : l.offset + 1 + Text.size body + 1 =
      Text.size (quote :: body ++ [quote]) + l.offset := by
    simp only [List.cons_append, Text.size_cons, Text.size_append, Text.size_nil,
      Text.utf8Size_ascii narrow]
    omega
  have length : Checked.sub (l.offset + 1 + Text.size body + 1) l.offset =
      .ok (Text.size (quote :: body ++ [quote])) := by
    rw [stop, Checked.add_sub_cancel]
  refine (bind_ok (get_run _)).trans ?_
  refine (bind_ok (check_run length _)).trans ?_
  refine (bind_ok (advance_ofLexer h cut)).trans ?_
  rw [← line]
  refine (bind_ok (addLines_run ((h.move cut).line_le few))).trans ?_
  exact token_run (s := ofLexer source (l.move (quote :: body ++ [quote]) rest))
    (Nat.le_add_right ..)

/-- The string that starts at the lexer. -/
theorem string_ofLexer (few : source.count '\n' < maxPosition) (h : l.StandsIn source) :
    (do return some (← Scan.string quote.toUInt8)) (ofLexer source l) =
      .ok ((answerOf l quote (Front.readString quote cs)).1,
        ofLexer source (answerOf l quote (Front.readString quote cs)).2) := by
  have run := string_run quotes eq h
  rw [Front.readString]
  cases read : Quoted.read quote cs with
  | unterminated =>
    rw [read] at run
    exact bind_error run
  | exhausted before =>
    rw [read, stringTo_exhausted quotes eq few h read] at run
    exact bind_error run
  | closed body rest =>
    rw [read, stringTo_closed quotes eq few h read] at run
    exact bind_ok run

end String

/-! ## The next token -/

theorem atComment_ofLexer (h : l.StandsIn source) :
    (ofLexer source l).atComment =
      (Trivia.startsLineComment l.rest || Trivia.startsBlockComment l.rest) := by
  rw [atComment, bytes_ofLexer h, Bytes.startsLineComment_bytes, Bytes.startsBlockComment_bytes]

/-- One round of the scanner, told by the characters that are left. -/
theorem nextWithin_succ (h : l.StandsIn source) {c : Char} {cs : Text} (eq : l.rest = c :: cs)
    (n : Nat) :
    Scan.nextWithin (n + 1) (ofLexer source l) =
      (match if Trivia.startsLineComment l.rest || Trivia.startsBlockComment l.rest then none
        else Spelling.fitting? l.rest with
      | some (spelling, kind) => do
        Scan.advance (Text.size spelling.toList)
        return some (← Scan.token kind l.offset)
      | none =>
        if Text.isNameStart c then do
          return some (← Scan.name)
        else if Text.isSpace c then do
          Scan.skipSpaces
          Scan.nextWithin n
        else if c.isDigit then do
          return some (← Scan.number)
        else if Trivia.startsLineComment l.rest then do
          Scan.skipLineComment
          Scan.nextWithin n
        else if Trivia.startsBlockComment l.rest then do
          Scan.skipBlockComment
          Scan.nextWithin n
        else if c = '\'' || c = '"' then do
          return some (← Scan.string c.toUInt8)
        else
          throw (.unexpectedCharacter c l.offset l.line) : Scan (Option Token))
        (ofLexer source l) := by
  obtain ⟨b, bs, encode, _⟩ := Bytes.encode_eq_cons c
  have bytes_eq : l.rest.bytes = b :: (bs ++ Text.bytes cs) := by
    rw [eq, Text.bytes_cons, encode, List.cons_append]
  have head : l.rest.head?.getD '\ufffd' = c := by rw [eq]; rfl
  refine (bind_ok (get_run _)).trans ?_
  simp only [atComment_ofLexer h, current, rest_ofLexer h, bytes_ofLexer h, head,
    Bytes.fitting?_bytes, Bytes.startsLineComment_bytes, Bytes.startsBlockComment_bytes]
  rw [bytes_eq]
  by_cases ascii : c.toNat < 128
  · obtain rfl : b = c.toUInt8 := by
      rw [(Text.encode_ascii ascii).1] at encode
      exact (List.cons.inj encode).1.symm
    simp only [Bytes.toUInt8_eq_iff ascii (d := '\'') (by decide),
      Bytes.toUInt8_eq_iff ascii (d := '"') (by decide)]
    rfl
  · have wide := Nat.le_of_not_lt ascii
    have byteNe {d : Char} (narrow : d.toNat < 128) : b ≠ d.toUInt8 :=
      Text.ne_of_mem_encode wide narrow (encode ▸ List.mem_cons_self)
    have charNe {d : Char} (narrow : d.toNat < 128) : c ≠ d := Text.ne_of_wide wide narrow
    simp only [byteNe (d := '\'') (by decide), byteNe (d := '"') (by decide),
      charNe (d := '\'') (by decide), charNe (d := '"') (by decide), decide_false, Bool.or_self,
      Bool.false_eq_true, if_false]
    rfl

theorem not_starts_of_none {c : Char} {cs : Text} (none : Trivia.piece? (c :: cs) = none) :
    Text.isSpace c = false ∧ Trivia.startsLineComment (c :: cs) = false ∧
      Trivia.startsBlockComment (c :: cs) = false := by
  unfold Trivia.piece? at none
  split at none
  · cases none
  split at none
  · cases none
  split at none
  · cases none
  · next notSpace notLine notBlock =>
    exact ⟨by simpa using notSpace, Bool.eq_false_iff.2 notLine, Bool.eq_false_iff.2 notBlock⟩

theorem nextWithin_of_nil (h : l.StandsIn source) (eq : l.rest = []) (n : Nat) :
    Scan.nextWithin (n + 1) (ofLexer source l) = .ok (.ok none, ofLexer source l) := by
  have empty : (ofLexer source l).bytes = [] := by rw [bytes_ofLexer h, eq]; rfl
  refine (bind_ok (get_run _)).trans ?_
  rw [empty]
  rfl

theorem nextWithin_of_space (h : l.StandsIn source) {c : Char} {cs : Text} (eq : l.rest = c :: cs)
    (space : Text.isSpace c = true) (n : Nat) :
    Scan.nextWithin (n + 1) (ofLexer source l) =
      (do Scan.skipSpaces; Scan.nextWithin n) (ofLexer source l) := by
  obtain ⟨notMark, notPart, _⟩ := Text.notPart_of_isSpace space
  have noOperator : Spelling.fitting? l.rest = none := eq ▸ Spelling.fitting?_eq_none notMark cs
  have notStart : Text.isNameStart c = false := by
    refine Bool.eq_false_iff.2 fun start => ?_
    rw [Text.isNamePart_of_isNameStart start] at notPart
    cases notPart
  rw [nextWithin_succ h eq, noOperator, ite_self]
  simp only [notStart, space, Bool.false_eq_true, if_false, if_true]

/-- A round that meets trivia skips one piece of it. -/
theorem nextWithin_of_piece? (few : source.count '\n' < maxPosition) (h : l.StandsIn source)
    (piece : Trivia.piece? l.rest = some (taken, rest)) (n : Nat) :
    Scan.nextWithin (n + 1) (ofLexer source l) =
      Scan.nextWithin n (ofLexer source (l.move taken rest)) := by
  cases eq : l.rest with
  | nil => simp [eq, Trivia.piece?_nil] at piece
  | cons c cs =>
    unfold Trivia.piece? at piece
    split at piece
    · next space =>
      obtain ⟨rfl, rfl⟩ := Prod.mk.inj (Option.some.inj piece)
      have space : Text.isSpace c = true := by simpa [eq] using space
      rw [nextWithin_of_space h eq space]
      exact bind_ok (skipSpaces_ofLexer few h)
    rw [nextWithin_succ h eq]
    -- A comment starts with a slash, which would be read as an operator.
    have slash (slash : c = '/') :
        Text.isNameStart c = false ∧ Text.isSpace c = false ∧ c.isDigit = false := by
      subst slash
      decide
    split at piece
    · next line =>
      obtain ⟨rfl, rfl⟩ := Prod.mk.inj (Option.some.inj piece)
      obtain ⟨_, eq'⟩ := Trivia.eq_of_startsLineComment line
      obtain ⟨notStart, notSpace, notDigit⟩ := slash (List.cons.inj (eq.symm.trans eq')).1
      simp only [line, notStart, notSpace, notDigit, Bool.true_or, Bool.false_eq_true, if_false,
        if_true]
      exact bind_ok (skipLineComment_ofLexer h)
    split at piece
    · next notLine block =>
      obtain ⟨rfl, rfl⟩ := Prod.mk.inj (Option.some.inj piece)
      obtain ⟨_, eq'⟩ := Trivia.eq_of_startsBlockComment block
      obtain ⟨notStart, notSpace, notDigit⟩ := slash (List.cons.inj (eq.symm.trans eq')).1
      simp only [block, notLine, notStart, notSpace, notDigit, Bool.or_true, Bool.false_eq_true,
        if_false, if_true]
      exact bind_ok (skipBlockComment_ofLexer few h block)
    · cases piece

/-- Where no trivia stands, a round gives what stands in front. -/
theorem nextWithin_of_none (few : source.count '\n' < maxPosition) (h : l.StandsIn source)
    (none : Trivia.piece? l.rest = none) (n : Nat) :
    Scan.nextWithin (n + 1) (ofLexer source l) =
      .ok (l.nextAfterTrivia.1, ofLexer source l.nextAfterTrivia.2) := by
  cases eq : l.rest with
  | nil =>
    rw [Lexer.nextAfterTrivia, eq]
    exact nextWithin_of_nil h eq n
  | cons c cs =>
    obtain ⟨notSpace, notLine, notBlock⟩ := not_starts_of_none (eq ▸ none)
    rw [nextWithin_succ h eq, nextAfterTrivia_eq eq, Front.read, eq]
    simp only [notSpace, notLine, notBlock, Bool.or_self, Bool.false_eq_true, if_false]
    cases operator : Spelling.fitting? (c :: cs) with
    | some row =>
      have mem := List.mem_of_find?_eq_some operator
      have plain : '\n' ∉ row.1.toList := fun feed =>
        (Text.notPart_of_isSpace (c := '\n') (by decide)).1 (Spelling.subset_marks row mem feed)
      have cut := eq.trans (Spelling.append_of_fitting? operator).symm
      refine (bind_ok (advance_within_line h cut plain)).trans ?_
      exact bind_ok (token_run (Nat.le_add_right ..))
    | none =>
      by_cases start : Text.isNameStart c = true
      · simp only [start, if_true]
        rw [← eq]
        exact bind_ok (name_ofLexer h)
      by_cases digit : c.isDigit = true
      · simp only [start, digit, Bool.false_eq_true, if_false, if_true]
        rw [← eq]
        exact bind_ok (number_ofLexer h)
      by_cases quotes : (decide (c = '\'') || decide (c = '"')) = true
      · simp only [start, digit, quotes, Bool.false_eq_true, if_false, if_true]
        exact string_ofLexer (by simpa using quotes) eq few h
      · simp only [start, digit, quotes, Bool.false_eq_true, if_false]
        rfl

/-- The scanner and the lexer agree on the next token, if the scanner may skip enough pieces of
trivia. -/
theorem nextWithin_ofLexer (few : source.count '\n' < maxPosition) {n : Nat}
    (h : l.StandsIn source) (enough : l.rest.length < n) :
    Scan.nextWithin n (ofLexer source l) = .ok (l.next.1, ofLexer source l.next.2) := by
  induction n generalizing l with
  | zero => exact absurd enough (Nat.not_lt_zero _)
  | succ n ih =>
    cases piece : Trivia.piece? l.rest with
    | none => rw [nextWithin_of_none few h piece, Lexer.next_of_none piece]
    | some cut =>
      obtain ⟨taken, rest⟩ := cut
      have shorter := Trivia.length_lt_of_piece? piece
      have moved := h.move (Trivia.append_of_piece? piece).symm
      rw [nextWithin_of_piece? few h piece, Lexer.next_of_piece? piece]
      exact ih moved (by rw [Lexer.rest_move]; omega)

/-- The scanner meets no fault, gives the next token of the lexer, and stands where the lexer does,
if positions can count the lines. -/
theorem next_of_few (few : source.count '\n' < maxPosition) (h : l.StandsIn source) :
    (ofLexer source l).next = .ok (l.next.1, ofLexer source l.next.2) := by
  have enough : l.rest.length < (ofLexer source l).bytes.length + 1 := by
    rw [bytes_ofLexer h, Text.length_bytes]
    exact Nat.lt_succ_of_le (Text.length_le_size _)
  exact nextWithin_ofLexer few h enough

theorem next_ofLexer (fits : Text.size source < maxPosition) (h : l.StandsIn source) :
    (ofLexer source l).next = .ok (l.next.1, ofLexer source l.next.2) :=
  next_of_few (Nat.lt_of_le_of_lt (source.count_le_size '\n') fits) h

/-- Whatever the scanner gives, the lexer gives as well. Where positions cannot count the lines, the
source has nothing but line feeds, and the scanner meets a fault unless it is at the end. -/
theorem eq_of_next (fits : Text.size source ≤ maxPosition) (h : l.StandsIn source)
    {result : Except LexicalError (Option Token) × Scanner}
    (run : (ofLexer source l).next = .ok result) : result = (l.next.1, ofLexer source l.next.2) := by
  by_cases few : source.count '\n' < maxPosition
  · rw [next_of_few few h] at run
    exact (Except.ok.inj run).symm
  have feeds : ∀ c ∈ source, '\n' = c := by
    have := source.length_le_size
    have := source.count_le_length (a := '\n')
    exact List.count_eq_length.1 (by omega)
  obtain ⟨before, source_eq, offset, line⟩ := id h
  cases eq : l.rest with
  | nil =>
    have ended : l.next = (.ok none, l) := by
      rw [Lexer.next_of_none (by rw [eq, Trivia.piece?_nil]), Lexer.nextAfterTrivia, eq]
    rw [next, Scan.next, nextWithin_of_nil h eq] at run
    rw [ended, ← Except.ok.inj run]
  | cons c cs =>
    have left : ∀ c ∈ l.rest, '\n' = c := fun c mem =>
      feeds c (source_eq ▸ List.mem_append_right _ mem)
    have spaces : l.rest.takeWhile Text.isSpace = l.rest :=
      List.takeWhile_eq_self_iff.2 fun c mem => left c mem ▸ rfl
    have many : maxPosition < l.line + (l.rest.takeWhile Text.isSpace).count '\n' := by
      rw [source_eq, List.count_append] at few
      rw [spaces]
      omega
    have space : Text.isSpace c = true := left c (by rw [eq]; exact List.mem_cons_self) ▸ rfl
    rw [next, Scan.next, nextWithin_of_space h eq space, bind_fault (skipSpaces_overflow h many)]
      at run
    cases run

/-! ## All tokens -/

theorem upTo_ofLexer (fits : Text.size source < maxPosition) {n : Nat} (h : l.StandsIn source)
    (enough : l.rest.length < n) (tokens : TokenSequence) :
    ∃ s, Scan.upTo n tokens (ofLexer source l) =
      .ok (l.all.map fun list => list.foldl TokenSequence.push tokens, s) := by
  induction n generalizing l tokens with
  | zero => exact absurd enough (Nat.not_lt_zero _)
  | succ n ih =>
    have run := next_ofLexer fits h
    have stands : l.next.2.StandsIn source := (h.next rfl).1
    rw [Lexer.all_eq]
    cases step : l.next with
    | mk answer after =>
      rw [step] at run stands
      cases answer with
      | error e => exact ⟨_, bind_error run⟩
      | ok token =>
        cases token with
        | none => exact ⟨_, bind_ok run⟩
        | some t =>
          have shorter : after.rest.length < l.rest.length := Lexer.length_lt_of_next step
          obtain ⟨s, more⟩ := ih (l := after) stands (by omega) (tokens.push t)
          refine ⟨s, (bind_ok run).trans (more.trans ?_)⟩
          dsimp only
          cases after.all <;> rfl

theorem all_ofLexer (fits : Text.size source < maxPosition) (h : l.StandsIn source) :
    ∃ s, (ofLexer source l).all = .ok (l.all.map (TokenSequence.ofList source), s) := by
  have enough : l.rest.length < (ofLexer source l).bytes.length + 1 := by
    rw [bytes_ofLexer h, Text.length_bytes]
    exact Nat.lt_succ_of_le (Text.length_le_size _)
  exact upTo_ofLexer fits h enough (.empty source)

theorem scan_eq {strict : Bool} (fits : Text.size source < maxPosition) :
    scan strict source = .ok (EcmaFront.scan strict source) := by
  obtain ⟨s, run⟩ := all_ofLexer fits (.start strict source)
  have checked : checkSize source = .ok () := if_pos (Nat.le_of_lt fits)
  rw [scan, EcmaFront.scan, checked]
  change (ofLexer source (.start strict source)).all.map Prod.fst = _
  rw [run]
  cases (Lexer.start strict source).all <;> rfl

/-! ## Scanners that are asked again and again -/

/-- The states of a scanner that has been asked for the next token any number of times. -/
inductive Reached (strict : Bool) (source : Text) : Scanner → Prop
  | start : Reached strict source (.start strict source)
  | next {s s' : Scanner} {answer : Except LexicalError (Option Token)} :
    Reached strict source s → s.next = .ok (answer, s') → Reached strict source s'

/-- A lexer has been asked as often, and stands at the same place. -/
theorem Reached.exists_lexer {strict : Bool} {s : Scanner} (fits : Text.size source ≤ maxPosition)
    (h : Reached strict source s) : ∃ l, Lexer.Reached strict source l ∧ s = ofLexer source l := by
  induction h with
  | start => exact ⟨_, .start, rfl⟩
  | next _ step ih =>
    obtain ⟨l, reached, rfl⟩ := ih
    obtain ⟨_, rfl⟩ := Prod.mk.inj (eq_of_next fits reached.standsIn step)
    exact ⟨l.next.2, reached.next (rfl : l.next = (l.next.1, l.next.2)), rfl⟩

namespace Reached

variable {strict : Bool} {s s' : Scanner} {e : LexicalError}

/-- The line of a scanner is that of its position, although spaces, block comments and strings are
counted each in their own way. -/
theorem line_eq (fits : Text.size source ≤ maxPosition) (h : Reached strict source s) :
    s.line = (LineIndex.ofText source).lineOf s.position := by
  obtain ⟨l, reached, rfl⟩ := h.exists_lexer fits
  exact reached.standsIn.line_eq

theorem pointsInto_of_next (fits : Text.size source ≤ maxPosition) (h : Reached strict source s)
    (failed : s.next = .ok (.error e, s')) : e.PointsInto source := by
  obtain ⟨l, reached, rfl⟩ := h.exists_lexer fits
  obtain ⟨error, _⟩ := Prod.mk.inj (eq_of_next fits reached.standsIn failed)
  exact reached.pointsInto_of_next error.symm

/-- So is the line of an error that of the position which the error names, also where that is the
null character inside a string, and the diagnostic of the error is on this line. -/
theorem line_eq_of_next (fits : Text.size source ≤ maxPosition) (h : Reached strict source s)
    (failed : s.next = .ok (.error e, s')) :
    e.line = (LineIndex.ofText source).lineOf e.offset ∧
      ∀ file, ((SourceError.lexical e).toDiagnostic file source).location.position?.map (·.line) =
        some e.line :=
  have points := h.pointsInto_of_next fits failed
  ⟨points.line_eq, points.position_eq⟩

end Reached

end Scanner

end EcmaFront
