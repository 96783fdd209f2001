import EcmaFront.Proofs.Machine.Scanning
import EcmaFront.Proofs.Token.Longest

/-!
# Comments among the bytes

A comment is skipped byte by byte from wherever its two first bytes stand: an ASCII byte is a
character of its own, so these stand between two characters, and so does the end that is found.

* `Text.split_of_ascii`: an ASCII byte divides its text.
* `Trivia.Closes`: what stands behind `/*`, as far as the comment goes.
* `Scanner.skipComment_of_starts`: which characters both kinds of comments pass.
-/

namespace EcmaFront

/-- What stands behind the opening of a block comment: the text through the first `*/`, or all that is
left, if there is none. -/
inductive Trivia.Closes : Text → Text → Prop
  | closed {body rest : Text} : ¬ Text.HoldsClose (body ++ ['*']) → Closes (body ++ ['*', '/']) rest
  | unclosed {body : Text} : ¬ Text.HoldsClose body → Closes body []

theorem Trivia.closes_throughClose (t : Text) : Closes (throughClose t).1 (throughClose t).2 := by
  rcases throughClose_eq t with ⟨body, eq, first⟩ | ⟨nothing, never⟩
  · rw [eq]
    exact .closed first
  · rw [nothing]
    exact .unclosed never

namespace Text

/-- Where an ASCII byte stands in a text, its character does. -/
theorem split_of_ascii {t : Text} {position : Nat} {d : Char} (ascii : d.toNat < 128)
    (head : (t.bytes.drop position).head? = some d.toUInt8) :
    ∃ before after, t = before ++ d :: after ∧ size before = position := by
  induction t generalizing position with
  | nil => simp at head
  | cons c t ih =>
    have length := String.length_utf8EncodeChar c
    rw [bytes_cons] at head
    rcases Nat.lt_or_ge position c.utf8Size with inside | behind
    · rw [List.drop_append_of_le_length (by omega)] at head
      have notEmpty : (String.utf8EncodeChar c).drop position ≠ [] :=
        List.ne_nil_of_length_pos (by rw [List.length_drop]; omega)
      rw [List.head?_append_of_ne_nil _ notEmpty] at head
      have mem := List.mem_of_mem_drop (List.mem_of_mem_head? head)
      by_cases narrow : c.toNat < 128
      · rw [utf8Size_ascii narrow] at inside
        rw [(encode_ascii narrow).1, List.mem_singleton] at mem
        obtain rfl := toUInt8_inj ascii narrow mem
        exact ⟨[], t, rfl, by rw [size_nil]; omega⟩
      · exact absurd rfl (ne_of_mem_encode (Nat.le_of_not_lt narrow) ascii mem)
    · obtain ⟨further, rfl⟩ := Nat.exists_eq_add_of_le behind
      rw [← List.drop_drop, ← length, List.drop_left] at head
      obtain ⟨before, after, rfl, size_eq⟩ := ih head
      exact ⟨c :: before, after, rfl, by rw [size_cons, size_eq]⟩

end Text

namespace Scanner

variable {s : Scanner}

/-- A scanner in front of an ASCII character stands between two characters. -/
theorem exists_isBetween_of_starts {c : Char} {t : Text} (ascii : c.toNat < 128)
    (starts : Bytes.startsWith (c :: t) s.bytes = true) : ∃ before rest, s.IsBetween before rest := by
  obtain ⟨more, eq⟩ := List.isPrefixOf_iff_prefix.1 starts
  have head : s.bytes.head? = some c.toUInt8 := by
    rw [← eq, Text.bytes_ascii ascii, List.cons_append, List.head?_cons]
  obtain ⟨before, after, source_eq, position_eq⟩ := Text.split_of_ascii ascii head
  exact ⟨before, c :: after, source_eq, position_eq.symm⟩

/-- The scanner stands in front of a line comment, which goes up to a line break or the end. -/
structure AtLineComment (s : Scanner) (before comment rest : Text) : Prop where
  between : s.IsBetween before (comment ++ rest)
  cut : Trivia.lineComment (comment ++ rest) = (comment, rest)
  plain : ∀ c ∈ comment, Text.isLineBreak c = false
  ends : Text.EndsLine rest

/-- The scanner stands in front of a block comment, which has this text behind its opening. -/
structure AtBlockComment (s : Scanner) (before inside rest : Text) : Prop where
  between : s.IsBetween before ('/' :: '*' :: inside ++ rest)
  cut : Trivia.blockComment ('/' :: '*' :: inside ++ rest) = ('/' :: '*' :: inside, rest)
  closes : Trivia.Closes inside rest

theorem exists_atLineComment (starts : Bytes.startsWith ['/', '/'] s.bytes = true) :
    ∃ before comment rest, s.AtLineComment before comment rest := by
  obtain ⟨before, t, between⟩ := exists_isBetween_of_starts (by decide) starts
  have whole : (Trivia.lineComment t).1 ++ (Trivia.lineComment t).2 = t :=
    Text.run_append (fun c => !Text.isLineBreak c) t
  refine ⟨before, (Trivia.lineComment t).1, (Trivia.lineComment t).2, ?_, ?_, ?_, ?_⟩
  · rwa [whole]
  · rw [whole]
  · intro c mem
    simpa using List.mem_takeWhile_imp mem
  · intro c head
    simpa using Text.head?_dropWhile c head

theorem exists_atBlockComment (starts : Bytes.startsWith ['/', '*'] s.bytes = true) :
    ∃ before inside rest, s.AtBlockComment before inside rest := by
  obtain ⟨before, t, between⟩ := exists_isBetween_of_starts (by decide) starts
  have opens : Trivia.startsBlockComment t = true := by
    rw [← Bytes.startsBlockComment_bytes, ← between.bytes_eq, starts]
  obtain ⟨cs, rfl⟩ := Trivia.eq_of_startsBlockComment opens
  have whole : '/' :: '*' :: (Trivia.throughClose cs).1 ++ (Trivia.throughClose cs).2 =
      '/' :: '*' :: cs := Trivia.blockComment_append ('/' :: '*' :: cs)
  refine ⟨before, (Trivia.throughClose cs).1, (Trivia.throughClose cs).2, ?_, ?_, ?_⟩
  · rwa [whole]
  · rw [whole]
    rfl
  · exact Trivia.closes_throughClose cs

namespace AtBlockComment

variable {before inside rest : Text}

theorem skip (h : s.AtBlockComment before inside rest)
    (few : s.line + inside.count '\n' ≤ maxPosition) :
    Scan.skipBlockComment s = .ok (.ok (), { s with
      position := Text.size (before ++ '/' :: '*' :: inside)
      line := s.line + inside.count '\n' }) := by
  have count : ('/' :: '*' :: inside).count '\n' = inside.count '\n' := by simp
  have run := skipBlockComment_run h.between rfl
  rw [h.cut, count] at run
  rw [run few, Text.size_append, h.between.position_eq]

/-- A scanner that has not counted more lines than there are can count those of the comment. -/
theorem few (h : s.AtBlockComment before inside rest) (fits : Text.size s.source ≤ maxPosition)
    (line : s.line ≤ (LineIndex.ofText s.source).lineOf s.position) :
    s.line + inside.count '\n' ≤ maxPosition := by
  rw [h.between.source_eq, h.between.position_eq, LineIndex.lineOf_append] at line
  rw [h.between.source_eq, Text.size_append, Text.size_append, Text.size_cons, Text.size_cons] at fits
  have := before.count_le_size '\n'
  have := inside.count_le_size '\n'
  have slash := Char.utf8Size_pos '/'
  omega

end AtBlockComment

/-- From any place a line comment is skipped up to the first line break or the end, and a block
comment through the first `*/` behind its opening or to the end, with a line more for each line feed
in it. That sum is a position, if the scanner has not counted more lines than there are. -/
theorem skipComment_of_starts (s : Scanner) :
    (Bytes.startsWith ['/', '/'] s.bytes = true → ∃ before comment rest,
      s.AtLineComment before comment rest ∧
      Scan.skipLineComment s =
        .ok (.ok (), { s with position := Text.size (before ++ comment) })) ∧
    (Bytes.startsWith ['/', '*'] s.bytes = true → ∃ before inside rest,
      s.AtBlockComment before inside rest ∧
      (s.line + inside.count '\n' ≤ maxPosition →
        Scan.skipBlockComment s = .ok (.ok (), { s with
          position := Text.size (before ++ '/' :: '*' :: inside)
          line := s.line + inside.count '\n' })) ∧
      (Text.size s.source ≤ maxPosition →
        s.line ≤ (LineIndex.ofText s.source).lineOf s.position →
        s.line + inside.count '\n' ≤ maxPosition)) := by
  constructor
  · intro starts
    obtain ⟨before, comment, rest, here⟩ := exists_atLineComment starts
    refine ⟨before, comment, rest, here, ?_⟩
    rw [skipLineComment_run here.between, here.cut, Text.size_append, here.between.position_eq]
  · intro starts
    obtain ⟨before, inside, rest, here⟩ := exists_atBlockComment starts
    exact ⟨before, inside, rest, here, here.skip, here.few⟩

/-- A character with the first byte of a line break in a line comment; and a block comment, behind a
character of two bytes, that the slash behind its opening does not close. -/
theorem skipComment_of_starts_wide :
    let line : Scanner := ⟨false, ['/', '/', '€', '\u2028'], 0, 1⟩
    let block : Scanner := ⟨false, ['é', '/', '*', '/', '\n', '*', '/', 'b'], 2, 1⟩
    (Bytes.startsWith ['/', '/'] line.bytes = true ∧
      ∃ before comment rest, line.AtLineComment before comment rest ∧
        Scan.skipLineComment line =
          .ok (.ok (), { line with position := Text.size (before ++ comment) })) ∧
    Bytes.startsWith ['/', '*'] block.bytes = true ∧ Text.size block.source ≤ maxPosition ∧
      block.line ≤ (LineIndex.ofText block.source).lineOf block.position ∧
      ∃ before inside rest, block.AtBlockComment before inside rest ∧
        Scan.skipBlockComment block = .ok (.ok (), { block with
          position := Text.size (before ++ '/' :: '*' :: inside)
          line := 1 + inside.count '\n' }) := by
  intro line block
  have slashes : Bytes.startsWith ['/', '/'] line.bytes = true := by decide
  have opening : Bytes.startsWith ['/', '*'] block.bytes = true := by decide
  have fits : Text.size block.source ≤ maxPosition := by decide
  have counted : block.line ≤ (LineIndex.ofText block.source).lineOf block.position := by decide
  obtain ⟨before, inside, rest, here, run, few⟩ := (skipComment_of_starts block).2 opening
  exact ⟨⟨slashes, (skipComment_of_starts line).1 slashes⟩, opening, fits, counted, before, inside,
    rest, here, run (few fits counted)⟩

end Scanner

end EcmaFront
