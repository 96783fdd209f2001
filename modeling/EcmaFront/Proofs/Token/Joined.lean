import EcmaFront.Proofs.Token.Line
import EcmaFront.Proofs.Token.Spaced

/-!
# Texts joined by a line feed

Behind a line feed a text is scanned as if it stood alone, only further on: the line feed ends every
token before it, and each piece of trivia but a block comment that is still open.

* `Gap.before_break`, `Front.read_break`: trivia and tokens in front of a line feed stay what they
  are, whatever follows.
* `Lexer.all_shift`: where a lexer stands changes the positions and lines in its answers, and
  nothing else.
* `scan_join`: so the tokens of two texts with a line feed between them are those of the one, and
  then those of the other.
-/

namespace EcmaFront

/-! ## Trivia that end with an open comment -/

/-- The text is trivia, and the last piece of them is a block comment that is never closed. -/
inductive Gap.StaysOpen : Text → Prop
  | here {inside : Text} : ¬ Text.HoldsClose inside → StaysOpen ('/' :: '*' :: inside)
  | space {c : Char} {t : Text} : Text.isSpace c = true → StaysOpen t → StaysOpen (c :: t)
  | line {inside t : Text} : (∀ c ∈ inside, Text.isLineBreak c = false) → Text.EndsLine t →
    StaysOpen t → StaysOpen ('/' :: '/' :: (inside ++ t))
  | block {inside t : Text} : ¬ Text.HoldsClose (inside ++ ['*']) → StaysOpen t →
    StaysOpen ('/' :: '*' :: (inside ++ '*' :: '/' :: t))

namespace TokenSequence

/-- What follows the last token. -/
def tail? (s : TokenSequence) : Option Text :=
  s.source.dropBytes? ((s.toList.getLast?.map (·.span.stop)).getD 0)

/-- The source ends inside a block comment. -/
def EndsInComment (s : TokenSequence) : Prop := ∃ t ∈ s.tail?, Gap.StaysOpen t

end TokenSequence

/-! ## In front of a line feed -/

namespace Trivia

/-- A line feed ends a line as the end of the text does. -/
theorem endsLine_append {t : Text} (h : Text.EndsLine t) (more : Text) :
    Text.EndsLine (t ++ '\n' :: more) := by
  cases t with
  | nil =>
    rintro c ⟨⟩
    rfl
  | cons c cs => exact h

theorem piece?_slash {cs : Text} :
    piece? ('/' :: cs) = none ↔ ∀ d ∈ cs.head?, d ≠ '/' ∧ d ≠ '*' := by
  have space : Text.isSpace '/' = false := by decide
  cases cs with
  | nil => simp [piece?, space, startsLineComment, startsBlockComment]
  | cons d cs =>
    by_cases slash : d = '/'
    · simp [piece?, space, startsLineComment, slash]
    · by_cases star : d = '*' <;>
        simp [piece?, space, startsLineComment, startsBlockComment, slash, star]

/-- A line feed makes no comment of a slash before it. -/
theorem piece?_break {c : Char} {cs : Text} (none : piece? (c :: cs) = none) (more : Text) :
    piece? (c :: (cs ++ '\n' :: more)) = Option.none := by
  by_cases slash : c = '/'
  · subst slash
    rw [piece?_slash] at none ⊢
    cases cs with
    | nil =>
      rintro d ⟨⟩
      decide
    | cons d cs => exact none
  · have notSpace : Text.isSpace c = false := by
      unfold piece? at none
      split at none
      · cases none
      · next notSpace => simpa using notSpace
    exact piece?_of_first notSpace slash _

theorem piece?_lineComment {inside rest : Text}
    (plain : ∀ c ∈ inside, Text.isLineBreak c = false) (ends : Text.EndsLine rest) :
    piece? ('/' :: '/' :: (inside ++ rest)) = some ('/' :: '/' :: inside, rest) := by
  have run := Text.run_append_of_separated (p := fun c => !Text.isLineBreak c) inside
    (by simpa using plain) (by simpa [Text.EndsLine] using ends)
  simp only [Text.run, Prod.mk.injEq] at run
  have space : Text.isSpace '/' = false := by decide
  simp [piece?, space, startsLineComment, lineComment_slashes, run]

theorem piece?_blockComment {t inside rest : Text} (through : throughClose t = (inside, rest)) :
    piece? ('/' :: '*' :: t) = some ('/' :: '*' :: inside, rest) := by
  have space : Text.isSpace '/' = false := by decide
  simp [piece?, space, startsLineComment, startsBlockComment, blockComment, through]

theorem throughClose_of_close {inside : Text} (noClose : ¬ Text.HoldsClose (inside ++ ['*']))
    (rest : Text) : throughClose (inside ++ '*' :: '/' :: rest) = (inside ++ ['*', '/'], rest) := by
  induction inside with
  | nil => simp [throughClose]
  | cons c inside ih =>
    rw [List.cons_append, holdsClose_cons, not_or] at noClose
    have stays : ¬ (c = '*' ∧ (inside ++ '*' :: '/' :: rest).head? = some '/') := by
      cases inside <;> simp_all
    rw [List.cons_append, throughClose, if_neg (by simpa using stays), ih noClose.2]
    rfl

theorem throughClose_of_open {t : Text} (noClose : ¬ Text.HoldsClose t) :
    throughClose t = (t, []) := by
  induction t with
  | nil => rfl
  | cons c t ih =>
    rw [holdsClose_cons, not_or] at noClose
    simp [throughClose, noClose.1, ih noClose.2]

end Trivia

/-- A gap stays one if a line feed follows what is behind it. -/
theorem Gap.before_break {gap rest : Text} (h : Gap gap rest)
    (closed : rest = [] → ¬ StaysOpen gap) (more : Text) : Gap gap (rest ++ '\n' :: more) := by
  induction h with
  | nil => exact .nil
  | space space _ ih => exact .space space (ih fun done opens => closed done (.space space opens))
  | @line inside gap rest plain ends _ ih =>
    refine .line plain ?_ (ih fun done opens => closed done ?_)
    · rw [← List.append_assoc]
      exact Trivia.endsLine_append ends more
    · subst done
      exact .line plain (by simpa using ends) opens
  | block noClose _ ih =>
    exact .block noClose (ih fun done opens => closed done (.block noClose opens))
  | openBlock noClose => exact absurd (.here noClose) (closed rfl)

theorem Text.run_break {p : Char → Bool} (feed : p '\n' = false) (t more : Text) :
    run p (t ++ '\n' :: more) = ((run p t).1, (run p t).2 ++ '\n' :: more) := by
  induction t with
  | nil => simp [run, feed]
  | cons c t ih =>
    simp only [run, Prod.mk.injEq] at ih
    by_cases h : p c <;> simp [run, h, ih]

/-- A token in front of a line feed is the same token, whatever follows. -/
theorem Front.read_break {strict : Bool} {c : Char} {cs text rest : Text} {kind : TokenKind}
    (h : read strict c cs = .token kind text rest) (more : Text) :
    read strict c (cs ++ '\n' :: more) = .token kind text (rest ++ '\n' :: more) := by
  obtain ⟨notMark, notPart, notDigit⟩ := Text.notPart_of_isSpace (c := '\n') rfl
  have same := Spelling.fitting?_append notMark notDigit (c :: cs) more
  rw [List.cons_append] at same
  unfold read at h ⊢
  rw [same]
  split at h
  · next found =>
    obtain ⟨rfl, rfl, rfl⟩ := token.inj h
    have fits := congrArg List.length (Spelling.append_of_fitting? found)
    rw [List.length_append] at fits
    dsimp only at fits ⊢
    rw [← List.cons_append, List.drop_append_of_le_length (by omega)]
  · dsimp only
    split at h
    · next start =>
      obtain ⟨rfl, rfl, rfl⟩ := token.inj h
      rw [if_pos start, ← List.cons_append, Text.run_break notPart]
      rfl
    next notStart =>
    rw [if_neg notStart]
    split at h
    · next digit =>
      obtain ⟨rfl, rfl, rfl⟩ := token.inj h
      rw [if_pos digit, ← List.cons_append, Text.run_break notDigit]
      rfl
    next notDigit =>
    rw [if_neg notDigit]
    split at h
    · next quote =>
      rw [if_pos quote]
      unfold readString at h ⊢
      split at h
      · next body rest' closed =>
        obtain ⟨rfl, rfl, rfl⟩ := token.inj h
        rw [← Quoted.append_of_read closed, List.append_assoc, List.cons_append]
        have quotes : c ≠ '\n' ∧ c ≠ '\\' := by
          simp only [Bool.or_eq_true, decide_eq_true_eq] at quote
          obtain rfl | rfl := quote <;> decide
        rw [(Quoted.Items.of_read closed).read_append quotes.1 quotes.2]
      all_goals cases h
    · cases h

namespace Lexer

variable {s : Lexer}

theorem skipTrivia_space {c : Char} {t : Text} (space : Text.isSpace c = true)
    (rest : s.rest = c :: t) : s.skipTrivia = (s.move [c] t).skipTrivia := by
  have piece : Trivia.piece? s.rest =
      some (c :: t.takeWhile Text.isSpace, t.dropWhile Text.isSpace) := by
    simp [rest, Trivia.piece?, space, Text.run]
  rw [skipTrivia_of_piece? piece]
  cases more : t.takeWhile Text.isSpace with
  | nil =>
    have all : t.dropWhile Text.isSpace = t := by
      have := Text.run_append Text.isSpace t
      simpa [Text.run, more] using this
    rw [all]
  | cons d ds =>
    -- The spaces behind the first one are a piece of their own.
    have head : (t.head?.map Text.isSpace).getD false = true := by
      cases t with
      | nil => cases more
      | cons e t =>
        rw [List.takeWhile_cons] at more
        split at more
        · next space => simpa using space
        · cases more
    have piece' : Trivia.piece? (s.move [c] t).rest =
        some (t.takeWhile Text.isSpace, t.dropWhile Text.isSpace) := by
      simp [Trivia.piece?, head, Text.run]
    rw [skipTrivia_of_piece? piece', move_move, more]
    rfl

/-- A gap in front is skipped. -/
theorem skipTrivia_of_gap {gap rest : Text} (h : Gap gap rest) (eq : s.rest = gap ++ rest) :
    s.skipTrivia = (s.move gap rest).skipTrivia := by
  induction h generalizing s with
  | nil =>
    rw [List.nil_append] at eq
    rw [← eq, move_nil]
  | space space _ ih =>
    rw [skipTrivia_space space eq, ih rfl, move_move]
    rfl
  | @line inside gap rest plain ends _ ih =>
    have piece : Trivia.piece? s.rest = some ('/' :: '/' :: inside, gap ++ rest) := by
      rw [eq, List.cons_append, List.cons_append, List.append_assoc]
      exact Trivia.piece?_lineComment plain ends
    rw [skipTrivia_of_piece? piece, ih rfl, move_move]
    rfl
  | @block inside gap rest noClose _ ih =>
    have piece : Trivia.piece? s.rest =
        some ('/' :: '*' :: (inside ++ ['*', '/']), gap ++ rest) := by
      rw [eq]
      simpa using Trivia.piece?_blockComment (Trivia.throughClose_of_close noClose (gap ++ rest))
    rw [skipTrivia_of_piece? piece, ih rfl, move_move]
    simp
  | openBlock noClose =>
    have piece : Trivia.piece? s.rest = some (s.rest, []) := by
      rw [eq, List.append_nil]
      exact Trivia.piece?_blockComment (Trivia.throughClose_of_open noClose)
    rw [skipTrivia_of_piece? piece, eq, List.append_nil]

/-- The lexer, when a line feed and more follow what is left. -/
def extend (s : Lexer) (more : Text) : Lexer := { s with rest := s.rest ++ '\n' :: more }

/-- A token is found with a line feed behind the text as without. -/
theorem next_extend {after : Lexer} {t : Token} (found : s.next = (.ok (some t), after))
    (more : Text) : (s.extend more).next = (.ok (some t), after.extend more) := by
  obtain ⟨gap, left, rest_eq, hg, skip, none⟩ := s.skipTrivia_eq
  rw [next, skip] at found
  unfold nextAfterTrivia at found
  split at found
  · cases found
  next c cs left_eq =>
  rw [rest_move] at left_eq
  subst left_eq
  split at found
  · next kind text rest front =>
    obtain ⟨same, rfl⟩ := Prod.mk.inj found
    have skip' : (s.extend more).skipTrivia =
        (s.extend more).move gap (c :: (cs ++ '\n' :: more)) := by
      rw [skipTrivia_of_gap (hg.before_break (by simp) more) (by simp [extend, rest_eq]),
        skipTrivia_of_none (Trivia.piece?_break none more)]
      rfl
    have front' : Front.read s.strict c (cs ++ '\n' :: more) =
        .token kind text (rest ++ '\n' :: more) := Front.read_break front more
    rw [next, skip', ← same]
    simp [nextAfterTrivia, move, extend, front']
  all_goals cases found

/-- The next token stands behind a gap. -/
theorem next_eq_some {after : Lexer} {t : Token} (found : s.next = (.ok (some t), after)) :
    ∃ taken, s.rest = taken ++ after.rest ∧ after = s.move taken after.rest ∧
      t.span.stop = after.offset := by
  obtain ⟨gap, left, rest_eq, _, skip, _⟩ := s.skipTrivia_eq
  rw [next, skip] at found
  obtain ⟨text, rest, left_eq, _, span, rfl⟩ := nextAfterTrivia_eq_some found
  rw [rest_move] at left_eq
  refine ⟨gap ++ text, by simp [rest_eq, left_eq], ?_, ?_⟩
  · rw [move_move, rest_move]
  · rw [span]
    rfl

theorem all_congr {s' : Lexer} (same : s.skipTrivia = s'.skipTrivia) : s.all = s'.all := by
  rw [all_eq, all_eq, next, next, same]

/-- What follows the tokens of a text is trivia. Unless they end with an open comment, a line feed
behind the text leads to the tokens of what follows it. -/
theorem all_extend {tokens : List Token} (h : s.all = .ok tokens) :
    ∃ before tail, s.rest = before ++ tail ∧
      s.offset + Text.size before = (tokens.getLast?.map (·.span.stop)).getD s.offset ∧
      (¬ Gap.StaysOpen tail → ∀ more, (s.extend more).all =
        (s.move (s.rest ++ ['\n']) more).all.map (tokens ++ ·)) := by
  induction size : s.rest.length using Nat.strongRecOn generalizing s tokens with
  | ind n ih =>
    rw [all_eq] at h
    split at h
    · next t after found =>
      have shorter := length_lt_of_next found
      obtain ⟨taken, rest_eq, after_eq, stop⟩ := next_eq_some found
      cases others : after.all with
      | error e => simp [others, Except.map] at h
      | ok ts =>
        rw [others] at h
        obtain rfl := Except.ok.inj h
        obtain ⟨before, tail, after_rest, last, goesOn⟩ := ih _ (size ▸ shorter) others rfl
        refine ⟨taken ++ before, tail, by rw [rest_eq, after_rest, List.append_assoc], ?_, ?_⟩
        · have offset : after.offset = s.offset + Text.size taken := by rw [after_eq]; rfl
          rw [Text.size_append, ← Nat.add_assoc, ← offset, last, List.getLast?_cons]
          cases ts.getLast? <;> simp [stop]
        · intro closed more
          have same : after.move (after.rest ++ ['\n']) more =
              s.move (s.rest ++ ['\n']) more := by
            rw [after_eq, move_move, rest_move, rest_eq, List.append_assoc]
          rw [all_eq, next_extend found]
          simp only [goesOn closed more, same]
          cases (s.move (s.rest ++ ['\n']) more).all <;> rfl
    · next after found =>
      obtain ⟨gap, left, rest_eq, hg, skip, _⟩ := s.skipTrivia_eq
      rw [next, skip] at found
      have nothing := nextAfterTrivia_eq_none found
      rw [rest_move] at nothing
      subst nothing
      rw [List.append_nil] at rest_eq
      obtain rfl := Except.ok.inj h
      refine ⟨[], s.rest, rfl, rfl, fun closed more => ?_⟩
      rw [rest_eq] at closed ⊢
      have skipped : (s.extend more).skipTrivia = (s.move (gap ++ ['\n']) more).skipTrivia := by
        rw [skipTrivia_of_gap (hg.before_break (fun _ => closed) more) (by simp [extend, rest_eq]),
          skipTrivia_space (c := '\n') rfl rfl, move_move]
        rfl
      rw [all_congr skipped]
      cases (s.move (gap ++ ['\n']) more).all <;> rfl
    · cases h

end Lexer

/-! ## Further on in a source -/

/-- The token, so many bytes further on. -/
def Token.shift (bytes : Nat) (t : Token) : Token :=
  ⟨t.kind, ⟨t.span.start + bytes, t.span.length⟩⟩

/-- The error, so many bytes and lines further on. -/
def LexicalError.shift (bytes lines : Nat) : LexicalError → LexicalError
  | .unterminatedString offset line => .unterminatedString (offset + bytes) (line + lines)
  | .unexpectedCharacter c offset line => .unexpectedCharacter c (offset + bytes) (line + lines)
  | .exhausted offset line => .exhausted (offset + bytes) (line + lines)
  | .tooLarge size => .tooLarge size

namespace Lexer

variable (bytes lines : Nat)

/-- The same text, so many bytes and lines further on. -/
def shift (s : Lexer) : Lexer := { s with offset := s.offset + bytes, line := s.line + lines }

theorem move_shift (s : Lexer) (taken rest : Text) :
    (s.shift bytes lines).move taken rest = (s.move taken rest).shift bytes lines := by
  simp only [move, shift, mk.injEq, true_and]
  omega

theorem skipPieces_shift (n : Nat) (s : Lexer) :
    skipPieces n (s.shift bytes lines) = (skipPieces n s).shift bytes lines := by
  induction n generalizing s with
  | zero => rfl
  | succ n ih =>
    rw [skipPieces, skipPieces, show (s.shift bytes lines).rest = s.rest from rfl]
    split
    · rw [move_shift, ih]
    · rfl

/-- The same answer, so many bytes and lines further on. -/
def shiftAnswer {α : Type} (f : α → α) (answer : Except LexicalError α) : Except LexicalError α :=
  (answer.map f).mapError (.shift bytes lines)

theorem next_shift (s : Lexer) : (s.shift bytes lines).next =
    (shiftAnswer bytes lines (Option.map (.shift bytes)) s.next.1, s.next.2.shift bytes lines) := by
  have skip : (s.shift bytes lines).skipTrivia = s.skipTrivia.shift bytes lines :=
    skipPieces_shift ..
  rw [next, next, skip]
  generalize s.skipTrivia = s
  unfold nextAfterTrivia
  rw [show (s.shift bytes lines).rest = s.rest from rfl]
  split
  · rfl
  · rw [show (s.shift bytes lines).strict = s.strict from rfl]
    split
    · simp only [move_shift]
      simp [shiftAnswer, Except.map, Except.mapError, Token.shift, Span.ofBounds, shift,
        Nat.add_sub_add_right]
    all_goals simp only [move_shift]
    all_goals rfl

theorem all_shift (s : Lexer) : (s.shift bytes lines).all =
    shiftAnswer bytes lines (List.map (.shift bytes)) s.all := by
  induction size : s.rest.length using Nat.strongRecOn generalizing s with
  | ind n ih =>
    rw [all_eq, all_eq s, next_shift]
    have shorter := @length_lt_of_next s
    generalize s.next = step at shorter
    obtain ⟨answer, after⟩ := step
    match answer with
    | .error e => rfl
    | .ok none => rfl
    | .ok (some t) =>
      have := ih _ (size ▸ shorter rfl) after rfl
      simp only [shiftAnswer, Except.map, Except.mapError, Option.map] at this ⊢
      rw [this]
      cases after.all <;> rfl

end Lexer

/-- Two texts with a line feed between them, of which the first ends with no open comment, are
scanned one after the other: the tokens of the second, or its error, are those that it has by
itself, further on by the size of the first and its lines. -/
theorem scan_join {strict : Bool} {a b : Text} {tokens : TokenSequence}
    (fits : Text.size a + 1 + Text.size b ≤ maxPosition) (scanned : scan strict a = .ok tokens)
    (closed : ¬ tokens.EndsInComment) :
    (∀ more, scan strict b = .ok more → scan strict (a ++ '\n' :: b) =
      .ok (.ofList (a ++ '\n' :: b)
        (tokens.toList ++ more.toList.map (.shift (Text.size a + 1))))) ∧
    ∀ e, scan strict b = .error e → scan strict (a ++ '\n' :: b) =
      .error (e.shift (Text.size a + 1) (a.count '\n' + 1)) := by
  obtain ⟨_, list, all, rfl⟩ := scan_eq_ok.1 scanned
  obtain ⟨before, tail, a_eq, last, goesOn⟩ := Lexer.all_extend all
  have joinedFits : Text.size (a ++ '\n' :: b) ≤ maxPosition := by
    have feed : Char.utf8Size '\n' = 1 := rfl
    simp only [Text.size_append, Text.size_cons, feed]
    omega
  have behind : ¬ Gap.StaysOpen tail := by
    refine fun opens => closed ⟨tail, ?_, opens⟩
    simp only [TokenSequence.tail?, TokenSequence.toList_ofList, TokenSequence.source_ofList,
      Option.mem_def, Text.dropBytes?_eq_some_iff]
    refine ⟨before, a_eq, ?_⟩
    rw [← Nat.zero_add (Text.size before)]
    exact last
  have joined : (Lexer.start strict (a ++ '\n' :: b)).all =
      (Lexer.shiftAnswer (Text.size a + 1) (a.count '\n' + 1)
        (List.map (Token.shift (Text.size a + 1))) (Lexer.start strict b).all).map (list ++ ·) := by
    have here : (Lexer.start strict a).move (a ++ ['\n']) b =
        (Lexer.start strict b).shift (Text.size a + 1) (a.count '\n' + 1) := by
      have feed : Char.utf8Size '\n' = 1 := rfl
      simp [Lexer.start, Lexer.move, Lexer.shift, feed, Nat.add_comm]
    rw [← Lexer.all_shift, ← here]
    exact goesOn behind b
  rw [TokenSequence.toList_ofList]
  refine ⟨fun more scanned => ?_, fun e failed => ?_⟩
  · obtain ⟨_, list', all', rfl⟩ := scan_eq_ok.1 scanned
    rw [all'] at joined
    rw [TokenSequence.toList_ofList]
    exact scan_eq_ok.2 ⟨joinedFits, _, joined, rfl⟩
  · rw [scan_eq_error (by omega)] at failed
    rw [failed] at joined
    exact (scan_eq_error joinedFits).2 joined

/-- The line feed ends the comment of `a?.//`, and the digit on the next line is not one behind the
dot. -/
theorem scan_join_comment :
    ∃ tokens, scan false ['a', '?', '.', '/', '/'] = .ok tokens ∧ ¬ tokens.EndsInComment ∧
      scan false ['a', '?', '.', '/', '/', '\n', '5'] =
        .ok (.ofList ['a', '?', '.', '/', '/', '\n', '5']
          [⟨.identifier, ⟨0, 1⟩⟩, ⟨.punctuator .optionalDot, ⟨1, 2⟩⟩, ⟨.number, ⟨6, 1⟩⟩]) ∧
      scan false ['a', '?', '.', '/', '/', '\n', '\''] = .error (.unterminatedString 6 2) := by
  let tokens : TokenSequence := .ofList ['a', '?', '.', '/', '/']
    [⟨.identifier, ⟨0, 1⟩⟩, ⟨.punctuator .optionalDot, ⟨1, 2⟩⟩]
  have scanned : scan false ['a', '?', '.', '/', '/'] = .ok tokens := rfl
  have closed : ¬ tokens.EndsInComment := by
    rintro ⟨t, tail, opens⟩
    obtain rfl : t = ['/', '/'] := Option.some.inj (tail.symm.trans rfl)
    generalize slashes : (['/', '/'] : Text) = t at opens
    cases opens with
    | here => cases slashes
    | space space =>
      obtain ⟨rfl, -⟩ := List.cons.inj slashes
      exact absurd space (by decide)
    | line _ _ opens =>
      -- An open comment cannot stand in the nothing behind the slashes.
      have nothing := (List.cons.inj (List.cons.inj slashes).2).2
      obtain ⟨-, rfl⟩ := List.append_eq_nil_iff.1 nothing.symm
      cases opens
    | block => cases slashes
  have number : scan false ['5'] = .ok (.ofList ['5'] [⟨.number, ⟨0, 1⟩⟩]) := rfl
  have string : scan false ['\''] = .error (.unterminatedString 0 1) := rfl
  exact ⟨tokens, scanned, closed, (scan_join (by decide) scanned closed).1 _ number,
    (scan_join (by decide) scanned closed).2 _ string⟩

end EcmaFront
