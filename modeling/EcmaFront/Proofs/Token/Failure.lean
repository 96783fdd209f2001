import EcmaFront.Proofs.Token.Digits
import EcmaFront.Proofs.Token.Longest
import Mathlib.Logic.Function.Iterate

/-!
# Where a lexer fails

An error is that of the first token that cannot be read. The tokens before it are those of the text
in front of it, for a token is found as well where the source is cut behind it; and the lexer stays
at the error, however often it is asked again.

* `Lexer.Gives`: the tokens that a lexer gives one by one, and where it stands then.
* `Lexer.next_cut`, `Lexer.all_of_gives`: a token, and then all tokens, of a source that is cut.
* `LexicalError.Rises`: which error arises at which character.
* `failure_of_gives`: what an error says of the source, and that it stays.
-/

namespace EcmaFront

/-! ## The character at which a lexer fails -/

/-- The character is no space, and no operator, comment, name, number or string starts with it. -/
structure Text.StartsNothing (c : Char) (rest : Text) : Prop where
  notSpace : isSpace c = false
  notComment : ¬ StartsComment (c :: rest)
  notOperator : ∀ row ∈ Spelling.operators, row.1.toList.head? ≠ some c
  notName : isNameStart c = false
  notDigit : c.isDigit = false
  notQuote : ¬ (c = '\'' ∨ c = '"')

/-- The error of a lexer in front of the character `c`, which stands behind `front`. -/
inductive LexicalError.Rises (front : Text) (c : Char) (rest : Text) : LexicalError → Prop
  | unterminated {line : Nat} : c = '\'' ∨ c = '"' →
    Rises front c rest (.unterminatedString (Text.size front) line)
  | exhausted {offset line : Nat} : c = '\'' ∨ c = '"' → Text.size front < offset →
    Rises front c rest (.exhausted offset line)
  | unexpected {line : Nat} : Text.StartsNothing c rest →
    Rises front c rest (.unexpectedCharacter c (Text.size front) line)

theorem LexicalError.Rises.notDigit {front rest : Text} {c : Char} {e : LexicalError}
    (h : e.Rises front c rest) : c.isDigit = false := by
  cases h with
  | unterminated quote | exhausted quote => exact (Text.notPart_of_quote quote).2.1
  | unexpected nothing => exact nothing.notDigit

/-- Each character of an operator is an operator for itself. -/
theorem Spelling.exists_single {c : Char} (h : c ∈ marks) :
    ∃ row ∈ operators, row.1.toList = [c] ∧ row.2 ≠ .punctuator .optionalDot := by
  have all : (marks.all fun c => operators.any fun row =>
      row.1.toList == [c] && row.2 != .punctuator .optionalDot) = true := by decide +kernel
  obtain ⟨row, mem, single⟩ := List.any_eq_true.1 (List.all_eq_true.1 all c h)
  rw [Bool.and_eq_true, beq_iff_eq, bne_iff_ne] at single
  exact ⟨row, mem, single⟩

theorem Spelling.not_mem_marks_of_none {c : Char} {cs : Text} (none : fitting? (c :: cs) = none) :
    c ∉ marks := by
  intro mem
  obtain ⟨row, isOperator, single, other⟩ := exists_single mem
  have counts : Counts row (c :: cs) := ⟨cs, by rw [single]; rfl, fun same => absurd same other⟩
  have missing := List.find?_eq_none.1 none row isOperator
  exact missing ((counts_iff_fits isOperator).1 counts)

namespace Front

variable {strict : Bool} {c : Char} {cs : Text}

/-- A quote starts a string, whatever follows. -/
theorem read_quote (quote : c = '\'' ∨ c = '"') : read strict c cs = readString c cs := by
  have notPart := Text.notPart_of_quote quote
  have notStart : Text.isNameStart c = false := by
    refine Bool.eq_false_iff.2 fun start => ?_
    rw [Text.isNamePart_of_isNameStart start] at notPart
    cases notPart.1
  have none := Spelling.fitting?_eq_none_of_first (.inr (.inr quote)) cs
  simp only [read, none, notStart, notPart.2.1, Bool.false_eq_true, if_false]
  exact if_pos (by simpa using quote)

/-- Nothing but a quote starts a string that is cut off. -/
theorem quote_of_failed (failed : read strict c cs = .unterminated ∨
    ∃ before, read strict c cs = .exhausted before) : c = '\'' ∨ c = '"' := by
  by_contra noQuote
  have noQuote : (decide (c = '\'') || decide (c = '"')) = false := by
    simpa only [Bool.or_eq_false_iff, decide_eq_false_iff_not, not_or] using noQuote
  unfold read at failed
  rw [noQuote] at failed
  split at failed
  · simp at failed
  · split at failed
    · simp at failed
    · split at failed <;> simp at failed

/-- The text before a null character has the opening quote in it. -/
theorem exists_cons_of_exhausted {inside : Text} (h : read strict c cs = .exhausted inside) :
    ∃ before, inside = c :: before := by
  rw [read_quote (quote_of_failed (.inr ⟨inside, h⟩)), readString] at h
  split at h
  · cases h
  · cases h
  · exact ⟨_, (exhausted.inj h).symm⟩

theorem startsNothing_of_unexpected (none : Trivia.piece? (c :: cs) = none)
    (h : read strict c cs = .unexpected) : Text.StartsNothing c cs := by
  have noQuote : ¬ (c = '\'' ∨ c = '"') := by
    intro quote
    rw [read_quote quote, readString] at h
    split at h <;> cases h
  have noComment := Text.not_startsComment_of_piece? none
  unfold read at h
  split at h
  · cases h
  · next noOperator =>
    have noMark := Spelling.not_mem_marks_of_none noOperator
    split at h
    · cases h
    · next notName =>
      split at h
      · cases h
      · next notDigit =>
        refine ⟨?_, noComment, ?_, by simpa using notName, by simpa using notDigit, noQuote⟩
        · unfold Trivia.piece? at none
          split at none
          · cases none
          · next notSpace => simpa using notSpace
        · intro row mem first
          have subset := Spelling.subset_marks row mem
          exact noMark (subset (List.mem_of_mem_head? first))

end Front

/-! ## A source that is cut behind a token -/

theorem Text.head?_append_of_mem {t : Text} {d : Char} (h : d ∈ t.head?) (more : Text) :
    d ∈ (t ++ more).head? := by
  cases t with
  | nil => cases h
  | cons c t => exact h

theorem Gap.cut {gap rest more : Text} {c : Char} (h : Gap gap (rest ++ c :: more)) :
    Gap gap rest := by
  generalize eq : rest ++ c :: more = whole at h
  induction h with
  | nil => exact .nil
  | space space _ ih => exact .space space (ih eq)
  | @line inside gap whole plain ends _ ih =>
    refine .line plain (fun d head => ends d ?_) (ih eq)
    rw [← eq, ← List.append_assoc]
    exact Text.head?_append_of_mem head _
  | block noClose _ ih => exact .block noClose (ih eq)
  | openBlock => simp at eq

theorem Trivia.piece?_cut {t more : Text} (none : piece? (t ++ more) = none) :
    piece? t = Option.none := by
  cases t with
  | nil => rfl
  | cons c cs =>
    rw [List.cons_append] at none
    by_cases slash : c = '/'
    · subst slash
      rw [piece?_slash] at none ⊢
      exact fun d head => none d (Text.head?_append_of_mem head more)
    · refine piece?_of_first ?_ slash cs
      unfold piece? at none
      split at none
      · cases none
      · next notSpace => simpa using notSpace

namespace Spelling

variable {row : String × TokenKind} {t more : Text} {c : Char}

/-- An operator that counts does so with more behind it, unless a digit stands there. -/
theorem Counts.append (h : Counts row t) (notDigit : c.isDigit = false) :
    Counts row (t ++ c :: more) := by
  obtain ⟨rest, rfl, behind⟩ := h
  refine ⟨rest ++ c :: more, List.append_assoc .., fun dot d head => ?_⟩
  cases rest with
  | nil =>
    obtain rfl : c = d := Option.some.inj head
    exact notDigit
  | cons e rest => exact behind dot d head

theorem fitting?_eq_none_of_cut (none : fitting? (t ++ c :: more) = none)
    (notDigit : c.isDigit = false) : fitting? t = Option.none := by
  rw [fitting?_eq_none_iff] at none ⊢
  exact fun row mem counts => none row mem (counts.append notDigit)

/-- The longest operator is found without what stands behind it. -/
theorem fitting?_cut {rest : Text} (h : fitting? (t ++ c :: more) = some row)
    (notDigit : c.isDigit = false) (eq : t = row.1.toList ++ rest) : fitting? t = some row := by
  obtain ⟨mem, counts, longest⟩ := fitting?_eq_some_iff.1 h
  refine fitting?_eq_some_iff.2 ⟨mem, ?_, fun other mem' counts' =>
    longest other mem' (counts'.append notDigit)⟩
  obtain ⟨behind, whole, free⟩ := counts
  rw [eq, List.append_assoc] at whole
  obtain rfl := List.append_cancel_left whole
  exact ⟨rest, eq, fun dot d head => free dot d (Text.head?_append_of_mem head _)⟩

end Spelling

theorem Text.run_cut {p : Char → Bool} {t text rest more : Text} {c : Char}
    (h : run p (t ++ c :: more) = (text, rest ++ c :: more)) : run p t = (text, rest) := by
  have whole := run_append p (t ++ c :: more)
  rw [h, ← List.append_assoc] at whole
  obtain rfl := List.append_cancel_right whole
  obtain ⟨inside, behind⟩ := Prod.mk.inj h
  refine run_append_of_separated text (fun d mem => ?_) fun d head => ?_
  · rw [← inside] at mem
    exact List.mem_takeWhile_imp mem
  · have head := head?_append_of_mem head (c :: more)
    rw [← behind] at head
    exact head?_dropWhile d head

/-- A token is read as well where the text is cut behind it. -/
theorem Front.read_cut {strict : Bool} {c d : Char} {cs text rest more : Text} {kind : TokenKind}
    (h : read strict c (cs ++ d :: more) = .token kind text (rest ++ d :: more))
    (notDigit : d.isDigit = false) : read strict c cs = .token kind text rest := by
  have whole := append_of_read h
  rw [← List.append_assoc, ← List.cons_append] at whole
  have whole : text ++ rest = c :: cs := List.append_cancel_right whole
  unfold read at h ⊢
  rw [← List.cons_append] at h
  split at h
  · next found =>
    obtain ⟨rfl, rfl, _⟩ := token.inj h
    rw [Spelling.fitting?_cut found notDigit whole.symm]
    simp only [← whole, List.drop_left]
  next none =>
  rw [Spelling.fitting?_eq_none_of_cut none notDigit]
  dsimp only at h ⊢
  split at h
  · next start =>
    obtain ⟨rfl, inside, behind⟩ := token.inj h
    rw [if_pos start, Text.run_cut (Prod.ext inside behind), inside]
  next notStart =>
  rw [if_neg notStart]
  split at h
  · next digit =>
    obtain ⟨rfl, inside, behind⟩ := token.inj h
    rw [if_pos digit, Text.run_cut (Prod.ext inside behind)]
  next notNumber =>
  rw [if_neg notNumber]
  split at h
  · next quote =>
    rw [if_pos quote]
    unfold readString at h ⊢
    split at h
    · next body _ closed =>
      obtain ⟨rfl, rfl, rfl⟩ := token.inj h
      have quotes : c ≠ '\n' ∧ c ≠ '\\' := by
        obtain rfl | rfl : c = '\'' ∨ c = '"' := by simpa using quote
        · decide
        · decide
      have inside : cs = body ++ c :: rest := by
        have same : body ++ [c] ++ rest = cs := (List.cons.inj whole).2
        rw [← same, List.append_assoc, List.singleton_append]
      rw [inside, (Quoted.Items.of_read closed).read_append quotes.1 quotes.2]
    · cases h
    · cases h
  · cases h

/-! ## Asking again -/

namespace Lexer

variable {s s' : Lexer}

/-- The tokens that a lexer gives one by one, and the lexer that has given them. -/
inductive Gives : Lexer → List Token → Lexer → Prop
  | nothing {s : Lexer} : Gives s [] s
  | token {s s' s'' : Lexer} {t : Token} {tokens : List Token} :
    s.next = (.ok (some t), s') → Gives s' tokens s'' → Gives s (t :: tokens) s''

theorem Gives.reached {strict : Bool} {source : Text} {tokens : List Token}
    (h : Gives s tokens s') (reached : Reached strict source s) : Reached strict source s' := by
  induction h with
  | nothing => exact reached
  | token found _ ih => exact ih (reached.next found)

theorem skipTrivia_skipTrivia (s : Lexer) : s.skipTrivia.skipTrivia = s.skipTrivia := by
  obtain ⟨gap, rest, _, _, skip, none⟩ := s.skipTrivia_eq
  exact skipTrivia_of_none (by rw [skip]; exact none)

/-- Without a token the lexer stays behind the trivia. -/
theorem eq_skipTrivia_of_next {answer : Except LexicalError (Option Token)}
    (step : s.next = (answer, s')) (noToken : ∀ t, answer ≠ .ok (some t)) : s' = s.skipTrivia := by
  unfold next nextAfterTrivia at step
  split at step
  · exact (Prod.mk.inj step).2.symm
  · split at step
    · exact absurd (Prod.mk.inj step).1.symm (noToken _)
    all_goals exact (Prod.mk.inj step).2.symm

/-- An answer without a token is given again and again, and the lexer does not move. -/
theorem next_again {answer : Except LexicalError (Option Token)} (step : s.next = (answer, s'))
    (noToken : ∀ t, answer ≠ .ok (some t)) (n : Nat) :
    ((fun s : Lexer => s.next.2)^[n] s').next = (answer, s') := by
  have same := eq_skipTrivia_of_next step noToken
  have again : s'.next = (answer, s') := by
    rw [← step, same, next, next, skipTrivia_skipTrivia]
  have fixed : (fun s : Lexer => s.next.2) s' = s' := congrArg Prod.snd again
  rw [Function.iterate_fixed fixed, again]

/-! ## The tokens in front of an error -/

/-- The lexer, when only this text is left. -/
def cutTo (s : Lexer) (t : Text) : Lexer := { s with rest := t }

theorem skipTrivia_cut {gap rest more : Text} {c : Char} (hg : Gap gap (rest ++ c :: more))
    (none : Trivia.piece? (rest ++ c :: more) = none) :
    (s.cutTo (gap ++ rest)).skipTrivia = (s.cutTo (gap ++ rest)).move gap rest := by
  rw [skipTrivia_of_gap hg.cut rfl]
  exact skipTrivia_of_none (Trivia.piece?_cut none)

/-- A token is given as well where the source is cut behind it. -/
theorem next_cut {t : Token} {rest more : Text} {c : Char} (found : s.next = (.ok (some t), s'))
    (left : s'.rest = rest ++ c :: more) (notDigit : c.isDigit = false) :
    ∃ taken, s.rest = taken ++ s'.rest ∧
      (s.cutTo (taken ++ rest)).next = (.ok (some t), s'.cutTo rest) := by
  obtain ⟨gap, front, rest_eq, hg, skip, none⟩ := s.skipTrivia_eq
  rw [next, skip] at found
  unfold nextAfterTrivia at found
  split at found
  · cases found
  next d ds front_eq =>
  rw [rest_move] at front_eq
  subst front_eq
  split at found
  · next kind text behind read =>
    obtain ⟨same, rfl⟩ := Prod.mk.inj found
    obtain rfl : behind = rest ++ c :: more := left
    have whole := Front.append_of_read read
    have front_ne := Front.ne_nil_of_read read
    obtain ⟨e, es, rfl⟩ := List.exists_cons_of_ne_nil front_ne
    obtain ⟨rfl, tail⟩ := List.cons.inj whole
    obtain rfl : (es ++ rest) ++ c :: more = ds := (List.append_assoc ..).trans tail
    have skip' : (s.cutTo (gap ++ e :: (es ++ rest))).skipTrivia =
        (s.cutTo (gap ++ e :: (es ++ rest))).move gap (e :: (es ++ rest)) := skipTrivia_cut hg none
    refine ⟨gap ++ e :: es, ?_, ?_⟩
    · rw [rest_eq, rest_move]
      simp
    · have read' : Front.read s.strict e (es ++ rest) = .token kind (e :: es) rest :=
        Front.read_cut read notDigit
      have cut : gap ++ e :: es ++ rest = gap ++ e :: (es ++ rest) := by simp
      rw [cut, next, skip', ← same]
      simp [nextAfterTrivia, move, cutTo, read']
  all_goals cases found

/-- The tokens that are given in front of a character are all those of the text before it, if no
trivia starts there. -/
theorem all_of_gives {tokens : List Token} {gap more : Text} {c : Char}
    (h : Gives s tokens s') (left : s'.rest = gap ++ c :: more) (hg : Gap gap (c :: more))
    (none : Trivia.piece? (c :: more) = none) (notDigit : c.isDigit = false) :
    ∃ front, s.rest = front ++ c :: more ∧ (s.cutTo front).all = .ok tokens := by
  -- The induction is on the tokens: what one leaves is the cut source of those behind it.
  induction h with
  | @nothing s =>
    have skip : (s.cutTo (gap ++ [])).skipTrivia = (s.cutTo (gap ++ [])).move gap [] :=
      skipTrivia_cut hg none
    rw [List.append_nil] at skip
    refine ⟨gap, left, ?_⟩
    rw [all_eq, next, skip]
    rfl
  | @token s s₁ s₂ t tokens found _ ih =>
    obtain ⟨front, left', all⟩ := ih left
    obtain ⟨taken, rest_eq, found'⟩ := next_cut found left' notDigit
    refine ⟨taken ++ front, ?_, ?_⟩
    · rw [rest_eq, left', List.append_assoc]
    · rw [all_eq, found']
      simp only [all]
      rfl

/-- An error arises at the character behind the trivia. -/
theorem StandsIn.rises_of_next {source : Text} {e : LexicalError} (h : s.StandsIn source)
    (step : s.next = (.error e, s')) :
    ∃ before gap c rest, source = before ++ gap ++ c :: rest ∧ s.offset = Text.size before ∧
      s.rest = gap ++ c :: rest ∧ Gap gap (c :: rest) ∧ Trivia.piece? (c :: rest) = none ∧
      s'.offset = Text.size (before ++ gap) ∧ e.Rises (before ++ gap) c rest := by
  have same := eq_skipTrivia_of_next step nofun
  obtain ⟨before, source_eq, offset, _⟩ := h
  obtain ⟨gap, front, rest_eq, hg, skip, none⟩ := s.skipTrivia_eq
  have offset' : s'.offset = Text.size (before ++ gap) := by
    rw [same, skip, Text.size_append, ← offset]
    rfl
  have here : (s.move gap front).offset = Text.size (before ++ gap) := by
    rw [← skip, ← same, offset']
  rw [Lexer.next, skip] at step
  unfold nextAfterTrivia at step
  split at step
  · cases step
  next c rest front_eq =>
  rw [rest_move] at front_eq
  subst front_eq
  refine ⟨before, gap, c, rest, ?_, offset, rest_eq, hg, none, offset', ?_⟩
  · rw [source_eq, rest_eq, List.append_assoc]
  split at step
  · cases step
  · next failed =>
    cases step
    rw [here]
    exact .unterminated (Front.quote_of_failed (.inl failed))
  · next inside failed =>
    cases step
    obtain ⟨body, rfl⟩ := Front.exists_cons_of_exhausted failed
    have quote := Front.quote_of_failed (.inr ⟨_, failed⟩)
    have positive : 0 < Text.size (c :: body) :=
      Nat.pos_of_ne_zero fun zero => List.cons_ne_nil c body (Text.size_eq_zero_iff.1 zero)
    refine .exhausted quote ?_
    rw [← here]
    exact Nat.lt_add_of_pos_right positive
  · next failed =>
    cases step
    rw [here]
    exact .unexpected (Front.startsNothing_of_unexpected none failed)

theorem StandsIn.offset_of_end {source : Text} (h : s.StandsIn source)
    (step : s.next = (.ok none, s')) : s'.offset = Text.size source := by
  have stands := (h.next step).1
  have same := eq_skipTrivia_of_next step nofun
  rw [Lexer.next, ← same] at step
  obtain ⟨before, source_eq, offset, _⟩ := stands
  rw [nextAfterTrivia_eq_none step, List.append_nil] at source_eq
  rw [offset, source_eq]

end Lexer

/-- When a lexer has given some tokens and then fails, it stands behind the trivia that follows
them. The text up to there has exactly these tokens; the character there tells the error; and each
further request gives the same error and does not move the lexer. At the end of the source it has
passed all of it, and stays there as well. -/
theorem failure_of_gives {strict : Bool} {source : Text} {tokens : List Token} {s : Lexer}
    (fits : Text.size source ≤ maxPosition) (gives : (Lexer.start strict source).Gives tokens s) :
    (∀ e s', s.next = (.error e, s') →
      ∃ before gap c rest, source = before ++ gap ++ c :: rest ∧ s.offset = Text.size before ∧
        Gap gap (c :: rest) ∧ s'.offset = Text.size (before ++ gap) ∧
        scan strict (before ++ gap) = .ok (.ofList (before ++ gap) tokens) ∧
        e.Rises (before ++ gap) c rest ∧
        ∀ n, ((fun s : Lexer => s.next.2)^[n] s').next = (.error e, s')) ∧
    ∀ s', s.next = (.ok none, s') →
      s'.offset = Text.size source ∧
        ∀ n, ((fun s : Lexer => s.next.2)^[n] s').next = (.ok none, s') := by
  have stands : s.StandsIn source := (gives.reached .start).standsIn
  refine ⟨fun e s' step => ?_, fun s' step => ?_⟩
  · obtain ⟨before, gap, c, rest, source_eq, offset, left, hg, none, offset', rises⟩ :=
      stands.rises_of_next step
    have notDigit : c.isDigit = false := rises.notDigit
    obtain ⟨front, cut, all⟩ := Lexer.all_of_gives gives left hg none notDigit
    obtain rfl : before ++ gap = front :=
      List.append_cancel_right (source_eq.symm.trans cut)
    have fits' : Text.size (before ++ gap) ≤ maxPosition := by
      rw [source_eq, Text.size_append] at fits
      exact Nat.le_trans (Nat.le_add_right ..) fits
    refine ⟨before, gap, c, rest, source_eq, offset, hg, offset', ?_, rises, ?_⟩
    · exact scan_eq_ok.2 ⟨fits', tokens, all, rfl⟩
    · exact Lexer.next_again step nofun
  · exact ⟨stands.offset_of_end step, Lexer.next_again step nofun⟩

/-- A name, and then a string that the end of the source cuts off. -/
theorem failure_of_gives_open_string :
    Text.size ['a', ' ', '"', 'b'] ≤ maxPosition ∧
      (Lexer.start false ['a', ' ', '"', 'b']).Gives [⟨.identifier, ⟨0, 1⟩⟩]
        ⟨false, [' ', '"', 'b'], 1, 1⟩ ∧
      Lexer.next ⟨false, [' ', '"', 'b'], 1, 1⟩ =
        (.error (.unterminatedString 2 1), ⟨false, ['"', 'b'], 2, 1⟩) ∧
      scan false ['a', ' '] = .ok (.ofList ['a', ' '] [⟨.identifier, ⟨0, 1⟩⟩]) := by
  have fits : Text.size ['a', ' ', '"', 'b'] ≤ maxPosition := by decide
  have gives : (Lexer.start false ['a', ' ', '"', 'b']).Gives [⟨.identifier, ⟨0, 1⟩⟩]
      ⟨false, [' ', '"', 'b'], 1, 1⟩ := .token rfl .nothing
  have failed : Lexer.next ⟨false, [' ', '"', 'b'], 1, 1⟩ =
      (.error (.unterminatedString 2 1), ⟨false, ['"', 'b'], 2, 1⟩) := rfl
  refine ⟨fits, gives, failed, ?_⟩
  obtain ⟨before, gap, c, rest, source_eq, _, _, offset, scanned, _⟩ :=
    (failure_of_gives fits gives).1 _ _ failed
  have cut := Text.takeBytes?_eq_some_iff.2 ⟨c :: rest, source_eq, offset.symm⟩
  have front : before ++ gap = ['a', ' '] := Option.some.inj (cut.symm.trans rfl)
  rwa [front] at scanned

end EcmaFront
