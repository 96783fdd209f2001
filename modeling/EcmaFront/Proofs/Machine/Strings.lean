import EcmaFront.Proofs.Machine.Scanning
import EcmaFront.Proofs.Token.Failure

/-!
# Strings and their grammar

A string is decided by the longest run of items behind its quote and by what follows the run. The
machine on bytes, which passes over one byte behind a backslash, decides it in the same way.

* `Quoted.IsLongest`: a run of items that cannot be made longer.
* `Quoted.EndsIn`: how a string ends for what follows the run.
* `Quoted.exists_run`: reading the items finds the longest run.
* `string_of_reached`: what a lexer and a scanner answer in front of a quote, and that they run out of
  source nowhere else.
-/

namespace EcmaFront

namespace Quoted

/-- The items in front of the rest, of which no longer run can be made. -/
structure IsLongest (quote : Char) (items rest : Text) : Prop where
  run : Items quote items
  longest : ∀ more, Items quote more → more <+: items ++ rest → more <+: items

/-- How a string ends with what follows the items. -/
inductive EndsIn (quote : Char) (items : Text) : Text → Ending → Prop
  | quote {rest : Text} : EndsIn quote items (quote :: rest) (.closed items rest)
  | sourceEnd : EndsIn quote items [] .unterminated
  | backslash : EndsIn quote items ['\\'] .unterminated
  | lineBreak {c : Char} {rest : Text} : c = '\n' ∨ c = '\r' →
    EndsIn quote items (c :: rest) .unterminated
  | null {rest : Text} : EndsIn quote items ('\x00' :: rest) (.exhausted items)
  | escapedNull {rest : Text} :
    EndsIn quote items ('\\' :: '\x00' :: rest) (.exhausted (items ++ ['\\']))

variable {quote : Char} {items rest : Text}

/-- An item starts with a backslash and a character that is not null, or it is a plain character. -/
theorem Items.starts {c : Char} {more : Text} (h : Items quote (c :: more)) :
    (c = '\\' ∧ ∃ d behind, more = d :: behind ∧ d ≠ '\x00') ∨
      (c ≠ quote ∧ c ≠ '\\' ∧ c ≠ '\n' ∧ c ≠ '\r' ∧ c ≠ '\x00') := by
  cases h with
  | escape notNull => exact .inl ⟨rfl, _, _, rfl, notNull⟩
  | escapeBreak => exact .inl ⟨rfl, _, _, rfl, by decide⟩
  | plain notQuote notBackslash notFeed notReturn notNull =>
    exact .inr ⟨notQuote, notBackslash, notFeed, notReturn, notNull⟩

/-- No item stands in front of what ends a string. -/
theorem EndsIn.eq_nil {more : Text} {ending : Ending} (h : EndsIn quote items rest ending)
    (notEscape : quote ≠ '\\') (run : Items quote more) (front : more <+: rest) : more = [] := by
  cases more with
  | nil => rfl
  | cons c more =>
    obtain ⟨behind, eq⟩ := front
    rw [List.cons_append] at eq
    rcases run.starts with ⟨rfl, d, ds, rfl, notNull⟩ |
      ⟨notQuote, notBackslash, notFeed, notReturn, notNull⟩
    · cases h with
      | quote => exact absurd (List.cons.inj eq).1.symm notEscape
      | sourceEnd | backslash | null => simp at eq
      | lineBreak breaks =>
        obtain ⟨rfl, _⟩ := List.cons.inj eq
        simp at breaks
      | escapedNull => exact absurd (List.cons.inj (List.cons.inj eq).2).1 notNull
    · cases h with
      | sourceEnd => cases eq
      | quote => exact absurd (List.cons.inj eq).1 notQuote
      | backslash | escapedNull => exact absurd (List.cons.inj eq).1 notBackslash
      | lineBreak breaks =>
        obtain ⟨rfl, _⟩ := List.cons.inj eq
        exact absurd breaks (not_or.2 ⟨notFeed, notReturn⟩)
      | null => exact absurd (List.cons.inj eq).1 notNull

theorem EndsIn.isLongest {ending : Ending} (h : EndsIn quote [] rest ending)
    (notEscape : quote ≠ '\\') : IsLongest quote [] rest where
  run := .nil
  longest more found front := by rw [h.eq_nil notEscape found front]

theorem EndsIn.cons {ending : Ending} (item : Text) (h : EndsIn quote items rest ending) :
    EndsIn quote (item ++ items) rest (ending.cons item) := by
  cases h with
  | quote => exact .quote
  | sourceEnd => exact .sourceEnd
  | backslash => exact .backslash
  | lineBreak feeds => exact .lineBreak feeds
  | null => exact .null
  | escapedNull =>
    rw [Ending.cons, ← List.append_assoc]
    exact .escapedNull

namespace IsLongest

theorem plain {c : Char} (notQuote : c ≠ quote) (notEscape : c ≠ '\\') (notFeed : c ≠ '\n')
    (notReturn : c ≠ '\r') (notNull : c ≠ '\x00') (h : IsLongest quote items rest) :
    IsLongest quote (c :: items) rest where
  run := .plain notQuote notEscape notFeed notReturn notNull h.run
  longest more found front := by
    rw [List.cons_append] at front
    cases found with
    | nil => exact List.nil_prefix
    | escape | escapeBreak => exact absurd (List.cons_prefix_cons.1 front).1.symm notEscape
    | plain _ _ _ _ _ body =>
      obtain ⟨rfl, behind⟩ := List.cons_prefix_cons.1 front
      exact List.cons_prefix_cons.2 ⟨rfl, h.longest _ body behind⟩

theorem escape {d : Char} (notNull : d ≠ '\x00')
    (notBreak : ∀ t, d = '\r' → items ++ rest ≠ '\n' :: t) (h : IsLongest quote items rest) :
    IsLongest quote ('\\' :: d :: items) rest where
  run := .escape notNull h.run
  longest more found front := by
    rw [List.cons_append, List.cons_append] at front
    cases found with
    | nil => exact List.nil_prefix
    | escape _ body =>
      obtain ⟨rfl, behind⟩ := List.cons_prefix_cons.1 (List.cons_prefix_cons.1 front).2
      simpa using h.longest _ body behind
    | escapeBreak =>
      obtain ⟨rfl, t, eq⟩ := List.cons_prefix_cons.1 (List.cons_prefix_cons.1 front).2
      exact absurd eq.symm (notBreak _ rfl)
    | plain _ notBackslash => exact absurd (List.cons_prefix_cons.1 front).1 notBackslash

theorem escapeBreak (h : IsLongest quote items rest) :
    IsLongest quote ('\\' :: '\r' :: '\n' :: items) rest where
  run := .escapeBreak h.run
  longest more found front := by
    rw [List.cons_append, List.cons_append, List.cons_append] at front
    cases found with
    | nil => exact List.nil_prefix
    | escape _ body =>
      obtain ⟨rfl, behind⟩ := List.cons_prefix_cons.1 (List.cons_prefix_cons.1 front).2
      -- Behind half of the line break the run ends: a line feed is no item.
      cases body with
      | nil => simp
      | escape | escapeBreak => simp at behind
      | plain _ _ notFeed => exact absurd (List.cons_prefix_cons.1 behind).1 notFeed
    | escapeBreak body => simpa using h.longest _ body (by simpa using front)
    | plain _ notBackslash => exact absurd (List.cons_prefix_cons.1 front).1 notBackslash

end IsLongest

/-- Reading the items finds the longest run, and ends with what follows it. -/
theorem exists_run (notEscape : quote ≠ '\\') (t : Text) :
    ∃ items rest, t = items ++ rest ∧ IsLongest quote items rest ∧
      EndsIn quote items rest (read quote t) := by
  fun_induction read quote t with
  | case1 => exact ⟨[], [], rfl, EndsIn.sourceEnd.isLongest notEscape, .sourceEnd⟩
  | case2 cs => exact ⟨[], quote :: cs, rfl, EndsIn.quote.isLongest notEscape, .quote⟩
  | case3 => exact ⟨[], ['\\'], rfl, EndsIn.backslash.isLongest notEscape, .backslash⟩
  | case4 cs _ ih =>
    obtain ⟨items, rest, rfl, longest, ends⟩ := ih
    exact ⟨_, rest, rfl, longest.escapeBreak, ends.cons ['\\', '\r', '\n']⟩
  | case5 cs =>
    exact ⟨[], '\\' :: '\x00' :: cs, rfl, EndsIn.escapedNull.isLongest notEscape, .escapedNull⟩
  | case6 d cs notBreak notNull _ ih =>
    obtain ⟨items, rest, rfl, longest, ends⟩ := ih
    refine ⟨_, rest, rfl, longest.escape notNull fun t ret eq => ?_, ends.cons ['\\', d]⟩
    exact notBreak t ret eq
  | case7 c cs _ _ breaks =>
    have breaks : c = '\n' ∨ c = '\r' := by simpa using breaks
    exact ⟨[], c :: cs, rfl, (EndsIn.lineBreak breaks).isLongest notEscape, .lineBreak breaks⟩
  | case8 cs => exact ⟨[], '\x00' :: cs, rfl, EndsIn.null.isLongest notEscape, .null⟩
  | case9 c cs notQuote notBackslash notBreak notNull ih =>
    obtain ⟨items, rest, rfl, longest, ends⟩ := ih
    have notBreak : c ≠ '\n' ∧ c ≠ '\r' := by simpa using notBreak
    exact ⟨_, rest, rfl, longest.plain notQuote notBackslash notBreak.1 notBreak.2 notNull,
      ends.cons [c]⟩

/-- What is between the quotes of a string. -/
theorem body_quoted (narrow : quote.utf8Size = 1) (items : Text) :
    body (quote :: (items ++ [quote])) = items := by
  have behind : Text.dropBytes? (quote :: (items ++ [quote])) 1 = some (items ++ [quote]) :=
    Text.dropBytes?_eq_some_iff.2 ⟨[quote], rfl, by rw [Text.size_cons, Text.size_nil, narrow]⟩
  have size : Text.size (quote :: (items ++ [quote])) - 2 = Text.size items := by
    rw [Text.size_cons, Text.size_append, Text.size_cons, Text.size_nil, narrow]
    omega
  have inside : Text.takeBytes? (items ++ [quote]) (Text.size items) = some items :=
    Text.takeBytes?_eq_some_iff.2 ⟨[quote], rfl, rfl⟩
  rw [body, behind, size, Option.bind_some, inside, Option.getD_some]

/-- What is answered for a string that stands behind `front` and ends so. -/
def Ending.answer (quote : Char) (front : Text) : Ending → Except LexicalError (Option Token)
  | .closed body _ =>
    .ok (some ⟨.string, ⟨Text.size front, Text.size (quote :: (body ++ [quote]))⟩⟩)
  | .unterminated => .error (.unterminatedString (Text.size front) (front.count '\n' + 1))
  | .exhausted before =>
    .error (.exhausted (Text.size (front ++ quote :: before))
      ((front ++ quote :: before).count '\n' + 1))

/-- Where the lexer stands then: behind the closing quote, or still in front of the string. -/
def Ending.after (quote : Char) (l : Lexer) : Ending → Lexer
  | .closed body rest => l.move (quote :: (body ++ [quote])) rest
  | _ => l

end Quoted

/-- Behind the position, a gap and then a quote follow. -/
structure Text.QuotesAt (source : Text) (position : Nat) (before gap : Text) (quote : Char)
    (cs : Text) : Prop where
  source_eq : source = before ++ (gap ++ quote :: cs)
  position_eq : position = Text.size before
  gap : Gap gap (quote :: cs)
  quotes : quote = '\'' ∨ quote = '"'

namespace Lexer

variable {source before gap cs : Text} {quote : Char} {l : Lexer}

theorem StandsIn.rest_eq {rest : Text} (h : l.StandsIn source) (source_eq : source = before ++ rest)
    (offset : l.offset = Text.size before) : l.rest = rest := by
  obtain ⟨before', source_eq', offset', _⟩ := h
  have cut := Text.dropBytes?_eq_some_iff.2 ⟨before, source_eq, offset.symm⟩
  have cut' := Text.dropBytes?_eq_some_iff.2 ⟨before', source_eq', offset'.symm⟩
  exact Option.some.inj (cut'.symm.trans cut)

/-- In front of a quote, the lexer passes the gap and answers what the ending of the string tells. -/
theorem StandsIn.next_eq (h : l.StandsIn source)
    (here : source.QuotesAt l.offset before gap quote cs) :
    l.next = ((Quoted.read quote cs).answer quote (before ++ gap),
      (Quoted.read quote cs).after quote (l.move gap (quote :: cs))) := by
  have rest_eq := h.rest_eq here.source_eq here.position_eq
  have piece : Trivia.piece? (quote :: cs) = none := by
    obtain rfl | rfl := here.quotes <;> rfl
  have skip : l.skipTrivia = l.move gap (quote :: cs) := by
    rw [skipTrivia_of_gap here.gap rest_eq]
    exact skipTrivia_of_none piece
  obtain ⟨front, source_eq, offset, line⟩ := h.move rest_eq
  have front_eq : front = before ++ gap := by
    rw [here.source_eq, ← List.append_assoc] at source_eq
    exact (List.append_cancel_right source_eq).symm
  rw [front_eq] at offset line
  rw [Lexer.next, skip, Scanner.nextAfterTrivia_eq (rest_move ..), Front.read_quote here.quotes,
    Front.readString]
  cases Quoted.read quote cs with
  | closed body rest =>
    have span : Span.ofBounds (l.move gap (quote :: cs)).offset
        ((l.move gap (quote :: cs)).move (quote :: body ++ [quote]) rest).offset =
        ⟨Text.size (before ++ gap), Text.size (quote :: (body ++ [quote]))⟩ := by
      rw [← offset, Span.ofBounds]
      exact congrArg _ (Nat.add_sub_cancel_left ..)
    rw [Scanner.answerOf, Quoted.Ending.answer, Quoted.Ending.after]
    simp only [span]
    rfl
  | unterminated =>
    rw [Scanner.answerOf, offset, line]
    rfl
  | exhausted inside =>
    rw [Scanner.answerOf, Quoted.Ending.answer, Text.size_append, List.count_append,
      Nat.add_right_comm, ← offset, ← line]
    rfl

/-- The lexer runs out of source only at a null character in a string. -/
theorem StandsIn.quotesAt_of_exhausted (h : l.StandsIn source) {offset line : Nat}
    (failed : l.next.1 = .error (.exhausted offset line)) :
    ∃ before gap quote cs inside, source.QuotesAt l.offset before gap quote cs ∧
      Quoted.read quote cs = .exhausted inside ∧
      offset = Text.size (before ++ gap ++ quote :: inside) := by
  have step : l.next = (.error (.exhausted offset line), l.next.2) := Prod.ext failed rfl
  obtain ⟨before, gap, quote, cs, source_eq, offset_eq, _, hg, _, _, rises⟩ := h.rises_of_next step
  have quotes : quote = '\'' ∨ quote = '"' := by
    cases rises
    assumption
  have here : source.QuotesAt l.offset before gap quote cs :=
    ⟨source_eq.trans (List.append_assoc ..), offset_eq, hg, quotes⟩
  rw [h.next_eq here] at failed
  cases read : Quoted.read quote cs with
  | closed | unterminated =>
    rw [read] at failed
    cases failed
  | exhausted inside =>
    rw [read] at failed
    cases failed
    exact ⟨before, gap, quote, cs, inside, here, read, rfl⟩

end Lexer

namespace Text.QuotesAt

variable {source before gap cs : Text} {quote : Char} {position : Nat}

theorem notEscape (here : source.QuotesAt position before gap quote cs) : quote ≠ '\\' := by
  obtain rfl | rfl := here.quotes <;> decide

theorem count_lt (here : source.QuotesAt position before gap quote cs) :
    source.count '\n' < size source := by
  have noFeed : quote ≠ '\n' := (Scanner.ascii_quote here.quotes).2
  have wide := quote.utf8Size_pos
  have := before.count_le_size '\n'
  have := gap.count_le_size '\n'
  have := cs.count_le_size '\n'
  rw [here.source_eq, List.count_append, List.count_append, List.count_cons_of_ne noFeed,
    size_append, size_append, size_cons]
  omega

/-- A closed string is the text of its token, and the lexer stands behind it. -/
theorem of_closed {l : Lexer} {items rest : Text} {ending : Quoted.Ending} {t : Token}
    (here : source.QuotesAt l.offset before gap quote (items ++ rest))
    (ends : Quoted.EndsIn quote items rest ending)
    (found : ending.answer quote (before ++ gap) = .ok (some t)) :
    t.span.slice source = some (quote :: (items ++ [quote])) ∧
      (ending.after quote (l.move gap (quote :: (items ++ rest)))).offset = t.span.stop := by
  cases ends with
  | @quote rest =>
    cases found
    refine ⟨Span.slice_eq_some_iff.2 ⟨before ++ gap, rest, ?_, rfl, rfl⟩, ?_⟩
    · rw [here.source_eq]
      simp
    · rw [Span.stop, size_append, ← here.position_eq]
      rfl
  | sourceEnd | backslash | lineBreak | null | escapedNull => cases found

end Text.QuotesAt

/-- In front of a quote, the longest run of items and what follows it decide the answer of a lexer,
and the scanner of bytes at the same place gives the same. A string that is closed is a token with
the quotes and the items as its text, and the items as its body. Neither of the two runs out of
source but at a null character that ends a string. -/
theorem string_of_reached {strict : Bool} {source : Text} (fits : Text.size source ≤ maxPosition) :
    (∀ l, Lexer.Reached strict source l → ∀ before gap quote cs,
      source.QuotesAt l.offset before gap quote cs →
      ∃ items rest ending l', cs = items ++ rest ∧ Quoted.IsLongest quote items rest ∧
        Quoted.EndsIn quote items rest ending ∧
        l.next = (ending.answer quote (before ++ gap), l') ∧
        (Scanner.ofLexer source l).next =
          .ok (ending.answer quote (before ++ gap), .ofLexer source l') ∧
        ∀ t, ending.answer quote (before ++ gap) = .ok (some t) →
          t.span.slice source = some (quote :: (items ++ [quote])) ∧ l'.offset = t.span.stop ∧
            Quoted.body (quote :: (items ++ [quote])) = items) ∧
    ∀ position offset line,
      ((∃ l, Lexer.Reached strict source l ∧ l.offset = position ∧
          l.next.1 = .error (.exhausted offset line)) ∨
        ∃ s s', Scanner.Reached strict source s ∧ s.position = position ∧
          s.next = .ok (.error (.exhausted offset line), s')) →
      ∃ before gap quote items rest inside,
        source.QuotesAt position before gap quote (items ++ rest) ∧
        Quoted.IsLongest quote items rest ∧ Quoted.EndsIn quote items rest (.exhausted inside) ∧
        offset = Text.size (before ++ gap ++ quote :: inside) := by
  refine ⟨fun l reached before gap quote cs here => ?_, fun position offset line gives => ?_⟩
  · have stands := reached.standsIn
    have few : source.count '\n' < maxPosition := Nat.lt_of_lt_of_le here.count_lt fits
    obtain ⟨narrow, _⟩ := Scanner.ascii_quote here.quotes
    obtain ⟨items, rest, rfl, longest, ends⟩ := Quoted.exists_run here.notEscape cs
    have step := stands.next_eq here
    have run := Scanner.next_of_few few stands
    rw [step] at run
    refine ⟨items, rest, _, _, rfl, longest, ends, step, run, fun t found => ?_⟩
    obtain ⟨slice, stop⟩ := here.of_closed ends found
    exact ⟨slice, stop, Quoted.body_quoted (Text.utf8Size_ascii narrow) items⟩
  · have lexer : ∃ l, Lexer.Reached strict source l ∧ l.offset = position ∧
        l.next.1 = .error (.exhausted offset line) := by
      rcases gives with found | ⟨s, s', reached, stands, run⟩
      · exact found
      · obtain ⟨l, asked, rfl⟩ := reached.exists_lexer fits
        have same := Scanner.eq_of_next fits asked.standsIn run
        exact ⟨l, asked, stands, (Prod.mk.inj same).1.symm⟩
    obtain ⟨l, reached, rfl, failed⟩ := lexer
    obtain ⟨before, gap, quote, cs, inside, here, read, offset_eq⟩ :=
      reached.standsIn.quotesAt_of_exhausted failed
    obtain ⟨items, rest, rfl, longest, ends⟩ := Quoted.exists_run here.notEscape cs
    rw [read] at ends
    exact ⟨before, gap, quote, items, rest, inside, here, longest, ends, offset_eq⟩

/-- A backslash in front of a character of two bytes, and an escaped quote. -/
theorem string_of_reached_escapes :
    let source : Text := ['\'', '\\', 'é', '\\', '\'', '\'']
    Text.size source ≤ maxPosition ∧
      source.QuotesAt 0 [] [] '\'' ['\\', 'é', '\\', '\'', '\''] ∧
      ∃ items rest l', ['\\', 'é', '\\', '\'', '\''] = items ++ rest ∧
        Quoted.IsLongest '\'' items rest ∧
        (Scanner.start false source).next =
          .ok (.ok (some ⟨.string, ⟨0, 7⟩⟩), .ofLexer source l') ∧
        (⟨0, 7⟩ : Span).slice source = some ('\'' :: (items ++ ['\''])) := by
  intro source
  have fits : Text.size source ≤ maxPosition := by decide
  have here : source.QuotesAt 0 [] [] '\'' ['\\', 'é', '\\', '\'', '\''] :=
    ⟨rfl, rfl, .nil, .inl rfl⟩
  have fresh : Lexer.Reached false source (.start false source) := .start
  have token : (Lexer.start false source).next.1 = .ok (some ⟨.string, ⟨0, 7⟩⟩) := rfl
  obtain ⟨items, rest, ending, l', eq, longest, _, step, run, closed⟩ :=
    (string_of_reached fits).1 _ fresh _ _ _ _ here
  have answer : ending.answer '\'' ([] ++ []) = .ok (some ⟨.string, ⟨0, 7⟩⟩) :=
    (congrArg Prod.fst step).symm.trans token
  rw [answer] at run
  exact ⟨fits, here, items, rest, l', eq, longest, run, (closed _ answer).1⟩

end EcmaFront
