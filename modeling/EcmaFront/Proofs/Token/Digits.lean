import EcmaFront.Proofs.Token.Joined
import EcmaFront.Tree.Expression

/-!
# What stands behind a number

The lexer takes all the digits that it can. So the character behind a number that is not attached to
the token behind it goes on with no name, and a dot there is not the point of a fraction.

* `Lexer.next_of_suffix`: each token of a source is found by a lexer further on.
* `Tiling.behind_number`: the first characters behind a number, from the first tokens.
-/

namespace EcmaFront

/-- What starts with no space and no slash starts with no trivia. -/
theorem Gap.eq_nil {gap rest cs : Text} {c : Char} (h : Gap gap rest) (eq : gap ++ rest = c :: cs)
    (notSpace : Text.isSpace c = false) (notSlash : c ≠ '/') : gap = [] := by
  cases h with
  | nil => rfl
  | space space =>
    obtain ⟨rfl, _⟩ := List.cons.inj eq
    rw [notSpace] at space
    cases space
  | line | block | openBlock =>
    obtain ⟨rfl, _⟩ := List.cons.inj eq
    exact absurd rfl notSlash

/-- No trivia starts with a character of names or a digit. -/
theorem Text.notTrivia_of_part {c : Char} (h : isNamePart c = true ∨ c.isDigit = true) :
    isSpace c = false ∧ c ≠ '/' := by
  constructor
  · rw [Bool.eq_false_iff]
    intro space
    obtain ⟨_, notPart, notDigit⟩ := notPart_of_isSpace space
    simp [notPart, notDigit] at h
  · rintro rfl
    revert h
    decide

/-! ## The first character of a token -/

theorem Text.notPart_of_quote {c : Char} (h : c = '\'' ∨ c = '"') :
    isNamePart c = false ∧ c.isDigit = false ∧ c ≠ '.' := by
  obtain rfl | rfl := h
  · decide
  · decide

theorem Spelling.notPart_of_mem_marks {c : Char} (h : c ∈ marks) : Text.isNamePart c = false := by
  have all : marks.all (fun c => !Text.isNamePart c) = true := by
    decide +kernel
  simpa using List.all_eq_true.1 all c h

namespace Spelled

variable {strict : Bool} {kind : TokenKind} {c : Char} {cs : Text}

theorem first_mem_marks {row : String × TokenKind} (mem : row ∈ Spelling.operators)
    (eq : c :: cs = row.1.toList) : c ∈ Spelling.marks :=
  Spelling.subset_marks row mem (eq ▸ List.mem_cons_self)

/-- A character of names that is no digit belongs to a word. -/
theorem isPropertyName_of_part (h : Spelled strict kind (c :: cs)) (part : Text.isNamePart c = true)
    (notDigit : c.isDigit = false) : kind.isPropertyName = true := by
  generalize eq : c :: cs = text at h
  cases h with
  | operator mem =>
    have notPart := Spelling.notPart_of_mem_marks (first_mem_marks mem eq)
    rw [notPart] at part
    cases part
  | name => exact Spelling.isPropertyName_nameKind strict text
  | number _ digits =>
    have digit := digits c (eq ▸ List.mem_cons_self)
    rw [notDigit] at digit
    cases digit
  | string raw =>
    obtain ⟨quote, body, isQuote, _, rfl⟩ := raw
    obtain ⟨rfl, _⟩ := List.cons.inj eq
    rw [(Text.notPart_of_quote isQuote).1] at part
    cases part

theorem eq_number_of_digit (h : Spelled strict kind (c :: cs)) (digit : c.isDigit = true) :
    kind = .number := by
  generalize eq : c :: cs = text at h
  cases h with
  | operator mem =>
    have notDigit := (Spelling.notName_of_mem_marks (first_mem_marks mem eq)).2.1
    rw [notDigit] at digit
    cases digit
  | name word =>
    obtain ⟨d, ds, rfl, start, _⟩ := word
    obtain ⟨rfl, _⟩ := List.cons.inj eq
    rw [Text.notNameStart_of_isDigit digit] at start
    cases start
  | number => rfl
  | string raw =>
    obtain ⟨quote, body, isQuote, _, rfl⟩ := raw
    obtain ⟨rfl, _⟩ := List.cons.inj eq
    rw [(Text.notPart_of_quote isQuote).2.1] at digit
    cases digit

/-- A dot is a token for itself if no other dot follows. -/
theorem of_dot (h : Spelled strict kind ('.' :: cs)) :
    (kind = .punctuator .dot ∧ cs = []) ∨ cs.head? = some '.' := by
  generalize eq : '.' :: cs = text at h
  cases h with
  | operator mem =>
    have all : ∀ row ∈ Spelling.operators, row.1.toList.head? = some '.' →
        (row.2 = .punctuator .dot ∧ row.1.toList.tail = []) ∨
          row.1.toList.tail.head? = some '.' := by
      decide +kernel
    have first := all _ mem
    rw [← eq] at first
    exact first rfl
  | name word =>
    obtain ⟨d, ds, rfl, start, _⟩ := word
    obtain ⟨rfl, _⟩ := List.cons.inj eq
    exact absurd start (by decide)
  | number _ digits => exact absurd (digits '.' (eq ▸ List.mem_cons_self)) (by decide)
  | string raw =>
    obtain ⟨quote, body, isQuote, _, rfl⟩ := raw
    obtain ⟨rfl, _⟩ := List.cons.inj eq
    exact absurd rfl (Text.notPart_of_quote isQuote).2.2

end Spelled

/-! ## The tokens behind a number -/

namespace Tiling

variable {strict : Bool} {offset : Nat} {lexemes : List Lexeme}

/-- Where no trivia starts, a token does. -/
theorem exists_cons {c : Char} {cs : Text} (h : Tiling strict offset lexemes (c :: cs))
    (notSpace : Text.isSpace c = false) (notSlash : c ≠ '/') :
    ∃ t more ds rest, lexemes = t :: more ∧ t.span.start = offset ∧ cs = ds ++ rest ∧
      Spelled strict t.kind (c :: ds) ∧ Tiling strict t.span.stop more rest := by
  generalize eq : c :: cs = text at h
  cases h with
  | done gap =>
    rw [gap.eq_nil (by rw [List.append_nil, eq]) notSpace notSlash] at eq
    cases eq
  | @lexeme _ kind gap text rest more hg spelled tiling =>
    obtain rfl := hg.eq_nil eq.symm notSpace notSlash
    obtain ⟨d, ds, rfl⟩ := List.exists_cons_of_ne_nil spelled.ne_nil
    obtain ⟨rfl, rfl⟩ := List.cons.inj eq
    exact ⟨_, more, ds, rest, rfl, rfl, rfl, spelled, tiling⟩

/-- Nothing goes on behind a number that no token is attached to. -/
theorem behind_number {t : Lexeme} {rest : Text} (h : Tiling strict t.span.stop lexemes rest)
    (detached : Expr.attachedSuffix? t lexemes = none)
    (ended : ∀ c ∈ rest.head?, c.isDigit = false) :
    (∀ c ∈ rest.head?, Text.isNamePart c = false) ∧
      ∀ more, rest = '.' :: more → ∀ d ∈ more.head?, d.isDigit = false := by
  constructor
  · intro c head
    obtain ⟨cs, rfl⟩ := List.head?_eq_some_iff.1 (Option.mem_def.1 head)
    rw [Bool.eq_false_iff]
    intro part
    obtain ⟨notSpace, notSlash⟩ := Text.notTrivia_of_part (.inl part)
    obtain ⟨next, more, ds, rest, rfl, start, _, spelled, _⟩ := h.exists_cons notSpace notSlash
    have isName := spelled.isPropertyName_of_part part (ended c rfl)
    simp [Expr.attachedSuffix?, start, isName] at detached
  · rintro more rfl d head
    obtain ⟨ds, rfl⟩ := List.head?_eq_some_iff.1 (Option.mem_def.1 head)
    rw [Bool.eq_false_iff]
    intro digit
    obtain ⟨dot, lexemes, cs, rest, rfl, start, rest_eq, spelled, tiling⟩ :=
      h.exists_cons (by decide) (by decide)
    obtain ⟨isDot, rfl⟩ | second := spelled.of_dot
    · obtain ⟨notSpace, notSlash⟩ := Text.notTrivia_of_part (.inr digit)
      rw [List.nil_append] at rest_eq
      subst rest_eq
      obtain ⟨next, more, _, _, rfl, start', _, spelled', _⟩ := tiling.exists_cons notSpace notSlash
      have isNumber := spelled'.eq_number_of_digit digit
      simp [Expr.attachedSuffix?, start, isDot, TokenKind.isPropertyName_eq, isNumber, start']
        at detached
    · obtain ⟨cs, rfl⟩ := List.head?_eq_some_iff.1 second
      obtain ⟨rfl, _⟩ := List.cons.inj rest_eq
      exact absurd digit (by decide)

end Tiling

/-! ## Numbers in a source -/

/-- A number takes all the digits. -/
theorem Front.digits_end {strict : Bool} {c : Char} {cs text rest : Text}
    (h : read strict c cs = .token .number text rest) : ∀ d ∈ rest.head?, d.isDigit = false := by
  unfold read at h
  split at h
  · next found =>
    obtain ⟨rfl, _⟩ := token.inj h
    cases Spelling.text?_of_mem_operators _ (List.mem_of_find?_eq_some found)
  split at h
  · obtain ⟨isNumber, _⟩ := token.inj h
    exact absurd isNumber (Spelling.nameKind_ne rfl)
  split at h
  · obtain ⟨_, _, rfl⟩ := token.inj h
    intro d head
    have stop := List.head?_dropWhile_not Char.isDigit (c :: cs)
    rw [Option.mem_def.1 head] at stop
    simpa using stop
  split at h
  · unfold readString at h
    split at h <;> cases h
  · cases h

namespace Lexer

theorem digits_end {s after : Lexer} {t : Token} (found : s.next = (.ok (some t), after))
    (isNumber : t.kind = .number) : ∀ d ∈ after.rest.head?, d.isDigit = false := by
  unfold next nextAfterTrivia at found
  split at found
  · cases found
  split at found
  · next kind text rest front =>
    obtain ⟨same, rfl⟩ := Prod.mk.inj found
    obtain rfl := Option.some.inj (Except.ok.inj same)
    obtain rfl : kind = .number := isNumber
    exact Front.digits_end front
  all_goals cases found

/-- Each token is what a lexer further on finds, and the tokens behind it are all that it leaves. -/
theorem next_of_suffix {s : Lexer} {tokens after : List Token} {t : Token}
    (h : s.all = .ok tokens) (suffix : t :: after <:+ tokens) :
    ∃ front, ∃ s' s'' : Lexer, s.rest = front ++ s''.rest ∧
      s''.offset = s.offset + Text.size front ∧ s'.next = (.ok (some t), s'') ∧
      s''.all = .ok after := by
  induction tokens generalizing s with
  | nil => cases List.suffix_nil.1 suffix
  | cons u more ih =>
    rw [all_eq] at h
    split at h
    · next v s₁ found =>
      obtain ⟨taken, rest_eq, moved, _⟩ := next_eq_some found
      cases others : s₁.all with
      | error e => simp [others, Except.map] at h
      | ok ts =>
        rw [others] at h
        obtain ⟨rfl, rfl⟩ := List.cons.inj (Except.ok.inj h)
        have offset : s₁.offset = s.offset + Text.size taken := by rw [moved]; rfl
        obtain here | behind := List.suffix_cons_iff.1 suffix
        · obtain ⟨rfl, rfl⟩ := List.cons.inj here
          exact ⟨taken, s, s₁, rest_eq, offset, found, others⟩
        · obtain ⟨front, s', s'', rest_eq', offset', found', others'⟩ := ih others behind
          refine ⟨taken ++ front, s', s'', ?_, ?_, found', others'⟩
          · rw [rest_eq, rest_eq', List.append_assoc]
          · rw [offset', offset, Text.size_append, Nat.add_assoc]
    · cases h
    · cases h

end Lexer

/-- Whether a number goes on is told by the kinds and spans of the tokens behind it. -/
theorem Expr.attachedSuffix?_congr {t : Lexeme} {us vs : List Lexeme}
    (same : us.map Lexeme.token = vs.map Lexeme.token) :
    attachedSuffix? t us = attachedSuffix? t vs := by
  have inj {u v : Lexeme} (eq : u.token = v.token) : u.kind = v.kind ∧ u.span = v.span :=
    Token.mk.inj eq
  cases us with
  | nil =>
    obtain rfl := List.map_eq_nil_iff.1 same.symm
    rfl
  | cons u us =>
    obtain ⟨v, vs, rfl, first, same⟩ := List.map_eq_cons_iff.1 same.symm
    obtain ⟨kind, span⟩ := inj first
    cases us with
    | nil =>
      obtain rfl := List.map_eq_nil_iff.1 same
      simp [attachedSuffix?, kind, span]
    | cons u' us =>
      obtain ⟨v', vs, rfl, second, _⟩ := List.map_eq_cons_iff.1 same
      obtain ⟨kind', span'⟩ := inj second
      simp [attachedSuffix?, kind, span, kind', span']

theorem TokenSequence.map_token_lexemes (s : TokenSequence) :
    s.lexemes.map Lexeme.token = s.toList := by
  rw [lexemes, List.map_map]
  exact List.map_id _

/-- Behind a number that no token is attached to comes no character of a name, and no digit behind
a dot. -/
theorem scan_behind_number {strict : Bool} {source : Text} {tokens : TokenSequence} {t : Lexeme}
    {after : List Lexeme} (h : scan strict source = .ok tokens)
    (suffix : t :: after <:+ tokens.lexemes) (isNumber : t.kind = .number)
    (detached : Expr.attachedSuffix? t after = none) :
    ∃ front rest, source = front ++ rest ∧ Text.size front = t.span.stop ∧
      (∀ c ∈ rest.head?, Text.isNamePart c = false) ∧
      ∀ more, rest = '.' :: more → ∀ d ∈ more.head?, d.isDigit = false := by
  obtain ⟨_, list, all, rfl⟩ := scan_eq_ok.1 h
  have suffix : t.token :: after.map Lexeme.token <:+ list := by
    have tokens := suffix.map Lexeme.token
    rwa [TokenSequence.map_token_lexemes, TokenSequence.toList_ofList] at tokens
  obtain ⟨front, s', s'', source_eq, offset, found, others⟩ := Lexer.next_of_suffix all suffix
  obtain ⟨_, _, _, stop⟩ := Lexer.next_eq_some found
  obtain ⟨lexemes, same, tiling⟩ := Lexer.tiling_of_all others
  have stop : t.span.stop = s''.offset := stop
  rw [← stop] at tiling offset
  rw [Expr.attachedSuffix?_congr same] at detached
  have ended := Lexer.digits_end found isNumber
  obtain ⟨noName, noDigit⟩ := tiling.behind_number detached ended
  refine ⟨front, s''.rest, source_eq, ?_, noName, noDigit⟩
  rw [offset]
  exact (Nat.zero_add _).symm

end EcmaFront
