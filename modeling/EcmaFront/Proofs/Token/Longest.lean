import EcmaFront.Proofs.Token.Joined
import EcmaFront.Proofs.Token.Strictness

/-!
# The longest token

A token is the longest of its class that stands at its place. `Longest` says so without the order in
which the lexer tries the classes and the operators: no other operator that counts at the place is
as long, and no further character there could go on with a name or a number.

* `Spelling.operator?_eq_some_iff`: the operator that a text starts with is the longest that counts.
* `Spelling.nameKind_eq`: the kind of a name, word by word.
* `longest_of_next`: each token that a lexer returns is the longest, and its text is the piece of
  source that its span denotes, also where a sequence reads it off the kind.
-/

namespace EcmaFront

namespace Text

/-- Two slashes or a slash and a star come next. -/
def StartsComment (t : Text) : Prop := ['/', '/'] <+: t ∨ ['/', '*'] <+: t

theorem not_startsComment_of_piece? {t : Text} (none : Trivia.piece? t = none) :
    ¬ StartsComment t := by
  rintro (⟨rest, rfl⟩ | ⟨rest, rfl⟩)
  · exact (Trivia.piece?_slash.1 none '/' rfl).1 rfl
  · exact (Trivia.piece?_slash.1 none '*' rfl).2 rfl

end Text

namespace Spelling

/-- The text starts with the spelling of the row, which is no optional dot in front of a digit. -/
def Counts (row : String × TokenKind) (t : Text) : Prop :=
  ∃ rest, t = row.1.toList ++ rest ∧
    (row.2 = .punctuator .optionalDot → ∀ d ∈ rest.head?, d.isDigit = false)

theorem counts_iff_fits {row : String × TokenKind} {t : Text} (h : row ∈ operators) :
    Counts row t ↔ fits row t = true := by
  have digit (rest : Text) :
      startsWithDigit rest = false ↔ ∀ d ∈ rest.head?, d.isDigit = false := by
    cases rest <;> simp [startsWithDigit]
  simp only [fits_iff h, digit, Counts]

theorem fitting?_eq_none_iff {t : Text} :
    fitting? t = none ↔ ∀ row ∈ operators, ¬ Counts row t :=
  List.find?_eq_none.trans <| forall₂_congr fun _ mem => not_congr (counts_iff_fits mem).symm

/-- Of two rows that count, the one that comes first is the longer one. -/
theorem Counts.length_lt {row later : String × TokenKind} {t : Text} (h : Counts row t)
    (h' : Counts later t) (order : ¬ row.1.toList <+: later.1.toList) :
    later.1.length < row.1.length := by
  obtain ⟨rest, rfl, _⟩ := h
  obtain ⟨rest', eq, _⟩ := h'
  have shorter : later.1.toList <+: row.1.toList :=
    (List.prefix_or_prefix_of_prefix (List.prefix_append _ rest) ⟨rest', eq.symm⟩).resolve_left order
  have differ : later.1.toList ≠ row.1.toList := fun same => order (same ▸ List.prefix_rfl)
  simpa only [String.length_toList] using
    Nat.lt_of_le_of_ne shorter.length_le fun same => differ (shorter.eq_of_length same)

/-- The row that is read counts, and is longer than each other one that does. -/
theorem longest_of_fitting? {t : Text} {row : String × TokenKind} (h : fitting? t = some row) :
    row ∈ operators ∧ Counts row t ∧
      ∀ other ∈ operators, Counts other t → other ≠ row → other.1.length < row.1.length := by
  obtain ⟨fit, before, after, split, earlier⟩ := List.find?_eq_some_iff_append.1 h
  have mem : row ∈ operators := List.mem_of_find?_eq_some h
  have counts := (counts_iff_fits mem).2 fit
  refine ⟨mem, counts, fun other mem' counts' different => ?_⟩
  have order := operators_longest_first
  have place := mem'
  rw [split] at order place
  rcases List.mem_append.1 place with place | place
  · -- A row before the first one that fits does not count.
    have stays := earlier other place
    rw [(counts_iff_fits mem').1 counts'] at stays
    cases stays
  · have later := (List.mem_cons.1 place).resolve_left different
    have behind := List.pairwise_cons.1 (List.pairwise_append.1 order).2.1
    exact counts.length_lt counts' (behind.1 other later)

/-- A row is read exactly if it is the longest that counts. -/
theorem fitting?_eq_some_iff {t : Text} {row : String × TokenKind} :
    fitting? t = some row ↔ row ∈ operators ∧ Counts row t ∧
      ∀ other ∈ operators, Counts other t → other ≠ row → other.1.length < row.1.length := by
  refine ⟨longest_of_fitting?, fun ⟨mem, counts, longest⟩ => ?_⟩
  cases found : fitting? t with
  | none => exact absurd counts (fitting?_eq_none_iff.1 found row mem)
  | some other =>
    obtain ⟨mem', counts', longest'⟩ := longest_of_fitting? found
    by_contra different
    have different : other ≠ row := fun same => different (congrArg some same)
    -- Each of the two would be longer than the other one.
    have shorter := longest other mem' counts' different
    have longer := longest' row mem counts different.symm
    omega

theorem operator?_eq_some_iff {t : Text} {kind : TokenKind} :
    operator? t = some kind ↔ ∃ spelling, (spelling, kind) ∈ operators ∧ Counts (spelling, kind) t ∧
      ∀ other ∈ operators, Counts other t → other ≠ (spelling, kind) →
        other.1.length < spelling.length := by
  constructor
  · intro h
    obtain ⟨row, found, rfl⟩ := Option.map_eq_some_iff.1 h
    exact ⟨row.1, fitting?_eq_some_iff.1 found⟩
  · rintro ⟨spelling, longest⟩
    exact Option.map_eq_some_iff.2 ⟨_, fitting?_eq_some_iff.2 longest, rfl⟩

/-- The row has the word, and the source is strict if it is reserved only there. -/
def Reserves (strict : Bool) (word : Text) (row : String × Keyword) : Prop :=
  row.1.toList = word ∧ (row.2.isStrictOnly = true → strict = true)

/-- A name that is a reserved word has the kind of this word, and any other is an identifier. -/
theorem nameKind_eq {strict : Bool} {word : Text} :
    (∃ row ∈ keywords, Reserves strict word row ∧ nameKind strict word = .keyword row.2) ∨
      ((∀ row ∈ keywords, ¬ Reserves strict word row) ∧ nameKind strict word = .identifier) := by
  have allowed_iff (k : Keyword) : (strict || !k.isStrictOnly) = true ↔
      (k.isStrictOnly = true → strict = true) := by
    simp [or_comm, imp_iff_not_or]
  unfold nameKind
  split
  · next k found =>
    obtain ⟨⟨row, mem, whole, rfl⟩, allowed⟩ := keyword?_eq_some_iff.1 found
    exact .inl ⟨row, mem, ⟨whole, (allowed_iff row.2).1 allowed⟩, rfl⟩
  · next missing =>
    refine .inr ⟨fun row mem reserves => ?_, rfl⟩
    have found : keyword? strict word = some row.2 :=
      keyword?_eq_some_iff.2 ⟨⟨row, mem, reserves.1, rfl⟩, (allowed_iff row.2).2 reserves.2⟩
    rw [missing] at found
    cases found

end Spelling

/-- The text, in front of `rest`, is the longest token of its class there. -/
inductive Longest (strict : Bool) : TokenKind → Text → Text → Prop
  | operator {spelling : String} {kind : TokenKind} {rest : Text} :
    (spelling, kind) ∈ Spelling.operators → ¬ Text.StartsComment (spelling.toList ++ rest) →
    Spelling.Counts (spelling, kind) (spelling.toList ++ rest) →
    (∀ other ∈ Spelling.operators, Spelling.Counts other (spelling.toList ++ rest) →
      other ≠ (spelling, kind) → other.1.length < spelling.length) →
    Longest strict kind spelling.toList rest
  | keyword {word rest : Text} {row : String × Keyword} : Text.IsName word →
    (∀ c ∈ rest.head?, Text.isNamePart c = false) → row ∈ Spelling.keywords →
    Spelling.Reserves strict word row → Longest strict (.keyword row.2) word rest
  | identifier {word rest : Text} : Text.IsName word →
    (∀ c ∈ rest.head?, Text.isNamePart c = false) →
    (∀ row ∈ Spelling.keywords, ¬ Spelling.Reserves strict word row) →
    Longest strict .identifier word rest
  | number {digits rest : Text} : digits ≠ [] → (∀ d ∈ digits, d.isDigit = true) →
    (∀ c ∈ rest.head?, c.isDigit = false) → Longest strict .number digits rest
  | string {raw rest : Text} : Quoted.IsString raw → Longest strict .string raw rest

theorem Text.head?_dropWhile {p : Char → Bool} {t : Text} :
    ∀ c ∈ (t.dropWhile p).head?, p c = false := by
  intro c head
  have stops := List.head?_dropWhile_not p t
  rw [Option.mem_def.1 head] at stops
  simpa using stops

namespace Longest

variable {strict : Bool} {kind : TokenKind} {text rest : Text}

/-- What is read off the front of a text without trivia is the longest of its class. -/
theorem of_read {c : Char} {cs : Text} (none : Trivia.piece? (c :: cs) = none)
    (h : Front.read strict c cs = .token kind text rest) : Longest strict kind text rest := by
  have whole := Front.append_of_read h
  unfold Front.read at h
  split at h
  · next found =>
    obtain ⟨rfl, rfl, _⟩ := Front.token.inj h
    obtain ⟨mem, counts, longest⟩ := Spelling.fitting?_eq_some_iff.1 found
    rw [← whole] at none counts longest
    exact .operator mem (Text.not_startsComment_of_piece? none) counts longest
  split at h
  · next start =>
    obtain ⟨rfl, rfl, rfl⟩ := Front.token.inj h
    have word : Text.IsName ((c :: cs).takeWhile Text.isNamePart) :=
      ⟨c, cs.takeWhile Text.isNamePart,
        List.takeWhile_cons_of_pos (Text.isNamePart_of_isNameStart start), start,
        fun d mem => List.mem_takeWhile_imp mem⟩
    rcases Spelling.nameKind_eq with ⟨row, mem, reserves, same⟩ | ⟨free, same⟩
    · exact same ▸ .keyword word Text.head?_dropWhile mem reserves
    · exact same ▸ .identifier word Text.head?_dropWhile free
  split at h
  · next digit =>
    obtain ⟨rfl, rfl, rfl⟩ := Front.token.inj h
    refine .number ?_ (fun d mem => List.mem_takeWhile_imp mem) Text.head?_dropWhile
    simp [digit]
  split at h
  · next quote =>
    unfold Front.readString at h
    split at h
    · next closed =>
      obtain ⟨rfl, rfl, rfl⟩ := Front.token.inj h
      exact .string ⟨c, _, by simpa using quote, .of_read closed, rfl⟩
    all_goals cases h
  · cases h

end Longest

namespace Lexer

/-- Where no trivia stands, the next token is the longest of its class. -/
theorem longest_of_nextAfterTrivia {s after : Lexer} {t : Token}
    (none : Trivia.piece? s.rest = none) (h : s.nextAfterTrivia = (.ok (some t), after)) :
    ∃ text rest, s.rest = text ++ rest ∧ t.span = ⟨s.offset, Text.size text⟩ ∧
      Spelled s.strict t.kind text ∧ Longest s.strict t.kind text rest := by
  unfold nextAfterTrivia at h
  split at h
  · cases h
  next c cs rest_eq =>
  rw [rest_eq] at none
  split at h
  · next kind text rest front =>
    obtain ⟨found, _⟩ := Prod.mk.inj h
    obtain rfl := Option.some.inj (Except.ok.inj found)
    refine ⟨text, rest, ?_, ?_, .of_read front, .of_read none front⟩
    · rw [rest_eq, Front.append_of_read front]
    · simp [Span.ofBounds, move]
  all_goals cases h

namespace Reached

variable {strict : Bool} {source : Text} {s s' : Lexer}

theorem strict_eq (h : Reached strict source s) : s.strict = strict := by
  induction h with
  | start => rfl
  | @next s s' _ _ step ih =>
    rw [← ih, ← s.strict_next, step]

/-- The next token stands behind a part of the source, and is the longest of its class there. -/
theorem exists_longest {t : Token} (h : Reached strict source s)
    (found : s.next = (.ok (some t), s')) :
    ∃ before text rest, source = before ++ (text ++ rest) ∧
      t.span = ⟨Text.size before, Text.size text⟩ ∧ Spelled strict t.kind text ∧
      Longest strict t.kind text rest := by
  obtain ⟨gap, left, _, _, skip, none⟩ := s.skipTrivia_eq
  obtain ⟨before, source_eq, offset, _⟩ := h.standsIn.skipTrivia
  have none : Trivia.piece? s.skipTrivia.rest = Option.none := by rwa [skip]
  obtain ⟨text, rest, rest_eq, span, longest⟩ := longest_of_nextAfterTrivia none found
  rw [s.strict_skipTrivia, h.strict_eq] at longest
  exact ⟨before, text, rest, by rw [source_eq, rest_eq], by rw [span, offset], longest⟩

end Reached

end Lexer

/-- Each token that a lexer returns is the longest of its class where it stands: an operator, where
no comment starts, a name, a number or a string. Its text is the piece of source that its span
denotes, also where a sequence reads it off the kind. -/
theorem longest_of_next (strict : Bool) (source : Text) :
    (∀ s s' t, Lexer.Reached strict source s → s.next = (.ok (some t), s') →
      ∃ before text rest, source = before ++ (text ++ rest) ∧
        t.span = ⟨Text.size before, Text.size text⟩ ∧ Longest strict t.kind text rest ∧
        ∀ tokens : TokenSequence, tokens.source = source → tokens.text t = text) ∧
    ∀ tokens, scan strict source = .ok tokens →
      ∀ t ∈ tokens.toList, t.span.slice source = some (tokens.text t) := by
  refine ⟨fun s s' t reached found => ?_, fun tokens scanned => slice_of_scan scanned⟩
  obtain ⟨before, text, rest, eq, span, spelled, longest⟩ := reached.exists_longest found
  refine ⟨before, text, rest, eq, span, longest, ?_⟩
  rintro tokens rfl
  refine TokenSequence.text_eq spelled ?_
  rw [span]
  exact Span.slice_eq_some_iff.2 ⟨before, rest, by simp [eq], rfl, rfl⟩

/-- The longer spelling `?.` does not count at the question mark of `a?.5`. -/
theorem longest_of_next_question :
    ∃ s s' before rest, Lexer.Reached false ['a', '?', '.', '5'] s ∧
      s.next = (.ok (some ⟨.punctuator .question, ⟨1, 1⟩⟩), s') ∧
      ['a', '?', '.', '5'] = before ++ ('?' :: rest) ∧ Text.size before = 1 ∧
      Longest false (.punctuator .question) ['?'] rest := by
  let lexer : Lexer := .start false ['a', '?', '.', '5']
  have name : lexer.next = (.ok (some ⟨.identifier, ⟨0, 1⟩⟩), lexer.next.2) := rfl
  have mark : lexer.next.2.next =
      (.ok (some ⟨.punctuator .question, ⟨1, 1⟩⟩), lexer.next.2.next.2) := rfl
  obtain ⟨before, text, rest, eq, span, longest, texts⟩ :=
    (longest_of_next false ['a', '?', '.', '5']).1 _ _ _ (.next .start name) mark
  obtain rfl : ['?'] = text := texts (.empty _) rfl
  exact ⟨_, _, before, rest, .next .start name, mark, eq, (Span.mk.inj span).1.symm, longest⟩

end EcmaFront
