import EcmaFront.Text.Space
import EcmaFront.Token.Front
import EcmaFront.Token.Operator
import Mathlib.Data.List.Find
import Mathlib.Data.List.TakeWhile

/-!
# How tokens are spelled

The lexical grammar, stated on the text of one token: `Spelled strict kind text` says that `text` is
an operator, a name, a run of digits or a quoted string, and that `kind` is its kind. The front of a
text is read by this grammar:

* `Spelled.of_read`: whatever is read off a text is spelled so.
* `Spelled.read_append`: what is spelled so is read back in front of a space or of the end.

Both together fix the kind by the text (`Spelled.unique`).
-/

namespace EcmaFront

/-! ## Quoted strings -/

namespace Quoted

/-- The text between two quotes: a run of items. An item is a backslash with the character after it,
or a backslash with a carriage return and a line feed, or a plain character. -/
inductive Items (quote : Char) : Text → Prop
  | nil : Items quote []
  | escape {d : Char} {body : Text} : d ≠ '\x00' → Items quote body → Items quote ('\\' :: d :: body)
  | escapeBreak {body : Text} : Items quote body → Items quote ('\\' :: '\r' :: '\n' :: body)
  | plain {c : Char} {body : Text} : c ≠ quote → c ≠ '\\' → c ≠ '\n' → c ≠ '\r' → c ≠ '\x00' →
    Items quote body → Items quote (c :: body)

variable {quote : Char}

theorem Items.of_read {t body rest : Text} (h : read quote t = .closed body rest) :
    Items quote body := by
  fun_induction read quote t generalizing body with
  | case1 | case3 | case5 | case7 | case8 => cases h
  | case2 =>
    obtain ⟨rfl, _⟩ := Ending.closed.inj h
    exact .nil
  | case4 cs _ ih =>
    obtain ⟨inside, closed, rfl⟩ := closed_of_cons h
    exact .escapeBreak (ih closed)
  | case6 d cs _ notNull _ ih =>
    obtain ⟨inside, closed, rfl⟩ := closed_of_cons h
    exact .escape notNull (ih closed)
  | case9 c cs notQuote notEscape notBreak notNull ih =>
    obtain ⟨inside, closed, rfl⟩ := closed_of_cons h
    simp only [Bool.or_eq_true, decide_eq_true_eq, not_or] at notBreak
    exact .plain notQuote notEscape notBreak.1 notBreak.2 notNull (ih closed)

theorem Items.head?_ne_lineFeed {body rest : Text} (h : Items quote body) (hq : quote ≠ '\n') :
    (body ++ quote :: rest).head? ≠ some '\n' := by
  cases h with
  | nil => simpa using hq
  | escape | escapeBreak => simp
  | plain _ _ notFeed => simpa using notFeed

/-- An escaped character is one item, unless it is the first half of a line break. -/
theorem read_escape {d : Char} {t : Text} (hq : quote ≠ '\\') (hd : d ≠ '\x00')
    (ht : t.head? ≠ some '\n') :
    read quote ('\\' :: d :: t) = (read quote t).cons ['\\', d] := by
  rw [read.eq_def]
  simp only [if_neg hq.symm, if_true]
  split
  · simp at *
  · next heq =>
    obtain ⟨_, rfl⟩ := List.cons.inj heq
    simp at ht
  · next heq =>
    obtain ⟨rfl, rfl⟩ := List.cons.inj heq
    rw [if_neg hd]

theorem Items.read_append {body : Text} (h : Items quote body) (hn : quote ≠ '\n')
    (hq : quote ≠ '\\') (rest : Text) : read quote (body ++ quote :: rest) = .closed body rest := by
  induction h with
  | nil => rw [List.nil_append, read.eq_def]; exact if_pos rfl
  | escape notNull items ih =>
    simp only [List.cons_append]
    rw [read_escape hq notNull (items.head?_ne_lineFeed hn), ih]
    rfl
  | escapeBreak _ ih =>
    simp only [List.cons_append]
    rw [read.eq_def]
    simp only [if_neg hq.symm, if_true, ih]
    rfl
  | plain notQuote notEscape notFeed notReturn notNull _ ih =>
    simp only [List.cons_append]
    rw [read.eq_def]
    simp only [if_neg notQuote, if_neg notEscape, notFeed, notReturn, decide_false, Bool.or_self,
      Bool.false_eq_true, if_neg notNull, if_false, ih]
    rfl

end Quoted

/-! ## The characters of operators -/

namespace Spelling

/-- The characters that operators are made of. -/
def marks : Text := "\x7b\x7d()[].;,?<>=!+-*/%&|^~:".toList

theorem subset_marks : ∀ row ∈ operators, row.1.toList ⊆ marks := by
  decide +kernel

theorem notName_of_mem_marks {c : Char} (h : c ∈ marks) :
    Text.isNameStart c = false ∧ c.isDigit = false ∧ Text.isSpace c = false ∧
      c ≠ '\'' ∧ c ≠ '"' := by
  have all : marks.all (fun c => decide (Text.isNameStart c = false ∧ c.isDigit = false ∧
      Text.isSpace c = false ∧ c ≠ '\'' ∧ c ≠ '"')) = true := by
    decide +kernel
  exact of_decide_eq_true (List.all_eq_true.1 all c h)

theorem fitting?_spelling : ∀ row ∈ operators, fitting? row.1.toList = some row := by
  decide +kernel

/-- What starts with no character of an operator starts with no operator. -/
theorem fitting?_eq_none {c : Char} (h : c ∉ marks) (cs : Text) : fitting? (c :: cs) = none := by
  refine List.find?_eq_none.2 fun row mem fit => h ?_
  simp only [fits, Bool.and_eq_true, List.isPrefixOf_iff_prefix] at fit
  obtain ⟨tail, eq⟩ := fit.1
  have nonempty := ne_nil_of_mem_operators row mem
  have subset := subset_marks row mem
  cases spelling : row.1.toList with
  | nil => exact absurd spelling nonempty
  | cons d ds =>
    rw [spelling, List.cons_append] at eq
    obtain ⟨rfl, _⟩ := List.cons.inj eq
    exact subset (by simp [spelling])

/-- A name, a number or a string starts with no operator. -/
theorem fitting?_eq_none_of_first {c : Char}
    (h : Text.isNameStart c = true ∨ c.isDigit = true ∨ c = '\'' ∨ c = '"') (cs : Text) :
    fitting? (c :: cs) = none := by
  refine fitting?_eq_none (fun mem => ?_) cs
  obtain ⟨notStart, notDigit, _, notSingle, notDouble⟩ := notName_of_mem_marks mem
  obtain start | digit | single | double := h
  · exact Bool.eq_false_iff.1 notStart start
  · exact Bool.eq_false_iff.1 notDigit digit
  · exact notSingle single
  · exact notDouble double

theorem eq_of_optionalDot {row : String × TokenKind} (h : row ∈ operators)
    (dot : row.2 = .punctuator .optionalDot) : row.1.toList = ['?', '.'] := by
  have text := text?_of_mem_operators row h
  rw [dot] at text
  rw [← Option.some.inj text]
  rfl

/-- Whether a row fits, told by the text behind its spelling. -/
theorem fits_iff {row : String × TokenKind} (h : row ∈ operators) {t : Text} :
    fits row t = true ↔ ∃ rest, t = row.1.toList ++ rest ∧
      (row.2 = .punctuator .optionalDot → startsWithDigit rest = false) := by
  simp only [fits, Bool.and_eq_true, List.isPrefixOf_iff_prefix, Bool.not_eq_true',
    Bool.and_eq_false_imp, beq_iff_eq]
  constructor
  · rintro ⟨⟨rest, rfl⟩, behind⟩
    refine ⟨rest, rfl, fun dot => ?_⟩
    simpa [eq_of_optionalDot h dot] using behind dot
  · rintro ⟨rest, rfl, behind⟩
    refine ⟨List.prefix_append .., fun dot => ?_⟩
    simpa [eq_of_optionalDot h dot] using behind dot

/-- A character that is part of no operator and no digit divides what stands before it from what
stands behind it. -/
theorem fits_append {row : String × TokenKind} (h : row ∈ operators) {c : Char} (hc : c ∉ marks)
    (hd : c.isDigit = false) (t rest : Text) : fits row (t ++ c :: rest) = fits row t := by
  rw [Bool.eq_iff_iff, fits_iff h, fits_iff h]
  constructor
  · rintro ⟨after, eq, behind⟩
    rcases List.append_eq_append_iff.1 eq with ⟨more, split, rest_eq⟩ | ⟨more, split, rest_eq⟩
    · cases more with
      | nil => exact ⟨[], by simp [split], fun _ => rfl⟩
      | cons d more =>
        obtain ⟨rfl, _⟩ := List.cons.inj rest_eq
        exact absurd (subset_marks row h (by simp [split])) hc
    · refine ⟨more, split, fun dot => ?_⟩
      rw [rest_eq] at behind
      cases more with
      | nil => rfl
      | cons d more => exact behind dot
  · rintro ⟨after, rfl, behind⟩
    refine ⟨after ++ c :: rest, List.append_assoc .., fun dot => ?_⟩
    cases after with
    | nil => exact hd
    | cons d after => exact behind dot

theorem fitting?_append {c : Char} (hc : c ∉ marks) (hd : c.isDigit = false) (t rest : Text) :
    fitting? (t ++ c :: rest) = fitting? t := by
  unfold fitting?
  refine List.find?_congr fun row mem => ?_
  exact fits_append mem hc hd t rest

theorem isPropertyName_nameKind (strict : Bool) (word : Text) :
    (nameKind strict word).isPropertyName = true := by
  unfold nameKind
  split <;> exact TokenKind.isPropertyName_eq _

theorem nameKind_ne {strict : Bool} {word : Text} {kind : TokenKind}
    (h : kind.isPropertyName = false) : nameKind strict word ≠ kind := by
  rintro rfl
  rw [isPropertyName_nameKind] at h
  cases h

end Spelling

/-! ## Words and separators -/

namespace Text

/-- A start character with part characters after it. -/
def IsName (word : Text) : Prop :=
  ∃ c cs, word = c :: cs ∧ isNameStart c = true ∧ ∀ d ∈ cs, isNamePart d = true

theorem isName_of_all {word cs : Text} {c : Char} (eq : word = c :: cs)
    (start : isNameStart c = true) (parts : cs.all isNamePart = true) : IsName word :=
  ⟨c, cs, eq, start, List.all_eq_true.1 parts⟩

/-- The text is over, or a space comes next. -/
def Separated (t : Text) : Prop := ∀ c ∈ t.head?, isSpace c = true

/-- All spaces. -/
def spaces : Text :=
  [' ', '\t', '\x0b', '\x0c', '\xa0', '\u1680', '\u202f', '\u205f', '\u3000', '\ufeff', '\n', '\r',
   '\u2028', '\u2029'] ++ (List.range' 0x2000 11).map Char.ofNat

theorem mem_spaces {c : Char} (h : isSpace c = true) : c ∈ spaces := by
  simp only [isSpace, isBlank, isLineBreak, Bool.or_eq_true, Bool.and_eq_true, beq_iff_eq,
    decide_eq_true_eq] at h
  by_cases wide : 0x2000 ≤ c.toNat ∧ c.toNat ≤ 0x200a
  · refine List.mem_append_right _ (List.mem_map.2 ⟨c.toNat, ?_, Char.ofNat_toNat c⟩)
    exact List.mem_range'_1.2 ⟨wide.1, by omega⟩
  · refine List.mem_append_left _ ?_
    simpa only [wide, or_false, or_assoc, List.mem_cons, List.not_mem_nil] using h

/-- No space is part of any other token. -/
theorem notPart_of_isSpace {c : Char} (h : isSpace c = true) :
    c ∉ Spelling.marks ∧ isNamePart c = false ∧ c.isDigit = false := by
  have all : spaces.all (fun c => decide (c ∉ Spelling.marks ∧ isNamePart c = false ∧
      c.isDigit = false)) = true := by
    decide +kernel
  exact of_decide_eq_true (List.all_eq_true.1 all c (mem_spaces h))

/-- A digit starts no name. -/
theorem notNameStart_of_isDigit {c : Char} (h : c.isDigit = true) : isNameStart c = false := by
  have mem : c ∈ (List.range' 48 10).map Char.ofNat := by
    have range := Char.isDigit_iff_toNat.1 h
    exact List.mem_map.2 ⟨c.toNat, List.mem_range'_1.2 ⟨range.1, Nat.lt_succ_of_le range.2⟩,
      Char.ofNat_toNat c⟩
  have all : ((List.range' 48 10).map Char.ofNat).all (fun c => !isNameStart c) = true := by
    decide +kernel
  simpa using List.all_eq_true.1 all c mem

theorem run_append_of_separated {p : Char → Bool} (word : Text) {rest : Text} (hw : ∀ c ∈ word, p c = true)
    (hr : ∀ c ∈ rest.head?, p c = false) : run p (word ++ rest) = (word, rest) := by
  have tail : rest.takeWhile p = [] ∧ rest.dropWhile p = rest := by
    cases rest with
    | nil => simp
    | cons c cs => simp [hr c (by simp)]
  simp [run, List.takeWhile_append_of_pos hw, List.dropWhile_append_of_pos hw, tail]

end Text

/-- A quote, a run of items and the same quote. -/
def Quoted.IsString (raw : Text) : Prop :=
  ∃ quote body, (quote = '\'' ∨ quote = '"') ∧ Items quote body ∧ raw = quote :: (body ++ [quote])

/-- The lexical grammar of one token. -/
inductive Spelled (strict : Bool) : TokenKind → Text → Prop
  | operator {spelling : String} {kind : TokenKind} : (spelling, kind) ∈ Spelling.operators →
    Spelled strict kind spelling.toList
  | name {word : Text} : Text.IsName word → Spelled strict (Spelling.nameKind strict word) word
  | number {digits : Text} : digits ≠ [] → (∀ d ∈ digits, d.isDigit = true) →
    Spelled strict .number digits
  | string {raw : Text} : Quoted.IsString raw → Spelled strict .string raw

/-! ## Kinds with one spelling -/

theorem UpdateOperator.text?_kind (op : UpdateOperator) : op.kind.text? = some op.kind.label := by
  cases op <;> rfl

theorem UnaryOperator.text?_kind (op : UnaryOperator) : op.kind.text? = some op.kind.label := by
  cases op <;> rfl

theorem InfixOperator.text?_kind (op : InfixOperator) : op.kind.text? = some op.kind.label := by
  rcases op with op | op <;> cases op <;> rfl

theorem DeclarationKind.text?_kind (kind : DeclarationKind) :
    kind.kind.text? = some kind.kind.label := by
  cases kind <;> rfl

namespace Spelled

variable {strict : Bool} {kind : TokenKind} {text : Text}

/-- Whatever is read off the front of a text is spelled by the grammar. -/
theorem of_read {c : Char} {cs rest : Text} (h : Front.read strict c cs = .token kind text rest) :
    Spelled strict kind text := by
  unfold Front.read at h
  split at h
  · next found =>
    obtain ⟨rfl, rfl, _⟩ := Front.token.inj h
    exact .operator (List.mem_of_find?_eq_some found)
  split at h
  · next start =>
    obtain ⟨rfl, rfl, _⟩ := Front.token.inj h
    refine .name ⟨c, cs.takeWhile Text.isNamePart, ?_, start, ?_⟩
    · exact List.takeWhile_cons_of_pos (Text.isNamePart_of_isNameStart start)
    · exact fun d mem => List.mem_takeWhile_imp mem
  split at h
  · next digit =>
    obtain ⟨rfl, rfl, _⟩ := Front.token.inj h
    refine .number ?_ fun d mem => List.mem_takeWhile_imp mem
    simp [digit]
  split at h
  · next quote =>
    unfold Front.readString at h
    split at h
    · next closed =>
      obtain ⟨rfl, rfl, _⟩ := Front.token.inj h
      refine .string ⟨c, _, by simpa using quote, .of_read closed, rfl⟩
    all_goals cases h
  · cases h

theorem ne_nil (h : Spelled strict kind text) : text ≠ [] := by
  cases h with
  | operator mem => exact Spelling.ne_nil_of_mem_operators _ mem
  | name word =>
    obtain ⟨c, cs, rfl, _⟩ := word
    simp
  | number nonempty => exact nonempty
  | string raw =>
    obtain ⟨quote, body, _, _, rfl⟩ := raw
    simp

theorem separated_nil : Text.Separated [] := nofun

/-- In front of a space or of the end, what is spelled by the grammar is read back. -/
theorem read_append {c : Char} {cs rest : Text} (h : Spelled strict kind (c :: cs))
    (hr : Text.Separated rest) : Front.read strict c (cs ++ rest) = .token kind (c :: cs) rest := by
  have notPart : ∀ d ∈ rest.head?, Text.isNamePart d = false ∧ d.isDigit = false :=
    fun d mem => (Text.notPart_of_isSpace (hr d mem)).2
  generalize eq : c :: cs = text at h
  cases h with
  | @operator spelling _ mem =>
    have found : Spelling.fitting? (c :: (cs ++ rest)) = some (spelling, kind) := by
      rw [← List.cons_append, eq]
      cases rest with
      | nil => simpa using Spelling.fitting?_spelling _ mem
      | cons d rest =>
        obtain ⟨notMark, _, notDigit⟩ := Text.notPart_of_isSpace (hr d (by simp))
        rw [Spelling.fitting?_append notMark notDigit, Spelling.fitting?_spelling _ mem]
    simp only [Front.read, found]
    rw [← List.cons_append, eq, List.drop_left]
  | name word =>
    obtain ⟨_, _, rfl, start, parts⟩ := word
    obtain ⟨rfl, rfl⟩ := List.cons.inj eq
    have none := Spelling.fitting?_eq_none_of_first (.inl start) (cs ++ rest)
    have run : Text.run Text.isNamePart (c :: (cs ++ rest)) = (c :: cs, rest) := by
      refine Text.run_append_of_separated (c :: cs) ?_ fun d mem => (notPart d mem).1
      exact List.forall_mem_cons.2 ⟨Text.isNamePart_of_isNameStart start, parts⟩
    simp [Front.read, none, start, run]
  | number nonempty digits =>
    subst eq
    have digit : c.isDigit = true := digits c (by simp)
    have none := Spelling.fitting?_eq_none_of_first (.inr (.inl digit)) (cs ++ rest)
    have run : Text.run Char.isDigit (c :: (cs ++ rest)) = (c :: cs, rest) :=
      Text.run_append_of_separated (c :: cs) digits fun d mem => (notPart d mem).2
    simp [Front.read, none, Text.notNameStart_of_isDigit digit, digit, run]
  | string raw =>
    obtain ⟨quote, body, quotes, items, raw⟩ := raw
    obtain ⟨rfl, rfl⟩ := List.cons.inj (eq.trans raw)
    have none := Spelling.fitting?_eq_none_of_first (.inr (.inr quotes)) (body ++ [c] ++ rest)
    have closed : Quoted.read c (body ++ [c] ++ rest) = .closed body rest := by
      rw [List.append_assoc]
      refine items.read_append ?_ ?_ rest <;> rcases quotes with rfl | rfl <;> decide
    have start : Text.isNameStart c = false ∧ c.isDigit = false := by
      rcases quotes with rfl | rfl <;> decide
    simp only [Front.read, none, start, Bool.false_eq_true, if_false, Front.readString, closed]
    rcases quotes with rfl | rfl <;> simp [raw]

/-- A text has one kind at most. -/
theorem unique {kind' : TokenKind} (h : Spelled strict kind text) (h' : Spelled strict kind' text) :
    kind = kind' := by
  cases text with
  | nil => exact absurd rfl h.ne_nil
  | cons c cs =>
    have := (h.read_append separated_nil).symm.trans (h'.read_append separated_nil)
    exact (Front.token.inj this).1

theorem punctuator (p : Punctuator) : Spelled strict (.punctuator p) p.text.toList :=
  .operator (Spelling.mem_operators _ (TokenKind.isKeyword_eq _) _ rfl)

theorem assignment (op : AssignmentOperator) : Spelled strict (.assignment op) op.text.toList :=
  .operator (Spelling.mem_operators _ (TokenKind.isKeyword_eq _) _ rfl)

/-- A reserved word, where it is reserved. -/
theorem keyword {k : Keyword} (h : (strict || !k.isStrictOnly) = true) :
    Spelled strict (.keyword k) k.text.toList := by
  have found : Spelling.keyword? strict k.text.toList = some k :=
    Spelling.keyword?_eq_some_iff.2 ⟨⟨_, Spelling.mem_keywords k, rfl, rfl⟩, h⟩
  have kind : Spelling.nameKind strict k.text.toList = .keyword k := by
    rw [Spelling.nameKind, found]
  have word : Text.IsName k.text.toList := by
    clear h found kind
    cases k <;> exact Text.isName_of_all rfl (by decide) (by decide)
  exact kind ▸ .name word

/-- A kind with one spelling is spelled so, if it is reserved at all. -/
theorem fixed {spelling : String} (h : kind.text? = some spelling)
    (reserved : (strict || !kind.isStrictOnly) = true) :
    Spelled strict kind kind.label.toList := by
  cases kind with
  | identifier | number | string => cases h
  | punctuator p => exact .punctuator p
  | assignment op => exact .assignment op
  | keyword k => exact .keyword reserved

/-- The text of a kind with one spelling has no other kind. -/
theorem kind_eq {kind' : TokenKind} {spelling : String} (h : Spelled strict kind' text)
    (fixed : kind.text? = some spelling) (reserved : (strict || !kind.isStrictOnly) = true)
    (same : text = kind.label.toList) : kind' = kind :=
  h.unique (same ▸ .fixed fixed reserved)

/-- A kind with one spelling has no other. -/
theorem eq_text (h : Spelled strict kind text) {spelling : String}
    (fixed : kind.text? = some spelling) : text = spelling.toList := by
  cases h with
  | operator mem =>
    have same := (Spelling.text?_of_mem_operators _ mem).symm.trans fixed
    exact congrArg String.toList (Option.some.inj same)
  | @name word =>
    unfold Spelling.nameKind at fixed
    split at fixed
    · next k found =>
      obtain ⟨⟨row, mem, whole, rfl⟩, _⟩ := Spelling.keyword?_eq_some_iff.1 found
      have same := (Spelling.text?_of_mem_keywords row mem).symm.trans fixed
      rw [← whole, Option.some.inj same]
    · cases fixed
  | number | string => cases fixed

end Spelled

end EcmaFront
