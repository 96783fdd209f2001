import EcmaFront.Proofs.Machine.Scanner
import EcmaFront.Proofs.Token.Gap
import EcmaFront.Proofs.Token.Spelled

/-!
# What is found among the bytes

Each search among the bytes of a text finds what the reader of the same piece finds among its
characters. What is searched for is ASCII, except for two line breaks, so it is met at characters
only; behind a backslash the scanner may stand inside a character, whose further bytes it then passes
one by one.

* `Bytes.fitting?_bytes`: operators.
* `Bytes.length_takeWhile_isDigit`: runs of digits.
* `Bytes.untilLineBreak_bytes`, `Bytes.untilClose?_bytes`: comments.
* `Bytes.walk_bytes`: strings.
-/

namespace EcmaFront.Bytes

open Text

/-! ## Operators and digits -/

theorem isDigit_toUInt8 {c : Char} (ascii : c.toNat < 128) : isDigit c.toUInt8 = c.isDigit := by
  have same := (encode_ascii ascii).2
  simp only [isDigit, Char.isDigit, UInt8.le_iff_toNat_le, UInt32.le_iff_toNat_le, same, ge_iff_le]
  rfl

theorem isDigit_of_wide {b : UInt8} (wide : 128 ≤ b.toNat) : isDigit b = false := by
  have : ¬ b ≤ '9'.toUInt8 := by
    rw [UInt8.le_iff_toNat_le]
    have : '9'.toUInt8.toNat = 57 := rfl
    omega
  simp [isDigit, this]

theorem isDigit_eq_false {c : Char} (wide : 128 ≤ c.toNat) : c.isDigit = false := by
  have : ¬ c.val ≤ 57 := by
    rw [UInt32.le_iff_toNat_le]
    have : (57 : UInt32).toNat = 57 := rfl
    have : c.val.toNat = c.toNat := rfl
    omega
  simp [Char.isDigit, this]

/-- A digit is a byte of its own, and no other character starts with such a byte. -/
theorem isDigit_bytes_cons (c : Char) (t : Text) :
    (c.isDigit = false ∧ ∃ b bs, bytes (c :: t) = b :: bs ∧ isDigit b = false) ∨
      (c.isDigit = true ∧ c.toNat < 128 ∧ bytes (c :: t) = c.toUInt8 :: bytes t ∧
        isDigit c.toUInt8 = true) := by
  by_cases ascii : c.toNat < 128
  · have same := isDigit_toUInt8 ascii
    cases digit : c.isDigit with
    | false => exact .inl ⟨rfl, _, _, bytes_ascii ascii t, same.trans digit⟩
    | true => exact .inr ⟨rfl, ascii, bytes_ascii ascii t, same.trans digit⟩
  · have wide := Nat.le_of_not_lt ascii
    obtain ⟨b, bs, eq, first, _⟩ := encode_wide wide
    refine .inl ⟨isDigit_eq_false wide, b, bs ++ bytes t, ?_, isDigit_of_wide first⟩
    rw [bytes_cons, eq, List.cons_append]

theorem length_takeWhile_isDigit (t : Text) :
    (t.bytes.takeWhile isDigit).length = size (t.takeWhile Char.isDigit) := by
  induction t with
  | nil => rfl
  | cons c t ih =>
    rcases isDigit_bytes_cons c t with ⟨other, b, bs, eq, notDigit⟩ | ⟨digit, ascii, eq, digit'⟩
    · rw [eq, List.takeWhile_cons, List.takeWhile_cons, other, notDigit]
      rfl
    · rw [eq, List.takeWhile_cons, List.takeWhile_cons, digit, digit', if_pos rfl, if_pos rfl,
        List.length_cons, ih, size_cons, utf8Size_ascii ascii, Nat.add_comm]

theorem ascii_spelling {row : String × TokenKind} (mem : row ∈ Spelling.operators) :
    ∀ c ∈ row.1.toList, c.toNat < 128 := by
  have all : (Spelling.operators.all fun row =>
      row.1.toList.all fun c => decide (c.toNat < 128)) = true := by decide +kernel
  intro c inside
  simpa using List.all_eq_true.1 (List.all_eq_true.1 all row mem) c inside

theorem startsWith_bytes {s t : Text} (ascii : ∀ c ∈ s, c.toNat < 128) :
    startsWith s t.bytes = s.isPrefixOf t := by
  rw [startsWith, Bool.eq_iff_iff, List.isPrefixOf_iff_prefix, List.isPrefixOf_iff_prefix,
    bytes_prefix_iff ascii]

theorem head?_isDigit (t : Text) : t.bytes.head?.any isDigit = Spelling.startsWithDigit t := by
  cases t with
  | nil => rfl
  | cons c t =>
    rw [Spelling.startsWithDigit]
    rcases isDigit_bytes_cons c t with ⟨other, b, bs, eq, notDigit⟩ | ⟨digit, _, eq, digit'⟩
    · rw [eq, List.head?_cons, Option.any_some, other, notDigit]
    · rw [eq, List.head?_cons, Option.any_some, digit, digit']

theorem fits_bytes {row : String × TokenKind} (mem : row ∈ Spelling.operators) (t : Text) :
    fits row t.bytes = Spelling.fits row t := by
  have front := startsWith_bytes (t := t) (ascii_spelling mem)
  rw [startsWith] at front
  unfold fits Spelling.fits
  rw [front]
  by_cases optional : row.2 = .punctuator .optionalDot
  · rw [Spelling.eq_of_optionalDot mem optional]
    cases found : ['?', '.'].isPrefixOf t with
    | false => simp only [Bool.false_and]
    | true =>
      obtain ⟨rest, rfl⟩ := List.isPrefixOf_iff_prefix.1 found
      have third : (bytes (['?', '.'] ++ rest))[2]? = (bytes rest).head? := by
        rw [bytes_append, List.head?_eq_getElem?]
        rfl
      rw [third, head?_isDigit]
      rfl
  · have other : (row.2 == .punctuator .optionalDot) = false := beq_eq_false_iff_ne.2 optional
    simp only [other, Bool.false_and]

theorem fitting?_bytes (t : Text) : fitting? t.bytes = Spelling.fitting? t :=
  List.find?_congr fun _ mem => fits_bytes mem t

/-! ## Comments -/

theorem ofNat_beq {n m : Nat} (small : m < 256) :
    (UInt8.ofNat n == UInt8.ofNat m) = decide (n % 256 = m) := by
  rw [Bool.eq_iff_iff, beq_iff_eq, decide_eq_true_iff, ← UInt8.toNat_inj, UInt8.toNat_ofNat',
    UInt8.toNat_ofNat']
  omega

theorem toUInt8_beq {c d : Char} (hc : c.toNat < 128) (hd : d.toNat < 128) :
    (c.toUInt8 == d.toUInt8) = (c == d) := by
  rw [Bool.eq_iff_iff, beq_iff_eq, beq_iff_eq]
  exact ⟨toUInt8_inj hc hd, congrArg _⟩

theorem beq_of_wide {c d : Char} (wide : 128 ≤ c.toNat) (ascii : d.toNat < 128) {b : UInt8}
    (mem : b ∈ String.utf8EncodeChar c) : (b == d.toUInt8) = false :=
  beq_eq_false_iff_ne.2 (ne_of_mem_encode wide ascii mem)

theorem isLineBreak_of_ascii {c : Char} (ascii : c.toNat < 128) :
    isLineBreak c = (c == '\n' || c == '\r') := by
  have ne {d : Char} (wide : 128 ≤ d.toNat) : (c == d) = false :=
    beq_eq_false_iff_ne.2 (ne_of_wide wide ascii).symm
  rw [isLineBreak, ne (d := '\u2028') (by decide), ne (d := '\u2029') (by decide), Bool.or_false,
    Bool.or_false]

theorem isLineBreak_of_wide {c : Char} (wide : 128 ≤ c.toNat) :
    isLineBreak c = decide (c.val.toNat = 0x2028 ∨ c.val.toNat = 0x2029) := by
  have ne {d : Char} (ascii : d.toNat < 128) : (c == d) = false :=
    beq_eq_false_iff_ne.2 (ne_of_wide wide ascii)
  have eq (d : Char) : (c == d) = decide (c.val.toNat = d.toNat) := by
    rw [Bool.eq_iff_iff, beq_iff_eq, decide_eq_true_iff, ← Char.toNat_inj]
    rfl
  rw [isLineBreak, ne (d := '\n') (by decide), ne (d := '\r') (by decide), eq '\u2028', eq '\u2029',
    Bool.or_false, Bool.false_or, ← Bool.decide_or]
  rfl

theorem startsLineBreak_of_wide {b : UInt8} (wide : 128 ≤ b.toNat) (bs : List UInt8) :
    startsLineBreak (b :: bs) =
      (b == 0xe2 && (bs.take 2 == [0x80, 0xa8] || bs.take 2 == [0x80, 0xa9])) := by
  have ne {c : Char} (ascii : c.toNat < 128) : (b == c.toUInt8) = false := by
    refine beq_eq_false_iff_ne.2 ?_
    rintro rfl
    rw [(encode_ascii ascii).2] at wide
    omega
  rw [startsLineBreak, ne (by decide), ne (by decide), Bool.false_or, Bool.false_or]

/-- A line break that is not ASCII is told by its three bytes. -/
theorem startsLineBreak_encode_of_wide {c : Char} (wide : 128 ≤ c.toNat) (rest : List UInt8) :
    startsLineBreak (String.utf8EncodeChar c ++ rest) =
      decide (c.val.toNat = 0x2028 ∨ c.val.toNat = 0x2029) := by
  have notSmall : ¬ c.val.toNat ≤ 127 := Nat.not_le_of_lt wide
  have noLead {n : Nat} (bs : List UInt8) (far : 128 ≤ n % 256 ∧ n % 256 ≠ 0xe2) :
      startsLineBreak (UInt8.ofNat n :: bs) = false := by
    have lead : (UInt8.ofNat n == UInt8.ofNat 0xe2) = false := by
      rw [ofNat_beq (by omega), decide_eq_false_iff_not]
      exact far.2
    rw [startsLineBreak_of_wide (by rw [UInt8.toNat_ofNat']; exact far.1)]
    exact (congrArg (· && _) lead).trans (Bool.false_and _)
  simp only [String.utf8EncodeChar, notSmall, if_false]
  split
  · rw [List.cons_append, noLead _ (by omega), eq_comm, decide_eq_false_iff_not]
    omega
  split
  · generalize c.val.toNat = n at *
    have two (x y z w : Nat) (hz : z < 256) (hw : w < 256) :
        ([UInt8.ofNat x, UInt8.ofNat y] == [UInt8.ofNat z, UInt8.ofNat w]) =
          (decide (x % 256 = z) && decide (y % 256 = w)) := by
      rw [← ofNat_beq hz, ← ofNat_beq hw, List.cons_beq_cons, List.cons_beq_cons]
      exact congrArg (_ && ·) (Bool.and_true _)
    rw [List.cons_append, startsLineBreak_of_wide (by rw [UInt8.toNat_ofNat']; omega)]
    change ((UInt8.ofNat _ == UInt8.ofNat 0xe2) &&
      ([UInt8.ofNat _, UInt8.ofNat _] == [UInt8.ofNat 0x80, UInt8.ofNat 0xa8] ||
        [UInt8.ofNat _, UInt8.ofNat _] == [UInt8.ofNat 0x80, UInt8.ofNat 0xa9])) = _
    rw [ofNat_beq (by omega), two _ _ _ _ (by omega) (by omega), two _ _ _ _ (by omega) (by omega),
      Bool.eq_iff_iff]
    simp only [Bool.and_eq_true, Bool.or_eq_true, decide_eq_true_eq]
    omega
  · rw [List.cons_append, noLead _ (by omega), eq_comm, decide_eq_false_iff_not]
    omega

theorem startsLineBreak_encode (c : Char) (rest : List UInt8) :
    startsLineBreak (String.utf8EncodeChar c ++ rest) = isLineBreak c := by
  by_cases ascii : c.toNat < 128
  · have ⟨encode, same⟩ := encode_ascii ascii
    have lead : (c.toUInt8 == 0xe2) = false := by
      refine beq_eq_false_iff_ne.2 fun eq => ?_
      have : (0xe2 : UInt8).toNat = 226 := rfl
      rw [eq] at same
      omega
    rw [encode, List.singleton_append, startsLineBreak, lead, Bool.false_and, Bool.or_false,
      toUInt8_beq ascii (by decide), toUInt8_beq ascii (by decide), isLineBreak_of_ascii ascii]
  · have wide := Nat.le_of_not_lt ascii
    rw [startsLineBreak_encode_of_wide wide, isLineBreak_of_wide wide]

theorem startsLineBreak_further {b : UInt8} (h : 128 ≤ b.toNat ∧ b.toNat < 192)
    (bs : List UInt8) : startsLineBreak (b :: bs) = false := by
  have lead : (b == 0xe2) = false := by
    refine beq_eq_false_iff_ne.2 ?_
    rintro rfl
    exact absurd h.2 (by decide)
  rw [startsLineBreak_of_wide h.1, lead, Bool.false_and]

/-- The further bytes of a character are passed over. -/
theorem untilLineBreak_further {bs : List UInt8} (h : ∀ b ∈ bs, 128 ≤ b.toNat ∧ b.toNat < 192)
    (rest : List UInt8) : untilLineBreak (bs ++ rest) = bs.length + untilLineBreak rest := by
  induction bs with
  | nil => simp
  | cons b bs ih =>
    have ⟨first, later⟩ := List.forall_mem_cons.1 h
    rw [List.cons_append, untilLineBreak, startsLineBreak_further first, ih later, List.length_cons]
    simp only [Bool.false_eq_true, if_false]
    omega

theorem encode_eq_cons (c : Char) : ∃ b bs, String.utf8EncodeChar c = b :: bs ∧
    ∀ b ∈ bs, 128 ≤ b.toNat ∧ b.toNat < 192 := by
  by_cases ascii : c.toNat < 128
  · exact ⟨_, [], (encode_ascii ascii).1, nofun⟩
  · obtain ⟨b, bs, eq, _, further⟩ := encode_wide (Nat.le_of_not_lt ascii)
    exact ⟨b, bs, eq, further⟩

theorem untilLineBreak_bytes (t : Text) :
    untilLineBreak t.bytes = size (t.takeWhile fun c => !isLineBreak c) := by
  induction t with
  | nil => rfl
  | cons c t ih =>
    have here := startsLineBreak_encode c (bytes t)
    have wide := String.length_utf8EncodeChar c
    obtain ⟨b, bs, eq, further⟩ := encode_eq_cons c
    rw [eq] at here wide
    rw [bytes_cons, eq, List.cons_append, untilLineBreak, ← List.cons_append, here,
      List.takeWhile_cons, untilLineBreak_further further, ih]
    rw [List.length_cons] at wide
    cases isLineBreak c with
    | true => rfl
    | false =>
      simp only [Bool.not_false, if_true, Bool.false_eq_true, if_false, size_cons]
      omega

theorem toUInt8_eq_iff {c d : Char} (hc : c.toNat < 128) (hd : d.toNat < 128) :
    c.toUInt8 = d.toUInt8 ↔ c = d := ⟨toUInt8_inj hc hd, congrArg _⟩

theorem head?_bytes {d : Char} (ascii : d.toNat < 128) (t : Text) :
    (t.bytes.head? == some d.toUInt8) = (t.head? == some d) := by
  cases t with
  | nil => rfl
  | cons c t =>
    by_cases narrow : c.toNat < 128
    · rw [bytes_ascii narrow, List.head?_cons, List.head?_cons]
      exact toUInt8_beq narrow ascii
    · have wide := Nat.le_of_not_lt narrow
      obtain ⟨b, bs, eq, _⟩ := encode_wide wide
      have other : (c == d) = false := beq_eq_false_iff_ne.2 (ne_of_wide wide ascii)
      rw [bytes_cons, eq, List.cons_append, List.head?_cons, List.head?_cons]
      exact (beq_of_wide wide ascii (eq ▸ List.mem_cons_self)).trans other.symm

theorem count_bytes {d : Char} (ascii : d.toNat < 128) (t : Text) :
    t.bytes.count d.toUInt8 = t.count d := by
  induction t with
  | nil => rfl
  | cons c t ih =>
    rw [bytes_cons, List.count_append, ih, List.count_cons]
    by_cases narrow : c.toNat < 128
    · rw [(encode_ascii narrow).1, List.count_singleton, toUInt8_beq narrow ascii]
      omega
    · have wide := Nat.le_of_not_lt narrow
      have none : (String.utf8EncodeChar c).count d.toUInt8 = 0 :=
        List.count_eq_zero.2 fun mem => ne_of_mem_encode wide ascii mem rfl
      have other : (c == d) = false := beq_eq_false_iff_ne.2 (ne_of_wide wide ascii)
      rw [none, other]
      simp

theorem startsLineComment_bytes (t : Text) :
    startsWith ['/', '/'] t.bytes = Trivia.startsLineComment t := by
  rw [startsWith_bytes (by simp), Bool.eq_iff_iff, List.isPrefixOf_iff_prefix]
  constructor
  · rintro ⟨rest, rfl⟩
    rfl
  · intro starts
    obtain ⟨rest, rfl⟩ := Trivia.eq_of_startsLineComment starts
    exact ⟨rest, rfl⟩

theorem startsBlockComment_bytes (t : Text) :
    startsWith ['/', '*'] t.bytes = Trivia.startsBlockComment t := by
  rw [startsWith_bytes (by simp), Bool.eq_iff_iff, List.isPrefixOf_iff_prefix]
  constructor
  · rintro ⟨rest, rfl⟩
    rfl
  · intro starts
    obtain ⟨rest, rfl⟩ := Trivia.eq_of_startsBlockComment starts
    exact ⟨rest, rfl⟩

theorem untilClose?_of_ne {bs : List UInt8} (h : ∀ b ∈ bs, b ≠ '*'.toUInt8) (rest : List UInt8) :
    untilClose? (bs ++ rest) = (untilClose? rest).map (· + bs.length) := by
  induction bs with
  | nil => simp
  | cons b bs ih =>
    have ⟨first, later⟩ := List.forall_mem_cons.1 h
    rw [List.cons_append, untilClose?, ih later]
    simp [first, Function.comp_def, Nat.add_assoc]

/-- A comment that is never closed goes up to the end. -/
theorem untilClose?_bytes (t : Text) :
    (untilClose? t.bytes).elim (size t) (· + 2) = size (Trivia.throughClose t).1 := by
  induction t with
  | nil => rfl
  | cons c t ih =>
    have longer : ((untilClose? (bytes t)).map (· + c.utf8Size)).elim (c.utf8Size + size t) (· + 2) =
        c.utf8Size + size (Trivia.throughClose t).1 := by
      rw [← ih]
      generalize untilClose? (bytes t) = close
      cases close with
      | none => rfl
      | some i => exact (Nat.add_right_comm ..).trans (Nat.add_comm ..)
    rw [bytes_cons, Trivia.throughClose, ← head?_bytes (by decide) t, size_cons]
    by_cases ascii : c.toNat < 128
    · rw [(encode_ascii ascii).1, List.singleton_append, untilClose?]
      simp only [toUInt8_eq_iff ascii (d := '*') (by decide)]
      rw [utf8Size_ascii ascii] at longer ⊢
      split
      · next closes =>
        rw [Bool.and_eq_true, decide_eq_true_iff] at closes
        rw [closes.1]
        rfl
      · rw [longer, size_cons, utf8Size_ascii ascii]
    · have wide := Nat.le_of_not_lt ascii
      have notStar : c ≠ '*' := ne_of_wide wide (by decide)
      rw [untilClose?_of_ne (fun b mem => ne_of_mem_encode wide (by decide) mem),
        String.length_utf8EncodeChar, longer]
      simp [notStar]

theorem size_blockComment (t : Text) :
    size (Trivia.blockComment ('/' :: '*' :: t)).1 =
      (untilClose? t.bytes).elim (bytes ('/' :: '*' :: t)).length (· + 4) := by
  have opening : size (Trivia.blockComment ('/' :: '*' :: t)).1 =
      1 + (1 + size (Trivia.throughClose t).1) := by
    rw [Trivia.blockComment, size_cons, size_cons, utf8Size_ascii (by decide),
      utf8Size_ascii (by decide)]
  rw [opening, ← untilClose?_bytes]
  cases untilClose? (bytes t) with
  | none =>
    simp only [Option.elim_none, length_bytes, size_cons, utf8Size_ascii (c := '/') (by decide),
      utf8Size_ascii (c := '*') (by decide)]
  | some i =>
    simp only [Option.elim_some]
    omega

/-! ## Strings -/

/-- Where the items of a quoted string end, for a body that starts at the position. -/
def Ending.ofQuoted (position lines : Nat) : Quoted.Ending → Ending
  | .closed body _ => .closed (position + size body + 1) (lines + body.count '\n')
  | .unterminated => .unterminated
  | .exhausted before => .exhausted (position + size before) (lines + before.count '\n')

theorem Ending.ofQuoted_cons (position lines : Nat) (item : Text) (e : Quoted.Ending) :
    ofQuoted position lines (e.cons item) =
      ofQuoted (position + size item) (lines + item.count '\n') e := by
  cases e <;> simp [Quoted.Ending.cons, ofQuoted, Nat.add_assoc]

section Walk

variable {quote : Char} (hq : quote.toNat < 128)

include hq

/-- The bytes of a character that is not ASCII are passed one by one, wherever the walk meets
them. -/
theorem walk_of_wide {bs : List UInt8} (h : ∀ b ∈ bs, 128 ≤ b.toNat) (position lines : Nat)
    (rest : List UInt8) :
    walk quote.toUInt8 position lines (bs ++ rest) =
      walk quote.toUInt8 (position + bs.length) lines rest := by
  have ne {b : UInt8} (wide : 128 ≤ b.toNat) {d : Char} (ascii : d.toNat < 128) :
      b ≠ d.toUInt8 := by
    rintro rfl
    rw [(encode_ascii ascii).2] at wide
    omega
  induction bs generalizing position with
  | nil => rfl
  | cons b bs ih =>
    have ⟨first, later⟩ := List.forall_mem_cons.1 h
    have notNull : b ≠ 0 := ne first (d := '\x00') (by decide)
    rw [List.cons_append, walk.eq_def]
    simp only [ne first hq, ne first (d := '\\') (by decide), ne first (d := '\n') (by decide),
      ne first (d := '\r') (by decide), notNull, if_false, decide_false, Bool.or_self,
      Bool.false_eq_true]
    rw [ih later, List.length_cons, Nat.add_assoc, Nat.add_comm 1]

theorem walk_escape (notQuote : '\\' ≠ quote) (position lines : Nat) (b : UInt8)
    (bs : List UInt8) :
    walk quote.toUInt8 position lines ('\\'.toUInt8 :: b :: bs) =
      if b = '\r'.toUInt8 && bs.head? == some '\n'.toUInt8 then
        walk quote.toUInt8 (position + 3) (lines + 1) bs.tail
      else if b = '\n'.toUInt8 then walk quote.toUInt8 (position + 2) (lines + 1) bs
      else if b = 0 then .exhausted (position + 1) lines
      else walk quote.toUInt8 (position + 2) lines bs := by
  rw [walk.eq_def]
  simp only [toUInt8_eq_iff (c := '\\') (by decide) hq, notQuote, if_false, if_true]

theorem walk_plain {c : Char} (ascii : c.toNat < 128) (notQuote : c ≠ quote) (notEscape : c ≠ '\\')
    (position lines : Nat) (bs : List UInt8) :
    walk quote.toUInt8 position lines (c.toUInt8 :: bs) =
      if c = '\n' || c = '\r' then .unterminated
      else if c = '\x00' then .exhausted position lines
      else walk quote.toUInt8 (position + 1) lines bs := by
  have null : c.toUInt8 = 0 ↔ c = '\x00' := toUInt8_eq_iff ascii (d := '\x00') (by decide)
  rw [walk.eq_def]
  simp only [toUInt8_eq_iff ascii hq, toUInt8_eq_iff ascii (d := '\\') (by decide),
    toUInt8_eq_iff ascii (d := '\n') (by decide), toUInt8_eq_iff ascii (d := '\r') (by decide),
    null, notQuote, notEscape, if_false]

/-- A plain character is passed. -/
theorem walk_plain_char {c : Char} (notQuote : c ≠ quote) (notEscape : c ≠ '\\')
    (notBreak : ¬ (decide (c = '\n') || decide (c = '\r')) = true) (notNull : c ≠ '\x00')
    (position lines : Nat) (t : Text) :
    walk quote.toUInt8 position lines (bytes (c :: t)) =
      walk quote.toUInt8 (position + c.utf8Size) lines t.bytes := by
  by_cases ascii : c.toNat < 128
  · rw [bytes_ascii ascii, walk_plain hq ascii notQuote notEscape, if_neg notBreak,
      if_neg notNull, utf8Size_ascii ascii]
  · have wide := Nat.le_of_not_lt ascii
    rw [bytes_cons, walk_of_wide hq fun b mem => wide_of_mem_encode wide mem,
      String.length_utf8EncodeChar]

/-- The character behind a backslash is passed, if it is neither null nor the first half of a line
break. -/
theorem walk_escape_char (notQuote : '\\' ≠ quote) {d : Char} {t : Text}
    (notBreak : ¬ (d = '\r' ∧ t.head? = some '\n')) (notNull : d ≠ '\x00')
    (position lines : Nat) :
    walk quote.toUInt8 position lines (bytes ('\\' :: d :: t)) =
      walk quote.toUInt8 (position + size ['\\', d]) (lines + ['\\', d].count '\n') t.bytes := by
  have size_eq : size ['\\', d] = 1 + d.utf8Size := by
    rw [size_cons, size_cons, size_nil, utf8Size_ascii (by decide), Nat.add_zero]
  rw [bytes_ascii (by decide), size_eq]
  by_cases ascii : d.toNat < 128
  · have noPair : (decide (d = '\r') && (bytes t).head? == some '\n'.toUInt8) = false := by
      rw [head?_bytes (by decide), Bool.eq_false_iff]
      simpa using notBreak
    have null : d.toUInt8 = 0 ↔ d = '\x00' := toUInt8_eq_iff ascii (d := '\x00') (by decide)
    rw [bytes_ascii ascii, walk_escape hq notQuote, utf8Size_ascii ascii]
    simp only [toUInt8_eq_iff ascii (d := '\r') (by decide),
      toUInt8_eq_iff ascii (d := '\n') (by decide), null, noPair, notNull, if_false,
      Bool.false_eq_true]
    by_cases feed : d = '\n'
    · subst feed
      rfl
    · have none : ['\\', d].count '\n' = 0 := by simp [feed]
      rw [if_neg feed, none]
      rfl
  · have wide := Nat.le_of_not_lt ascii
    obtain ⟨b, bs, eq, first, further⟩ := encode_wide wide
    have ne {a : Char} (narrow : a.toNat < 128) : b ≠ a.toUInt8 :=
      ne_of_mem_encode wide narrow (eq ▸ List.mem_cons_self)
    have byteNotNull : b ≠ 0 := ne (a := '\x00') (by decide)
    have length := String.length_utf8EncodeChar d
    have none : ['\\', d].count '\n' = 0 := by
      have notFeed : d ≠ '\n' := ne_of_wide wide (by decide)
      simp [notFeed]
    rw [eq, List.length_cons] at length
    rw [bytes_cons, eq, List.cons_append, walk_escape hq notQuote]
    simp only [ne (a := '\r') (by decide), ne (a := '\n') (by decide), byteNotNull, decide_false,
      Bool.false_and, Bool.false_eq_true, if_false]
    rw [walk_of_wide hq (fun b mem => (further b mem).1), none, ← length, Nat.add_assoc,
      Nat.add_comm bs.length, ← Nat.add_assoc 1]
    rfl

/-- The walk over the bytes ends where reading the characters does. -/
theorem walk_bytes (t : Text) (position lines : Nat) :
    walk quote.toUInt8 position lines t.bytes = .ofQuoted position lines (Quoted.read quote t) := by
  fun_induction Quoted.read quote t generalizing position lines with
  | case1 => rw [bytes_nil, walk.eq_def]; rfl
  | case2 cs =>
    rw [bytes_ascii hq, walk.eq_def]
    simp [Ending.ofQuoted]
  | case3 notQuote =>
    rw [bytes_ascii (by decide), walk.eq_def]
    simp only [toUInt8_eq_iff (c := '\\') (by decide) hq, notQuote, if_false, if_true]
    rfl
  | case4 cs notQuote ih =>
    rw [bytes_ascii (by decide), bytes_ascii (by decide), bytes_ascii (by decide),
      walk_escape hq notQuote, Ending.ofQuoted_cons, ← ih]
    rfl
  | case5 cs notQuote _ =>
    rw [bytes_ascii (by decide), bytes_ascii (by decide), walk_escape hq notQuote]
    rfl
  | case6 d cs notBreak notNull notQuote ih =>
    have notBreak : ¬ (d = '\r' ∧ cs.head? = some '\n') := by
      rintro ⟨rfl, head⟩
      obtain ⟨ds, rfl⟩ := List.head?_eq_some_iff.1 head
      exact notBreak ds rfl rfl
    rw [walk_escape_char hq notQuote notBreak notNull, Ending.ofQuoted_cons, ← ih]
  | case7 c cs notQuote notEscape breaks =>
    have ascii : c.toNat < 128 := by
      obtain rfl | rfl : c = '\n' ∨ c = '\r' := by simpa using breaks
      all_goals decide
    rw [bytes_ascii ascii, walk_plain hq ascii notQuote notEscape, if_pos breaks]
    rfl
  | case8 cs notQuote notEscape notBreak =>
    rw [bytes_ascii (by decide), walk_plain hq (by decide) notQuote notEscape]
    rfl
  | case9 c cs notQuote notEscape notBreak notNull ih =>
    have none : [c].count '\n' = 0 := by
      have notFeed : c ≠ '\n' := by
        rintro rfl
        exact notBreak rfl
      simp [notFeed]
    rw [walk_plain_char hq notQuote notEscape notBreak notNull, Ending.ofQuoted_cons, ← ih, none,
      size_cons, size_nil]
    rfl

end Walk

end EcmaFront.Bytes
