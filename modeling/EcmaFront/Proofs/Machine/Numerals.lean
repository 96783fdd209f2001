import EcmaFront.Proofs.Machine.Pieces
import EcmaFront.Proofs.Token.Strictness
import EcmaFront.Tree.Numeral
import Mathlib.Data.FinEnum
import Mathlib.Data.Nat.Digits.Defs
import Mathlib.Tactic.Ring

/-!
# The value of a numeral

The value of a numeral is read byte by byte into a word of 64 bits, with a product and a sum that are
checked. A digit more never makes the value smaller, so one of them fails only if the whole number is
too large for a word, however many zeros it starts with.

* `Numeral.foldlM_nextValue?`: a run of bytes gives the number that its digits write, if it fits.
* `Numeral.valueAfter?_eq`: characters give the same.
* `Numeral.decode_eq`: when a numeral has a value, and that a number of a source fails only by size.
-/

namespace EcmaFront.Numeral

/-- The number that decimal digits write, the most significant one first. -/
def decimal (bytes : List UInt8) : Nat :=
  Nat.ofDigits 10 (bytes.map fun b => b.toNat - '0'.toNat).reverse

theorem decimal_cons (b : UInt8) (bytes : List UInt8) :
    decimal (b :: bytes) = decimal bytes + 10 ^ bytes.length * (b.toNat - '0'.toNat) := by
  rw [decimal, List.map_cons, Nat.ofDigits_reverse_cons, List.length_map]
  rfl

/-! ## Words -/

/-- The word of a number, if one holds it. -/
def ofNat? (n : Nat) : Option UInt64 := if n < 2 ^ 64 then some (.ofNat n) else none

def checkedMul (a b : UInt64) : Option UInt64 := ofNat? (a.toNat * b.toNat)

def checkedAdd (a b : UInt64) : Option UInt64 := ofNat? (a.toNat + b.toNat)

/-- The value with the digit behind it, unless the byte is no digit. -/
def nextValue? (value : UInt64) (b : UInt8) : Option UInt64 :=
  if Bytes.isDigit b then do
    let shifted ← checkedMul value 10
    checkedAdd shifted (b - '0'.toUInt8).toUInt64
  else
    none

/-- The value of a numeral, as a word. -/
def word? (bytes : List UInt8) : Option UInt64 :=
  if bytes.isEmpty then none else bytes.foldlM nextValue? 0

variable {v w : UInt64} {n : Nat} {byte : UInt8} {bytes : List UInt8}

theorem exists_toNat_eq (fits : n < 2 ^ 64) : ∃ w : UInt64, w.toNat = n :=
  ⟨.ofNat n, UInt64.toNat_ofNat_of_lt' fits⟩

theorem ofNat?_eq_some : ofNat? n = some w ↔ w.toNat = n := by
  unfold ofNat?
  split
  · next fits =>
    rw [Option.some.injEq, ← UInt64.toNat_inj, UInt64.toNat_ofNat_of_lt' fits]
    exact eq_comm
  · next large =>
    refine iff_of_false (by simp) fun eq => large ?_
    rw [← eq]
    exact w.toNat_lt

theorem toNat_digit (digit : Bytes.isDigit byte = true) :
    (byte - '0'.toUInt8).toUInt64.toNat = byte.toNat - '0'.toNat := by
  have range : '0'.toUInt8 ≤ byte := by
    simp only [Bytes.isDigit, Bool.and_eq_true, decide_eq_true_eq] at digit
    exact digit.1
  rw [UInt8.toNat_toUInt64, UInt8.toNat_sub_of_le _ _ range]
  rfl

theorem nextValue?_eq_some : nextValue? v byte = some w ↔
    Bytes.isDigit byte = true ∧ w.toNat = v.toNat * 10 + (byte.toNat - '0'.toNat) := by
  unfold nextValue?
  split
  · next digit =>
    simp only [Option.bind_eq_bind, Option.bind_eq_some_iff, checkedMul, checkedAdd,
      ofNat?_eq_some, toNat_digit digit]
    have ten : (10 : UInt64).toNat = 10 := rfl
    rw [ten]
    constructor
    · rintro ⟨shifted, product, sum⟩
      exact ⟨digit, by rw [sum, product]⟩
    · rintro ⟨_, sum⟩
      have fits : v.toNat * 10 < 2 ^ 64 := by
        have := w.toNat_lt
        omega
      obtain ⟨shifted, product⟩ := exists_toNat_eq fits
      exact ⟨shifted, product, by rw [sum, product]⟩
  · next other => exact iff_of_false (by simp) fun h => other h.1

/-- The digits behind a value write on its number, if that is not too large for a word. -/
theorem foldlM_nextValue? : bytes.foldlM nextValue? v = some w ↔
    (∀ b ∈ bytes, Bytes.isDigit b = true) ∧
      w.toNat = v.toNat * 10 ^ bytes.length + decimal bytes := by
  induction bytes generalizing v with
  | nil =>
    have nothing : v.toNat * 10 ^ ([] : List UInt8).length + decimal [] = v.toNat :=
      Nat.mul_one _
    rw [nothing, UInt64.toNat_inj, List.foldlM_nil]
    constructor
    · rintro ⟨⟩
      exact ⟨List.forall_mem_nil _, rfl⟩
    · rintro ⟨_, rfl⟩
      rfl
  | cons b bytes ih =>
    have number (d : Nat) : (v.toNat * 10 + d) * 10 ^ bytes.length + decimal bytes =
        v.toNat * 10 ^ (bytes.length + 1) + (decimal bytes + 10 ^ bytes.length * d) := by
      ring
    rw [List.foldlM_cons, Option.bind_eq_bind, Option.bind_eq_some_iff, List.forall_mem_cons,
      List.length_cons, decimal_cons]
    simp only [nextValue?_eq_some, ih]
    constructor
    · rintro ⟨u, ⟨digit, next⟩, digits, eq⟩
      exact ⟨⟨digit, digits⟩, by rw [eq, next, number]⟩
    · rintro ⟨⟨digit, digits⟩, eq⟩
      -- The value so far is no larger than the whole number, which a word holds.
      rw [← number] at eq
      have grows := Nat.le_mul_of_pos_right (v.toNat * 10 + (b.toNat - '0'.toNat))
        (Nat.pow_pos (n := bytes.length) (show 0 < 10 by decide))
      have fits : v.toNat * 10 + (b.toNat - '0'.toNat) < 2 ^ 64 := by
        have := w.toNat_lt
        omega
      obtain ⟨u, next⟩ := exists_toNat_eq fits
      exact ⟨u, ⟨digit, next⟩, digits, by rw [next, eq]⟩

/-! ## Characters -/

theorem valueAfter?_eq (v : UInt64) (t : Text) :
    valueAfter? v.toNat t = (t.bytes.foldlM nextValue? v).map UInt64.toNat := by
  induction t generalizing v with
  | nil => rfl
  | cons c t ih =>
    rcases Bytes.isDigit_bytes_cons c t with
      ⟨other, b, bs, eq, notDigit⟩ | ⟨digit, ascii, eq, digit'⟩
    · rw [eq, valueAfter?, List.foldlM_cons, nextValue?]
      simp [other, notDigit]
    · rw [eq, List.foldlM_cons, valueAfter?, if_pos digit, ← (Text.encode_ascii ascii).2,
        Nat.mul_comm]
      by_cases fits : v.toNat * 10 + (c.toUInt8.toNat - '0'.toNat) < bound
      · obtain ⟨u, next⟩ := exists_toNat_eq fits
        have step := nextValue?_eq_some.2 ⟨digit', next⟩
        rw [if_pos fits, step, ← next]
        exact ih u
      · have step : nextValue? v c.toUInt8 = none := by
          rw [Option.eq_none_iff_forall_ne_some]
          intro w next
          apply fits
          rw [← (nextValue?_eq_some.1 next).2]
          exact w.toNat_lt
        rw [if_neg fits, step]
        rfl

theorem bytes_ne_nil_iff {t : Text} : t.bytes ≠ [] ↔ t ≠ [] := by
  rw [← List.length_pos_iff, Text.length_bytes, Nat.pos_iff_ne_zero, Ne, Text.size_eq_zero_iff]

theorem value?_eq (t : Text) : value? t = (word? t.bytes).map UInt64.toNat := by
  unfold value? word?
  simp only [List.isEmpty_iff]
  by_cases nonempty : t = []
  · rw [nonempty]
    rfl
  · rw [if_neg nonempty, if_neg (bytes_ne_nil_iff.2 nonempty)]
    exact valueAfter?_eq 0 t

theorem word?_eq_some : word? bytes = some w ↔
    bytes ≠ [] ∧ (∀ b ∈ bytes, Bytes.isDigit b = true) ∧ w.toNat = decimal bytes := by
  have zero : (0 : UInt64).toNat * 10 ^ bytes.length + decimal bytes = decimal bytes := by
    rw [UInt64.toNat_zero, Nat.zero_mul, Nat.zero_add]
  unfold word?
  simp only [List.isEmpty_iff]
  split
  · next empty => exact iff_of_false (by simp) fun h => h.1 empty
  · next nonempty => rw [foldlM_nextValue?, zero, and_iff_right nonempty]

theorem decode_eq_ite (text : Text) (span : Span) : decode text span =
    if text ≠ [] ∧ (∀ b ∈ text.bytes, Bytes.isDigit b = true) ∧ decimal text.bytes < 2 ^ 64 then
      .ok (decimal text.bytes)
    else
      .error (.invalidNumber span) := by
  rw [decode, value?_eq]
  split
  · next found =>
    obtain ⟨w, word, rfl⟩ := Option.map_eq_some_iff.1 found
    obtain ⟨nonempty, digits, number⟩ := word?_eq_some.1 word
    rw [← number, if_pos ⟨bytes_ne_nil_iff.1 nonempty, digits, w.toNat_lt⟩]
  · next nothing =>
    refine (if_neg ?_).symm
    rintro ⟨nonempty, digits, fits⟩
    obtain ⟨w, number⟩ := exists_toNat_eq fits
    have word := word?_eq_some.2 ⟨bytes_ne_nil_iff.2 nonempty, digits, number⟩
    rw [word] at nothing
    cases nothing

/-! ## Number tokens -/

theorem bytes_isDigit {t : Text} (digits : ∀ c ∈ t, c.isDigit = true) :
    ∀ b ∈ t.bytes, Bytes.isDigit b = true := by
  induction t with
  | nil => exact List.forall_mem_nil _
  | cons c t ih =>
    obtain ⟨first, others⟩ := List.forall_mem_cons.1 digits
    rcases Bytes.isDigit_bytes_cons c t with ⟨other, _⟩ | ⟨_, _, eq, digit⟩
    · rw [first] at other
      cases other
    · rw [eq]
      exact List.forall_mem_cons.2 ⟨digit, ih others⟩

theorem isDigit_of_spelled {strict : Bool} {kind : TokenKind} {text : Text}
    (h : Spelled strict kind text) (isNumber : kind = .number) : ∀ c ∈ text, c.isDigit = true := by
  cases h with
  | operator mem =>
    subst isNumber
    cases Spelling.text?_of_mem_operators _ mem
  | name => exact absurd isNumber (Spelling.nameKind_ne rfl)
  | number _ digits => exact digits
  | string => cases isNumber

/-- A text has a value if it is not empty, its bytes are digits and the number that they write is
smaller than `2 ^ 64`, and the value is that number. Otherwise the error names the span. The word
that is read byte by byte has the same value. So the text of a number token, which is a run of
digits, has no value if and only if the number is too large. -/
theorem decode_eq :
    (∀ text span, decode text span =
      if text ≠ [] ∧ (∀ b ∈ text.bytes, Bytes.isDigit b = true) ∧ decimal text.bytes < 2 ^ 64 then
        .ok (decimal text.bytes)
      else
        .error (.invalidNumber span)) ∧
    (∀ text, value? text = (word? text.bytes).map UInt64.toNat) ∧
    ∀ strict source tokens, scan strict source = .ok tokens →
      ∀ t ∈ tokens.toList, t.kind = .number →
        t.span.slice source = some (tokens.text t) ∧
        (∀ b ∈ (tokens.text t).bytes, Bytes.isDigit b = true) ∧
        (decode (tokens.text t) t.span = .error (.invalidNumber t.span) ↔
          2 ^ 64 ≤ decimal (tokens.text t).bytes) := by
  refine ⟨decode_eq_ite, value?_eq, fun strict source tokens scanned t mem isNumber => ?_⟩
  have spelled : Spelled strict t.kind (tokens.text t) :=
    (tiling_of_scan scanned).spelled _ (List.mem_map_of_mem mem)
  have digits := bytes_isDigit (isDigit_of_spelled spelled isNumber)
  refine ⟨slice_of_scan scanned t mem, digits, ?_⟩
  rw [decode_eq_ite]
  by_cases fits : decimal (tokens.text t).bytes < 2 ^ 64
  · rw [if_pos ⟨spelled.ne_nil, digits, fits⟩]
    exact iff_of_false (by simp) (Nat.not_le_of_lt fits)
  · rw [if_neg fun h => fits h.2.2]
    exact iff_of_true rfl (Nat.le_of_not_lt fits)

/-- Zeros in front of the largest value that fits, and a token with the number behind it. -/
theorem decode_eq_limit :
    decode "0018446744073709551615".toList ⟨0, 22⟩ = .ok 18446744073709551615 ∧
      ∃ tokens, scan false "18446744073709551616;".toList = .ok tokens ∧
        ⟨.number, ⟨0, 20⟩⟩ ∈ tokens.toList ∧
        decode (tokens.text ⟨.number, ⟨0, 20⟩⟩) ⟨0, 20⟩ = .error (.invalidNumber ⟨0, 20⟩) := by
  have scanned : scan false "18446744073709551616;".toList = .ok (.ofList
      "18446744073709551616;".toList [⟨.number, ⟨0, 20⟩⟩, ⟨.punctuator .semicolon, ⟨20, 1⟩⟩]) := by
    have text : "18446744073709551616;".toList = ['1', '8', '4', '4', '6', '7', '4', '4', '0', '7',
        '3', '7', '0', '9', '5', '5', '1', '6', '1', '6', ';'] := String.toList_ofList ..
    rw [text]
    rfl
  have large : 2 ^ 64 ≤ decimal (TokenSequence.text (.ofList "18446744073709551616;".toList
      [⟨.number, ⟨0, 20⟩⟩, ⟨.punctuator .semicolon, ⟨20, 1⟩⟩]) ⟨.number, ⟨0, 20⟩⟩).bytes := by
    decide +kernel
  refine ⟨?_, _, scanned, List.mem_cons_self, ?_⟩
  · rw [decode_eq.1, if_pos (by decide +kernel)]
    decide +kernel
  · exact (decode_eq.2.2 _ _ _ scanned _ List.mem_cons_self rfl).2.2.2 large

end EcmaFront.Numeral
