import EcmaFront.Text.Basic

/-!
# The bytes of a text

A text is scanned byte by byte in places. An ASCII character is one byte, its own number, and every
byte of another character is no ASCII character, so what is looked for among the bytes is found at
characters.

* `Text.bytes`: the UTF-8 form; `Text.length_bytes` says that `Text.size` counts its bytes.
* `Text.encode_ascii`, `Text.encode_wide`: the bytes of one character.
* `Text.bytes_prefix_iff`: a text of ASCII characters stands in front of a text if its bytes do.
-/

namespace EcmaFront.Text

/-- The bytes of the UTF-8 form. -/
def bytes (t : Text) : List UInt8 := t.flatMap String.utf8EncodeChar

@[simp] theorem bytes_nil : bytes [] = [] := rfl

theorem bytes_cons (c : Char) (t : Text) :
    bytes (c :: t) = String.utf8EncodeChar c ++ bytes t := List.flatMap_cons ..

@[simp] theorem bytes_append (s t : Text) : bytes (s ++ t) = bytes s ++ bytes t :=
  List.flatMap_append ..

@[simp] theorem length_bytes (t : Text) : (bytes t).length = size t := by
  induction t with
  | nil => rfl
  | cons c t ih => rw [bytes_cons, List.length_append, String.length_utf8EncodeChar, ih, size_cons]

theorem length_le_size (t : Text) : t.length ≤ size t := by
  induction t with
  | nil => exact Nat.le_refl _
  | cons c t ih =>
    have := c.utf8Size_pos
    rw [List.length_cons, size_cons]
    omega

/-- An ASCII character is one byte. -/
theorem encode_ascii {c : Char} (ascii : c.toNat < 128) :
    String.utf8EncodeChar c = [c.toUInt8] ∧ c.toUInt8.toNat = c.toNat := by
  have small : c.val ≤ 127 := UInt32.le_iff_toNat_le.2 (Nat.le_of_lt_succ ascii)
  refine ⟨String.utf8EncodeChar_eq_singleton (Char.utf8Size_eq_one_iff.2 small), ?_⟩
  have : c.toUInt8.toNat = c.toNat % 2 ^ 8 := UInt32.toNat_toUInt8 c.val
  omega

/-- The first byte of another character is no ASCII character, and its further bytes are from the
range that is kept for such bytes. -/
theorem encode_wide {c : Char} (wide : 128 ≤ c.toNat) :
    ∃ b bs, String.utf8EncodeChar c = b :: bs ∧ 128 ≤ b.toNat ∧
      ∀ b ∈ bs, 128 ≤ b.toNat ∧ b.toNat < 192 := by
  have notSmall : ¬ c.val.toNat ≤ 127 := Nat.not_le_of_lt wide
  have further (n : Nat) : 128 ≤ (UInt8.ofNat (n % 64 + 128)).toNat ∧
      (UInt8.ofNat (n % 64 + 128)).toNat < 192 := by
    rw [UInt8.toNat_ofNat']
    omega
  simp only [String.utf8EncodeChar, notSmall, if_false]
  split
  · refine ⟨_, _, rfl, ?_, ?_⟩
    · rw [UInt8.toNat_ofNat']
      omega
    · simpa using further _
  split
  · refine ⟨_, _, rfl, ?_, ?_⟩
    · rw [UInt8.toNat_ofNat']
      omega
    · simpa using ⟨further _, further _⟩
  · refine ⟨_, _, rfl, ?_, ?_⟩
    · rw [UInt8.toNat_ofNat']
      omega
    · simpa using ⟨further _, further _, further _⟩

theorem bytes_ascii {c : Char} (ascii : c.toNat < 128) (t : Text) :
    bytes (c :: t) = c.toUInt8 :: bytes t := by
  rw [bytes_cons, (encode_ascii ascii).1, List.singleton_append]

theorem utf8Size_ascii {c : Char} (ascii : c.toNat < 128) : c.utf8Size = 1 := by
  rw [← String.length_utf8EncodeChar, (encode_ascii ascii).1, List.length_singleton]

theorem toUInt8_inj {c d : Char} (hc : c.toNat < 128) (hd : d.toNat < 128)
    (h : c.toUInt8 = d.toUInt8) : c = d := by
  have same := congrArg UInt8.toNat h
  rw [(encode_ascii hc).2, (encode_ascii hd).2] at same
  exact Char.toNat_inj.1 same

theorem ne_of_wide {c d : Char} (wide : 128 ≤ c.toNat) (ascii : d.toNat < 128) : c ≠ d := by
  rintro rfl
  omega

/-- Every byte of a character that is not ASCII is no ASCII character. -/
theorem wide_of_mem_encode {c : Char} (wide : 128 ≤ c.toNat) {b : UInt8}
    (mem : b ∈ String.utf8EncodeChar c) : 128 ≤ b.toNat := by
  obtain ⟨b, bs, eq, first, further⟩ := encode_wide wide
  rw [eq] at mem
  obtain rfl | later := List.mem_cons.1 mem
  · exact first
  · exact (further _ later).1

theorem ne_of_mem_encode {c d : Char} (wide : 128 ≤ c.toNat) (ascii : d.toNat < 128) {b : UInt8}
    (mem : b ∈ String.utf8EncodeChar c) : b ≠ d.toUInt8 := by
  rintro rfl
  have small := (encode_ascii ascii).2
  have := wide_of_mem_encode wide mem
  omega

/-- A text of ASCII characters stands in front of a text if its bytes do. -/
theorem bytes_prefix_iff {s t : Text} (ascii : ∀ c ∈ s, c.toNat < 128) :
    s.bytes <+: t.bytes ↔ s <+: t := by
  induction s generalizing t with
  | nil => simp
  | cons a s ih =>
    have ⟨ha, ascii⟩ := List.forall_mem_cons.1 ascii
    rw [bytes_cons, (encode_ascii ha).1]
    cases t with
    | nil => simp
    | cons c t =>
      rw [bytes_cons, List.cons_prefix_cons]
      by_cases hc : c.toNat < 128
      · rw [(encode_ascii hc).1, List.singleton_append, List.singleton_append, List.cons_prefix_cons,
          ih ascii]
        exact and_congr_left fun _ => ⟨toUInt8_inj ha hc, congrArg _⟩
      · have wide := Nat.le_of_not_lt hc
        obtain ⟨b, bs, eq, _⟩ := encode_wide wide
        have ne : b ≠ a.toUInt8 := ne_of_mem_encode wide ha (eq ▸ List.mem_cons_self)
        rw [eq, List.singleton_append, List.cons_append, List.cons_prefix_cons]
        constructor
        · rintro ⟨rfl, _⟩
          exact absurd rfl ne
        · rintro ⟨rfl, _⟩
          exact absurd ha hc

end EcmaFront.Text
