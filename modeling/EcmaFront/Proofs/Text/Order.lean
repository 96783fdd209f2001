import EcmaFront.Proofs.Text.Bytes
import Mathlib.Algebra.Group.Nat.Defs
import Mathlib.Data.Char
import Mathlib.Data.List.Lex
import Mathlib.Order.Lattice
import Mathlib.Tactic.SplitIfs

/-!
# The order of texts

Texts compare character by character. That is the same as comparing their bytes: of two characters
the smaller one has the smaller byte at the first place where their bytes differ, and there is such
a place (`Text.byteValues_strictMono`).
-/

namespace EcmaFront.Text

/-! ## Bytes of one character -/

/-- The bytes behind the first one for the last `k` digits of `n` to the base 64. -/
def furtherBytes (n : Nat) : Nat → List Nat
  | 0 => []
  | k + 1 => (n / 64 ^ k % 64 + 128) :: furtherBytes n k

theorem furtherBytes_append_lt {m n k : Nat} (h : m % 64 ^ k < n % 64 ^ k) (s t : List Nat) :
    furtherBytes m k ++ s < furtherBytes n k ++ t := by
  induction k with
  | zero => simp [Nat.mod_one] at h
  | succ k ih =>
    rw [furtherBytes, furtherBytes, List.cons_append, List.cons_append, List.cons_lt_cons_iff]
    rw [Nat.mod_pow_succ, Nat.mod_pow_succ] at h
    rcases Nat.lt_trichotomy (m / 64 ^ k % 64) (n / 64 ^ k % 64) with less | same | more
    · exact .inl (Nat.add_lt_add_right less _)
    · rw [same] at h
      exact .inr ⟨by rw [same], ih (by omega)⟩
    · have digits := Nat.mul_le_mul_left (64 ^ k) (Nat.succ_le_of_lt more)
      have behind := Nat.mod_lt n (Nat.pow_pos (n := k) (show 0 < 64 by decide))
      rw [Nat.mul_succ] at digits
      omega

/-- What the first byte is marked with when `k` others follow. -/
def mark : Nat → Nat
  | 0 => 0
  | 1 => 192
  | 2 => 224
  | _ => 240

/-- How many bytes follow the first one. -/
def furtherCount (n : Nat) : Nat :=
  if n < 0x80 then 0 else if n < 0x800 then 1 else if n < 0x10000 then 2 else 3

theorem encode_eq (c : Char) : (String.utf8EncodeChar c).map UInt8.toNat =
    (c.toNat / 64 ^ furtherCount c.toNat + mark (furtherCount c.toNat)) ::
      furtherBytes c.toNat (furtherCount c.toNat) := by
  have valid := c.valid
  simp only [UInt32.isValidChar, Nat.isValidChar] at valid
  rw [String.utf8EncodeChar, furtherCount, show c.val.toNat = c.toNat from rfl]
  rw [show c.val.toNat = c.toNat from rfl] at valid
  generalize c.toNat = n at valid
  split_ifs
  all_goals first
    | omega
    | simp only [List.map_cons, List.map_nil, UInt8.toNat_ofNat', mark, furtherBytes,
        Nat.reducePow, Nat.div_one, List.cons.injEq, and_true]
      omega

/-- The bytes of a smaller character are smaller, whatever follows. -/
theorem encode_append_lt {c d : Char} (h : c < d) (s t : List Nat) :
    (String.utf8EncodeChar c).map UInt8.toNat ++ s <
      (String.utf8EncodeChar d).map UInt8.toNat ++ t := by
  have less : c.toNat < d.toNat := UInt32.lt_iff_toNat_lt.1 h
  rw [encode_eq, encode_eq, List.cons_append, List.cons_append, List.cons_lt_cons_iff]
  generalize c.toNat = m at less
  generalize d.toNat = n at less
  by_cases same : furtherCount m = furtherCount n
  · rw [same]
    generalize furtherCount n = k
    rcases (Nat.div_le_div_right (c := 64 ^ k) less.le).lt_or_eq with fewer | first
    · exact .inl (Nat.add_lt_add_right fewer _)
    · refine .inr ⟨by rw [first], furtherBytes_append_lt ?_ s t⟩
      have whole := Nat.div_add_mod m (64 ^ k)
      have whole' := Nat.div_add_mod n (64 ^ k)
      rw [first] at whole
      omega
  · -- The marks are so far apart that more bytes make the first one larger.
    left
    unfold furtherCount at same ⊢
    split_ifs at same ⊢ <;> first | omega | (simp only [mark, Nat.reducePow]; omega)

/-- The bytes of the UTF-8 form, as numbers. -/
def byteValues (t : Text) : List Nat := t.bytes.map UInt8.toNat

theorem byteValues_cons (c : Char) (t : Text) :
    byteValues (c :: t) = (String.utf8EncodeChar c).map UInt8.toNat ++ byteValues t := by
  rw [byteValues, bytes_cons, List.map_append]
  rfl

theorem byteValues_strictMono : StrictMono byteValues := by
  intro s t h
  induction s generalizing t with
  | nil =>
    cases t with
    | nil => exact absurd h (lt_irrefl _)
    | cons d t =>
      rw [byteValues_cons, encode_eq]
      exact List.nil_lt_cons _ _
  | cons c s ih =>
    cases t with
    | nil => exact absurd h (List.not_lt_nil _)
    | cons d t =>
      rw [byteValues_cons, byteValues_cons]
      rcases List.cons_lt_cons_iff.1 h with less | ⟨rfl, less⟩
      · exact encode_append_lt less _ _
      · exact List.append_left_lt (ih less)

end EcmaFront.Text
