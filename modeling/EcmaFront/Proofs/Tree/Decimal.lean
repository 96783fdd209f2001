import EcmaFront.Tree.Numeral

/-!
# Numerals and decimal digits

A numeral with a value is the decimal expansion of the value behind any number of zeros
(`eq_of_value?`), the value is below the bound (`value?_lt`), and such an expansion of a number below
the bound has that number as its value (`value?_zeros_append`).
-/

namespace EcmaFront.Numeral

theorem digitChar_of_isDigit {c : Char} (h : c.isDigit = true) :
    c.toNat - '0'.toNat < 10 ∧ Nat.digitChar (c.toNat - '0'.toNat) = c := by
  have range := Char.isDigit_iff_toNat.1 h
  have zero : '0'.toNat = 48 := rfl
  have nine : '9'.toNat = 57 := rfl
  have small : c.toNat - '0'.toNat < 10 := by omega
  refine ⟨small, Char.toNat_inj.1 ?_⟩
  rw [Nat.toNat_digitChar_of_lt_ten small]
  omega

/-- The digits after a value that is not zero expand it. -/
theorem toDigits_append_of_valueAfter? {v w : Nat} {cs : Text} (pos : 0 < v)
    (h : valueAfter? v cs = some w) : Nat.toDigits 10 v ++ cs = Nat.toDigits 10 w := by
  induction cs generalizing v with
  | nil =>
    cases h
    exact List.append_nil _
  | cons c cs ih =>
    simp only [valueAfter?] at h
    split at h
    · next digit =>
      split at h
      · obtain ⟨small, char⟩ := digitChar_of_isDigit digit
        have expand := Nat.toDigits_append_toDigits (b := 10) (n := v) (d := c.toNat - '0'.toNat)
          (by decide) pos small
        rw [Nat.toDigits_of_lt_base small, char] at expand
        rw [← ih (Nat.add_pos_left (Nat.mul_pos (by decide) pos) _) h, ← expand]
        simp
      · cases h
    · cases h

/-- A numeral is the decimal expansion of its value with zeros in front. -/
theorem eq_of_value? {digits : Text} {value : Nat} (h : value? digits = some value) :
    ∃ zeros, digits = List.replicate zeros '0' ++ Nat.toDigits 10 value := by
  unfold value? at h
  split at h
  · cases h
  · next nonempty =>
    induction digits with
    | nil => exact absurd rfl nonempty
    | cons c cs ih =>
      simp only [valueAfter?, Nat.mul_zero, Nat.zero_add] at h
      split at h
      · next digit =>
        split at h
        · obtain ⟨small, char⟩ := digitChar_of_isDigit digit
          rcases Nat.eq_zero_or_pos (c.toNat - '0'.toNat) with zero | pos
          · rw [zero] at h char
            obtain rfl : '0' = c := char
            cases cs with
            | nil =>
              cases h
              exact ⟨0, rfl⟩
            | cons d ds =>
              obtain ⟨zeros, eq⟩ := ih (by simp) h
              exact ⟨zeros + 1, by rw [eq]; rfl⟩
          · have expand := toDigits_append_of_valueAfter? pos h
            rw [Nat.toDigits_of_lt_base small, char] at expand
            exact ⟨0, expand⟩
        · cases h
      · cases h

theorem le_ofDigitChars (cs : Text) (v : Nat) : v ≤ Nat.ofDigitChars 10 cs v := by
  rw [Nat.ofDigitChars_eq_ofDigitChars_zero]
  exact Nat.le_add_right_of_le (Nat.le_mul_of_pos_left v (Nat.pow_pos (by decide)))

theorem valueAfter?_eq_some {cs : Text} {v : Nat} (digits : ∀ c ∈ cs, c.isDigit = true)
    (fits : Nat.ofDigitChars 10 cs v < bound) :
    valueAfter? v cs = some (Nat.ofDigitChars 10 cs v) := by
  induction cs generalizing v with
  | nil => rfl
  | cons c cs ih =>
    rw [Nat.ofDigitChars_cons] at fits ⊢
    have step := le_ofDigitChars cs (10 * v + (c.toNat - '0'.toNat))
    rw [valueAfter?, if_pos (digits c (by simp)), if_pos (Nat.lt_of_le_of_lt step fits)]
    exact ih (fun d mem => digits d (by simp [mem])) fits

theorem ofDigitChars_zeros (zeros : Nat) (cs : Text) :
    Nat.ofDigitChars 10 (List.replicate zeros '0' ++ cs) 0 = Nat.ofDigitChars 10 cs 0 := by
  induction zeros with
  | zero => rfl
  | succ zeros ih =>
    rw [List.replicate_succ, List.cons_append, Nat.ofDigitChars_cons]
    exact ih

theorem isDigit_zeros_append (zeros value : Nat) :
    ∀ c ∈ List.replicate zeros '0' ++ Nat.toDigits 10 value, c.isDigit = true := by
  intro c mem
  rcases List.mem_append.1 mem with zero | digit
  · rw [List.eq_of_mem_replicate zero]
    rfl
  · exact Nat.isDigit_of_mem_toDigits (by decide) (by decide) digit

theorem value?_zeros_append {value : Nat} (h : value < bound) (zeros : Nat) :
    value? (List.replicate zeros '0' ++ Nat.toDigits 10 value) = some value := by
  have digits := isDigit_zeros_append zeros value
  have nonempty : (List.replicate zeros '0' ++ Nat.toDigits 10 value).isEmpty = false := by simp
  have eq : Nat.ofDigitChars 10 (List.replicate zeros '0' ++ Nat.toDigits 10 value) 0 = value := by
    rw [ofDigitChars_zeros, Nat.ofDigitChars_ten_toDigits]
  rw [value?, nonempty, if_neg Bool.false_ne_true, valueAfter?_eq_some digits (by rwa [eq]), eq]

theorem valueAfter?_lt {v w : Nat} {cs : Text} (small : v < bound)
    (h : valueAfter? v cs = some w) : w < bound := by
  induction cs generalizing v with
  | nil =>
    cases h
    exact small
  | cons c cs ih =>
    simp only [valueAfter?] at h
    split at h
    · split at h
      · next next => exact ih next h
      · cases h
    · cases h

theorem value?_lt {digits : Text} {value : Nat} (h : value? digits = some value) :
    value < bound := by
  unfold value? at h
  split at h
  · cases h
  · exact valueAfter?_lt (by decide) h

end EcmaFront.Numeral
