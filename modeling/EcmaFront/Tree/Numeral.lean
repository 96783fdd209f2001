import EcmaFront.Tree.SyntaxError

/-!
# Decimal numerals

The value of a run of decimal digits, which must fit in 64 bits. The digits are read from the most
significant one on; leading zeros are allowed, and an empty text has no value.
-/

namespace EcmaFront.Numeral

/-- The values that a numeral can have lie below this bound. -/
def bound : Nat := Nat.pow 2 64

/-- The value of `digits` after `value`, as long as it stays below the bound. -/
def valueAfter? (value : Nat) : Text → Option Nat
  | [] => some value
  | c :: cs =>
    if c.isDigit then
      let next := 10 * value + (c.toNat - '0'.toNat)
      if next < bound then valueAfter? next cs else none
    else
      none

/-- The value of a numeral. -/
def value? (digits : Text) : Option Nat := if digits.isEmpty then none else valueAfter? 0 digits

/-- The value of the numeral at `span`, which the error names otherwise. -/
def decode (digits : Text) (span : Span) : Except SyntaxError Nat :=
  match value? digits with
  | some value => .ok value
  | none => .error (.invalidNumber span)

end EcmaFront.Numeral
