/-!
# `Text.Hex` — digits to the base sixteen

Digits are read in either case and written in upper case.

## Contents
- `isHexDigit`, `hexDigitValue`, `digitsToBase`, `hexValue`: reading, with `hexDigitValue_hexDigit`.
- `hexDigit`: writing.
-/

namespace VideoOverlay
namespace Text

/-! ## Reading -/

/-- A digit of a number to the base sixteen, in either case. -/
def isHexDigit (c : Char) : Bool := c.isDigit || ('a' ≤ c && c ≤ 'f') || ('A' ≤ c && c ≤ 'F')

/-- The value of a digit to the base sixteen. -/
def hexDigitValue (c : Char) : Nat :=
  if c.isDigit then c.toNat - '0'.toNat
  else if 'a' ≤ c then c.toNat - 'a'.toNat + 10
  else c.toNat - 'A'.toNat + 10

/-- The value of digits to some base up to sixteen. -/
def digitsToBase (base : Nat) (ds : List Char) : Nat :=
  ds.foldl (fun n c => n * base + hexDigitValue c) 0

/-- The value of digits to the base sixteen. -/
def hexValue (ds : List Char) : Nat := digitsToBase 16 ds

/-! ## Writing -/

/-- A digit of a number to the base sixteen, in upper case. -/
def hexDigit (n : Nat) : Char := if n < 10 then Char.ofNat (n + '0'.toNat) else Char.ofNat (n - 10 + 'A'.toNat)

/-- A written digit is read as the value it was written for. -/
theorem hexDigitValue_hexDigit {n : Nat} (h : n < 16) : hexDigitValue (hexDigit n) = n := by
  revert n
  decide

/-- What is written is a digit. -/
theorem isHexDigit_hexDigit {n : Nat} (h : n < 16) : isHexDigit (hexDigit n) = true := by
  revert n
  decide

end Text
end VideoOverlay
