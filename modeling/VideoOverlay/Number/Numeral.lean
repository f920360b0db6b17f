import VideoOverlay.Number.Decimal

/-!
# `Number.Numeral` — reading numbers from text

A numeral is an optional sign and then digits with at most one point among, before or after them and
an optional power of ten; or one of the words `inf`, `infinity` and `nan`, in any case. It stands for the
nearest double, so a numeral that is too large is infinite. No blanks and no separators are allowed.

## Contents
- `Binary64.scientific`: the double nearest to `c * 10 ^ e`.
- `Binary64.ofChars?`, `Binary64.ofText?`: the double a numeral stands for.
- `word32OfChars?`: an unsigned number of 32 bits, with an optional plus sign.
-/

namespace VideoOverlay

-- Powers of numbers are those of the core library, also beside libraries with powers of their own.
attribute [local instance(2000)] instPowNat

namespace Binary64

/-! ## Powers of ten -/

/-- The double nearest to `c * 10 ^ e`. A number above `10 ^ 310` is infinite and one below `10 ^ (-330)`
is zero, so no large power is ever computed. -/
def scientific (negative : Bool) (c : Nat) (e : Int) : Binary64 :=
  let order := (Nat.toDigits 10 c).length + e
  if c = 0 then ofRatio negative 0 1
  else if 310 < order then .infinite negative
  else if order < -330 then ofRatio negative 0 1
  else if 0 ≤ e then ofRatio negative (c * 10 ^ e.toNat) 1
  else ofRatio negative c (10 ^ (-e).toNat)

/-! ## Numerals -/

/-- A minus or plus sign in front of the rest. Without one the number is not negative. -/
def splitSign : List Char → Bool × List Char
  | '-' :: cs => (true, cs)
  | '+' :: cs => (false, cs)
  | cs => (false, cs)

/-- The digits after a point, and what follows them. -/
def splitPlaces : List Char → List Char × List Char
  | '.' :: cs => (cs.takeWhile Char.isDigit, cs.dropWhile Char.isDigit)
  | cs => ([], cs)

/-- The power of ten at the end of a numeral: nothing, or `e` with an optional sign and some digits. -/
def powerOfTen? : List Char → Option Int
  | [] => some 0
  | c :: cs =>
    let (negative, ds) := splitSign cs
    if (c = 'e' ∨ c = 'E') ∧ ds ≠ [] ∧ ds.all Char.isDigit then
      let n : Int := Nat.ofDigitChars 10 ds 0
      some (if negative then -n else n)
    else none

/-- The value of a numeral without its sign. -/
def magnitude? (negative : Bool) (cs : List Char) : Option Binary64 :=
  let whole := cs.takeWhile Char.isDigit
  let (places, rest) := splitPlaces (cs.dropWhile Char.isDigit)
  if whole ++ places = [] then none
  else (powerOfTen? rest).map fun e =>
    scientific negative (Nat.ofDigitChars 10 (whole ++ places) 0) (e - places.length)

/-- The value of a number written as a word. -/
def named? (negative : Bool) (cs : List Char) : Option Binary64 :=
  let word := cs.map Char.toLower
  if word = "inf".toList ∨ word = "infinity".toList then some (.infinite negative)
  else if word = "nan".toList then some .nan
  else none

/-- The double a numeral stands for. -/
def ofChars? (cs : List Char) : Option Binary64 :=
  let (negative, body) := splitSign cs
  (named? negative body).or (magnitude? negative body)

/-- The double a numeral stands for. -/
def ofText? (s : String) : Option Binary64 := ofChars? s.toList

end Binary64

/-! ## Whole numbers -/

/-- The value of a text of digits, at least one. -/
def digitsValue? (ds : List Char) : Option Nat :=
  if ds ≠ [] ∧ ds.all Char.isDigit then some (Nat.ofDigitChars 10 ds 0) else none

/-- An optional plus sign in front of the rest. -/
def dropPlus : List Char → List Char
  | '+' :: cs => cs
  | cs => cs

/-- An unsigned number of 32 bits: an optional plus sign and digits. -/
def word32OfChars? (cs : List Char) : Option UInt32 :=
  (digitsValue? (dropPlus cs)).bind fun n => if h : n < UInt32.size then some (UInt32.ofNatLT n h) else none

end VideoOverlay
