import VideoOverlay.Number.Numeral
import VideoOverlay.Toml.Quoted

/-!
# `Toml.Scalar` — numbers, truth values and times

A value that is not quoted and not nested is a run of letters, digits, signs, underscores, points and
colons. The whole run must have the shape of one kind of value. Underscores may stand between two digits.
A number without point and exponent is whole and has 64 bits; one with them is a double and must not be
too large for one. Of dates and times only the form matters: nothing here reads their value.

## Contents
- `ungroup?`: digits without the underscores between them.
- `integer?`, `float?`: numbers.
- `isDateTime`: dates, times, and both together with or without an offset.
- `Scalar`, `readScalar`: any of them, and the rest behind it.
-/

namespace VideoOverlay
namespace Toml

/-! ## Numbers -/

/-- Digits, at least one, without the underscores that stand between two of them. -/
def ungroup? (isDigit : Char → Bool) : List Char → Option (List Char)
  | [] => none
  | [c] => if isDigit c then some [c] else none
  | c :: d :: cs =>
    if isDigit c then
      (if d = '_' then ungroup? isDigit cs else ungroup? isDigit (d :: cs)).map (c :: ·)
    else none

/-- The digits of a whole number to the base ten: none stands behind a zero at the front. -/
def wholeDigits? (cs : List Char) : Option (List Char) :=
  (ungroup? Char.isDigit cs).filter fun ds => ds.length = 1 || ds.head? != some '0'

/-- The numbers of 64 bits. -/
def InWord64 (n : Int) : Prop := -9223372036854775808 ≤ n ∧ n < 9223372036854775808

instance (n : Int) : Decidable (InWord64 n) := inferInstanceAs (Decidable (_ ∧ _))

/-- A whole number of 64 bits. -/
def word64? (n : Int) : Option Int := if InWord64 n then some n else none

/-- A digit of a number to the base eight. -/
def isOctalDigit (c : Char) : Bool := '0' ≤ c && c ≤ '7'

/-- A digit of a number to the base two. -/
def isBinaryDigit (c : Char) : Bool := c = '0' || c = '1'

/-- A whole number: to the base ten with an optional sign, or to another base without one. -/
def integer? (cs : List Char) : Option Int :=
  match cs with
  | '0' :: 'x' :: ds => (ungroup? Text.isHexDigit ds).bind fun ds => word64? (Text.digitsToBase 16 ds)
  | '0' :: 'o' :: ds => (ungroup? isOctalDigit ds).bind fun ds => word64? (Text.digitsToBase 8 ds)
  | '0' :: 'b' :: ds => (ungroup? isBinaryDigit ds).bind fun ds => word64? (Text.digitsToBase 2 ds)
  | _ =>
    let (negative, body) := Binary64.splitSign cs
    (wholeDigits? body).bind fun ds =>
      let n : Int := Text.digitsToBase 10 ds
      word64? (if negative then -n else n)

/-- The letter that begins an exponent. -/
def isExponentLetter (c : Char) : Bool := c = 'e' || c = 'E'

/-- The shape of an exponent: nothing, or its letter, an optional sign and digits. -/
def isExponent : List Char → Bool
  | [] => true
  | c :: cs => isExponentLetter c && (ungroup? Char.isDigit (Binary64.splitSign cs).2).isSome

/-- The shape of a number with a point, an exponent or both. -/
def isFloat (cs : List Char) : Bool :=
  let body := (Binary64.splitSign cs).2
  let whole := body.takeWhile fun c => c ≠ '.' && !isExponentLetter c
  (wholeDigits? whole).isSome &&
    match body.dropWhile fun c => c ≠ '.' && !isExponentLetter c with
    | [] => false
    | c :: rest =>
      if c = '.' then
        (ungroup? Char.isDigit (rest.takeWhile fun d => !isExponentLetter d)).isSome
          && isExponent (rest.dropWhile fun d => !isExponentLetter d)
      else isExponent (c :: rest)

/-- A number with a point or an exponent, an infinity, or `nan`. -/
def float? (cs : List Char) : Option Binary64 :=
  let (negative, body) := Binary64.splitSign cs
  if body = "inf".toList then some (.infinite negative)
  else if body = "nan".toList then some .nan
  else if isFloat cs then
    (Binary64.ofChars? (cs.filter (· ≠ '_'))).filter (· ≠ .infinite false)
  else none

/-! ## Dates and times -/

/-- A number of exactly `n` digits that satisfies a condition, and the rest behind it. -/
def readField (n : Nat) (accept : Nat → Bool) (cs : List Char) : Option (Nat × List Char) :=
  let ds := cs.take n
  if ds.length = n ∧ ds.all Char.isDigit ∧ accept (Text.digitsToBase 10 ds) then
    some (Text.digitsToBase 10 ds, cs.drop n)
  else none

/-- The rest behind a given character. -/
def readChar (c : Char) : List Char → Option (List Char)
  | [] => none
  | d :: cs => if d = c then some cs else none

/-- The number of days of a month. -/
def daysOfMonth (year month : Nat) : Nat :=
  if month = 2 then (if year % 4 = 0 ∧ (year % 100 ≠ 0 ∨ year % 400 = 0) then 29 else 28)
  else if month = 4 ∨ month = 6 ∨ month = 9 ∨ month = 11 then 30
  else 31

/-- The rest behind a date. -/
def afterDate? (cs : List Char) : Option (List Char) := do
  let (year, cs) ← readField 4 (fun _ => true) cs
  let cs ← readChar '-' cs
  let (month, cs) ← readField 2 (fun n => 1 ≤ n && n ≤ 12) cs
  let cs ← readChar '-' cs
  let (_, cs) ← readField 2 (fun n => 1 ≤ n && n ≤ daysOfMonth year month) cs
  return cs

/-- The rest behind a fraction of a second, which may be missing. -/
def afterFraction? : List Char → Option (List Char)
  | [] => some []
  | c :: cs =>
    if c = '.' then
      match cs with
      | [] => none
      | d :: _ => if d.isDigit then some (cs.dropWhile Char.isDigit) else none
    else some (c :: cs)

/-- The rest behind a time of the day. -/
def afterTime? (cs : List Char) : Option (List Char) := do
  let (_, cs) ← readField 2 (· ≤ 23) cs
  let cs ← readChar ':' cs
  let (_, cs) ← readField 2 (· ≤ 59) cs
  let cs ← readChar ':' cs
  let (_, cs) ← readField 2 (· ≤ 60) cs
  afterFraction? cs

/-- Nothing, or the offset of a time zone. -/
def isOffset : List Char → Bool
  | [] => true
  | c :: cs =>
    if c = 'Z' || c = 'z' then cs = []
    else if c = '+' || c = '-' then
      ((do
        let (_, cs) ← readField 2 (· ≤ 23) cs
        let cs ← readChar ':' cs
        let (_, cs) ← readField 2 (· ≤ 59) cs
        return cs) : Option (List Char)) == some []
    else false

/-- A time of the day with an optional offset. -/
def isZonedTime (cs : List Char) : Bool :=
  match afterTime? cs with
  | some rest => isOffset rest
  | none => false

/-- A date, a time, or a date and a time with an optional offset. -/
def isDateTime (cs : List Char) : Bool :=
  afterTime? cs == some [] ||
    match afterDate? cs with
    | none => false
    | some [] => true
    | some (c :: time) => (c = 'T' || c = 't') && isZonedTime time

/-! ## Any of them -/

/-- A value that is not quoted and not nested. -/
inductive Scalar where
  | integer (n : Int)
  | float (x : Binary64)
  | boolean (b : Bool)
  | dateTime
  deriving DecidableEq

/-- A character of a value that is not quoted. -/
def isScalarChar (c : Char) : Bool :=
  c.isAlphanum || c = '+' || c = '-' || c = '_' || c = '.' || c = ':'

/-- The value of a whole run of characters. -/
def scalar? (cs : List Char) : Option Scalar :=
  if cs = "true".toList then some (.boolean true)
  else if cs = "false".toList then some (.boolean false)
  else if isDateTime cs then some .dateTime
  else ((integer? cs).map .integer).or ((float? cs).map .float)

/-- What stands behind a date: a blank and a time, if one follows, belong to it. -/
def afterDateBlank (cs : List Char) : List Char :=
  match cs with
  | [] => []
  | c :: rest =>
    if c = ' ' && isZonedTime (rest.takeWhile isScalarChar) then rest.dropWhile isScalarChar else c :: rest

/-- A value that is not quoted, and the rest behind it. -/
def readScalar (cs : List Char) : Option (Scalar × List Char) :=
  let run := cs.takeWhile isScalarChar
  let rest := cs.dropWhile isScalarChar
  (scalar? run).map fun value => (value, if afterDate? run = some [] then afterDateBlank rest else rest)

end Toml
end VideoOverlay
