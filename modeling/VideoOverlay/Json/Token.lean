import VideoOverlay.Text.Hex
import VideoOverlay.Text.Utf8

/-!
# `Json.Token` — the tokens of JSON

A text in JSON is a list of marks, words, numbers and strings, with blanks between them. The bytes of a
string are kept as they stand between its quotes; only its escapes are checked for their form. What text
they mean is asked for where the text is needed.

## Contents
- `Token`, `tokens?`: the tokens of some bytes.
- `unescape?`, `stringText?`: the text that the inside of a string means.
-/

namespace VideoOverlay
namespace Json

/-- A token. -/
inductive Token where
  | openBrace
  | closeBrace
  | openBracket
  | closeBracket
  | comma
  | colon
  | null
  | boolean (b : Bool)
  | number
  | string (raw : List UInt8)
  deriving DecidableEq

/-! ## Bytes -/

/-- The byte of a character below 128. -/
def byteOf (c : Char) : UInt8 := UInt8.ofNat c.toNat

/-- A blank between tokens. -/
def isBlankByte (b : UInt8) : Bool := b = 0x20 || b = 0x0A || b = 0x0D || b = 0x09

/-- A digit to the base ten. -/
def isDigitByte (b : UInt8) : Bool := byteOf '0' ≤ b && b ≤ byteOf '9'

/-- The character of a byte below 128. -/
def charOfByte (b : UInt8) : Char := Char.ofNat b.toNat

/-! ## Numbers -/

/-- The rest behind some digits, at least one. -/
def afterDigits? (bs : List UInt8) : Option (List UInt8) :=
  match bs with
  | [] => none
  | b :: _ => if isDigitByte b then some (bs.dropWhile isDigitByte) else none

/-- The rest behind the whole part of a number: a zero, or digits that begin with another one. -/
def afterWhole? : List UInt8 → Option (List UInt8)
  | [] => none
  | b :: bs =>
    if b = byteOf '0' then some bs
    else if isDigitByte b then some (bs.dropWhile isDigitByte)
    else none

/-- The rest behind the places of a number, if it has any. -/
def afterPlaces? : List UInt8 → Option (List UInt8)
  | [] => some []
  | b :: bs => if b = byteOf '.' then afterDigits? bs else some (b :: bs)

/-- The rest behind a sign, if there is one. -/
def afterSign : List UInt8 → List UInt8
  | [] => []
  | b :: bs => if b = byteOf '+' || b = byteOf '-' then bs else b :: bs

/-- The rest behind the exponent of a number, if it has one. -/
def afterExponent? : List UInt8 → Option (List UInt8)
  | [] => some []
  | b :: bs => if b = byteOf 'e' || b = byteOf 'E' then afterDigits? (afterSign bs) else some (b :: bs)

/-- The rest behind a number without its sign. -/
def afterNumber? (bs : List UInt8) : Option (List UInt8) := do
  let bs ← afterWhole? bs
  let bs ← afterPlaces? bs
  afterExponent? bs

/-! ## Strings -/

/-- The letters that follow a backslash on their own. -/
def escapeLetters : List UInt8 := ['"', '\\', '/', 'b', 'f', 'n', 'r', 't'].map byteOf

/-- The inside of a string up to its closing quote, and the rest behind it. `taken` are the bytes taken so
far, last first. -/
def takeString (taken : List UInt8) : List UInt8 → Option (List UInt8 × List UInt8)
  | [] => none
  | b :: bs =>
    if b = byteOf '"' then some (taken.reverse, bs)
    else if b = byteOf '\\' then
      match bs with
      | [] => none
      | e :: bs =>
        if escapeLetters.contains e then takeString (e :: b :: taken) bs
        else if e = byteOf 'u' then
          match bs with
          | h1 :: h2 :: h3 :: h4 :: bs =>
            if [h1, h2, h3, h4].all fun h => Text.isHexDigit (charOfByte h) then
              takeString (h4 :: h3 :: h2 :: h1 :: e :: b :: taken) bs
            else none
          | _ => none
        else none
    else if b < 0x20 then none
    else takeString (b :: taken) bs

/-- The character that a letter behind a backslash stands for. -/
def letterEscape (e : UInt8) : Char :=
  if e = byteOf 'b' then '\x08'
  else if e = byteOf 'f' then '\x0c'
  else if e = byteOf 'n' then '\n'
  else if e = byteOf 'r' then '\r'
  else if e = byteOf 't' then '\t'
  else charOfByte e

/-- The value of four digits to the base sixteen. -/
def unitOf (h1 h2 h3 h4 : UInt8) : Nat := Text.hexValue ([h1, h2, h3, h4].map charOfByte)

/-- The bytes that the inside of a string means. Two escapes of a surrogate pair are one character; a
surrogate that stands alone means nothing. -/
def unescape? : List UInt8 → Option (List UInt8)
  | [] => some []
  | b :: bs =>
    if b = byteOf '\\' then
      match bs with
      | [] => none
      | e :: bs =>
        if e = byteOf 'u' then
          match bs with
          | h1 :: h2 :: h3 :: h4 :: bs =>
            let unit := unitOf h1 h2 h3 h4
            if unit < 0xD800 ∨ 0xDFFF < unit then
              (unescape? bs).map fun rest => (String.singleton (Char.ofNat unit)).toUTF8.data.toList ++ rest
            else if 0xDC00 ≤ unit then none
            else
              match bs with
              | s :: u :: g1 :: g2 :: g3 :: g4 :: bs =>
                let low := unitOf g1 g2 g3 g4
                if s = byteOf '\\' ∧ u = byteOf 'u' ∧ 0xDC00 ≤ low ∧ low ≤ 0xDFFF then
                  let code := 0x10000 + (unit - 0xD800) * 0x400 + (low - 0xDC00)
                  (unescape? bs).map fun rest => (String.singleton (Char.ofNat code)).toUTF8.data.toList ++ rest
                else none
              | _ => none
          | _ => none
        else (unescape? bs).map fun rest => (String.singleton (letterEscape e)).toUTF8.data.toList ++ rest
    else (unescape? bs).map (b :: ·)

/-- The text that the inside of a string means, if it means one. -/
def stringText? (raw : List UInt8) : Option String :=
  (unescape? raw).bind fun bytes => Text.strictText? ⟨bytes.toArray⟩

/-! ## Tokens -/

/-- The rest behind the letters of a word. -/
def afterWord? : List Char → List UInt8 → Option (List UInt8)
  | [], bs => some bs
  | _ :: _, [] => none
  | c :: cs, b :: bs => if b = byteOf c then afterWord? cs bs else none

/-- A mark of one byte. -/
def mark? (b : UInt8) : Option Token :=
  if b = byteOf '\x7b' then some .openBrace
  else if b = byteOf '\x7d' then some .closeBrace
  else if b = byteOf '[' then some .openBracket
  else if b = byteOf ']' then some .closeBracket
  else if b = byteOf ',' then some .comma
  else if b = byteOf ':' then some .colon
  else none

/-- The token that begins with a byte, and the rest behind it. -/
def token? (b : UInt8) (bs : List UInt8) : Option (Token × List UInt8) :=
  match mark? b with
  | some mark => some (mark, bs)
  | none =>
    if b = byteOf '"' then (takeString [] bs).map fun read => (.string read.1, read.2)
    else if b = byteOf 'n' then (afterWord? ['u', 'l', 'l'] bs).map fun rest => (.null, rest)
    else if b = byteOf 't' then (afterWord? ['r', 'u', 'e'] bs).map fun rest => (.boolean true, rest)
    else if b = byteOf 'f' then (afterWord? ['a', 'l', 's', 'e'] bs).map fun rest => (.boolean false, rest)
    else if b = byteOf '-' then (afterNumber? bs).map fun rest => (.number, rest)
    else (afterNumber? (b :: bs)).map fun rest => (.number, rest)

/-- The tokens of some bytes. Each takes a byte at least, so `fuel` is greater than their number. `taken` are
the tokens taken so far, last first. -/
def takeTokens : Nat → List Token → List UInt8 → Option (List Token)
  | 0, _, _ => none
  | fuel + 1, taken, bs =>
    match bs.dropWhile isBlankByte with
    | [] => some taken.reverse
    | b :: rest => (token? b rest).bind fun read => takeTokens fuel (read.1 :: taken) read.2

/-- The tokens of some bytes. -/
def tokens? (bytes : ByteArray) : Option (List Token) :=
  takeTokens (bytes.size + 1) [] bytes.data.toList

end Json
end VideoOverlay
