import VideoOverlay.Toml.Quoted

/-!
# `Toml.Writer` — writing strings

A string is written in the plainest form that can hold it: basic, literal, basic on several lines, literal
on several lines. One that no form can hold as it is, is written with escapes. A string on several lines
that has a line break itself begins on a line of its own.

## Contents
- `isControl`, `StringForm`, `formOf`: which form is taken.
- `escapeChar`, `escapeLine`, `escapeLines`: the inside of basic strings.
- `writeString`: a string with its quotes.
-/

namespace VideoOverlay
namespace Toml

/-! ## Forms -/

/-- A control character other than tab and line break. -/
def isControl (c : Char) : Bool := (c.toNat < 0x20 && c ≠ '\t' && c ≠ '\n') || c.toNat = 0x7F

/-- The four ways to write a string. -/
inductive StringForm where
  | basic
  | literal
  | basicLines
  | literalLines
  deriving DecidableEq, Repr

/-- Whether a character stands three times in a row. -/
def hasTriple (quote : Char) : List Char → Bool
  | [] => false
  | c :: cs => (afterTriple? quote (c :: cs)).isSome || hasTriple quote cs

/-- The form a string is written in. -/
def formOf (cs : List Char) : StringForm :=
  let control := cs.any isControl
  let oneLine := !cs.contains '\n'
  if !control && oneLine && !cs.contains '\\' && !cs.contains '"' then .basic
  else if !control && oneLine && !cs.contains '\'' then .literal
  else if !control && !cs.contains '\\' && !hasTriple '"' cs then .basicLines
  else if !control && !hasTriple '\'' cs then .literalLines
  else if oneLine then .basic
  else .basicLines

/-! ## Escapes -/

/-- A character as it stands in a basic string on one line. -/
def escapeChar (c : Char) : List Char :=
  if c = '\x08' then ['\\', 'b']
  else if c = '\t' then ['\\', 't']
  else if c = '\n' then ['\\', 'n']
  else if c = '\x0c' then ['\\', 'f']
  else if c = '\r' then ['\\', 'r']
  else if c = '"' then ['\\', '"']
  else if c = '\\' then ['\\', '\\']
  else if isControl c then ['\\', 'u', '0', '0', Text.hexDigit (c.toNat / 16), Text.hexDigit (c.toNat % 16)]
  else [c]

/-- The inside of a basic string on one line. -/
def escapeLine (cs : List Char) : List Char := cs.flatMap escapeChar

/-- The inside of a basic string on several lines. Line breaks stand as they are, and so do quotes but for the
third of three in a row; `quotes` is the number of those right in front. -/
def escapeLines : Nat → List Char → List Char
  | _, [] => []
  | quotes, c :: cs =>
    if c = '"' then
      if quotes = 2 then '\\' :: '"' :: escapeLines 0 cs else '"' :: escapeLines (quotes + 1) cs
    else if c = '\n' then '\n' :: escapeLines 0 cs
    else escapeChar c ++ escapeLines 0 cs

/-! ## Strings -/

/-- The line break behind the opening quotes of a string on several lines, if it has one itself. -/
def leadingBreak (cs : List Char) : List Char := if cs.contains '\n' then ['\n'] else []

/-- A string in the given form, with its quotes. -/
def writeIn (form : StringForm) (cs : List Char) : List Char :=
  match form with
  | .basic => '"' :: escapeLine cs ++ ['"']
  | .literal => '\'' :: cs ++ ['\'']
  | .basicLines => ['"', '"', '"'] ++ leadingBreak cs ++ escapeLines 0 cs ++ ['"', '"', '"']
  | .literalLines => ['\'', '\'', '\''] ++ leadingBreak cs ++ cs ++ ['\'', '\'', '\'']

/-- A string as it is written. -/
def writeString (s : String) : String := String.ofList (writeIn (formOf s.toList) s.toList)

/-- A truth value as it is written. -/
def writeBool (b : Bool) : String := if b then "true" else "false"

end Toml
end VideoOverlay
