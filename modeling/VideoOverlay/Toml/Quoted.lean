import VideoOverlay.Text.Hex

/-!
# `Toml.Quoted` — reading quoted strings

A string stands between quotes in one of four ways: basic or literal, on one line or on several. In a
basic string a backslash begins an escape; a literal one is taken as it is. A string on several lines
stands between three quotes, loses a line break right after the opening ones, and may end with up to two
more quotes of its own. Line breaks are single characters here: a document is brought to that form first.

Every reader takes the characters from its place on and gives what it has read and the rest.

## Contents
- `isTextChar`, `isBlankInLine`: the classes of characters.
- `readEscape`: what a backslash begins. `continuation?`: a line break that is left out.
- `readBasic`, `readLiteral`, `readBasicLines`, `readLiteralLines`: after the opening quotes.
- `readQuoted`: a string of any form, and `readQuotedKey` one that may be a key.
-/

namespace VideoOverlay
namespace Toml

/-! ## Characters -/

/-- A blank within a line: a space or a tab. -/
def isBlankInLine (c : Char) : Bool := c = ' ' || c = '\t'

/-- A character that strings and comments may hold: no control character but the tab. -/
def isTextChar (c : Char) : Bool := c = '\t' || (0x20 ≤ c.toNat && c.toNat ≠ 0x7F)

/-- The character of a code point, if it is one. -/
def charOfCode? (n : Nat) : Option Char := if n.isValidChar then some (Char.ofNat n) else none

/-! ## Escapes -/

/-- The character that an escape of one letter stands for. -/
def letterEscape? (c : Char) : Option Char :=
  if c = 'b' then some '\x08'
  else if c = 't' then some '\t'
  else if c = 'n' then some '\n'
  else if c = 'f' then some '\x0c'
  else if c = 'r' then some '\r'
  else if c = '"' then some '"'
  else if c = '\\' then some '\\'
  else none

/-- The character of a code point written with `n` digits to the base sixteen. -/
def readCode (n : Nat) (cs : List Char) : Option (Char × List Char) :=
  let ds := cs.take n
  if ds.length = n ∧ ds.all Text.isHexDigit then (charOfCode? (Text.hexValue ds)).map fun c => (c, cs.drop n)
  else none

/-- The character that an escape stands for, read after its backslash. -/
def readEscape : List Char → Option (Char × List Char)
  | [] => none
  | c :: cs =>
    if c = 'u' then readCode 4 cs
    else if c = 'U' then readCode 8 cs
    else (letterEscape? c).map fun d => (d, cs)

/-- An escape takes at least the character after the backslash. -/
theorem length_readEscape_lt {cs rest : List Char} {c : Char} (h : readEscape cs = some (c, rest)) :
    rest.length < cs.length := by
  have hcode : ∀ {n : Nat} {ds : List Char}, readCode n ds = some (c, rest) → rest.length ≤ ds.length := by
    intro n ds hr
    simp only [readCode] at hr
    split at hr
    · obtain ⟨_, _, he⟩ := Option.map_eq_some_iff.1 hr
      cases he
      rw [List.length_drop]; exact Nat.sub_le _ _
    · cases hr
  cases cs with
  | nil => cases h
  | cons d ds =>
    rw [List.length_cons, Nat.lt_succ_iff]
    simp only [readEscape] at h
    split at h
    · exact hcode h
    split at h
    · exact hcode h
    · obtain ⟨_, _, he⟩ := Option.map_eq_some_iff.1 h
      cases he
      exact Nat.le_refl _

/-- What follows a line break that is left out, read after its backslash: blanks may stand before the break,
and the blanks and breaks after it are left out as well. -/
def continuation? (cs : List Char) : Option (List Char) :=
  match cs.dropWhile isBlankInLine with
  | [] => none
  | c :: rest => if c = '\n' then some (rest.dropWhile fun d => isBlankInLine d || d = '\n') else none

/-- A line break that is left out is shortened away. -/
theorem length_continuation_lt {cs rest : List Char} (h : continuation? cs = some rest) :
    rest.length < cs.length := by
  simp only [continuation?] at h
  split at h
  case h_1 => cases h
  case h_2 c more hd =>
    split at h
    case isFalse => cases h
    case isTrue =>
      cases h
      have hdrop := (List.dropWhile_sublist (l := cs) isBlankInLine).length_le
      have hrest := (List.dropWhile_sublist (l := more) fun d => isBlankInLine d || d = '\n').length_le
      rw [hd, List.length_cons] at hdrop
      omega

/-! ## On one line -/

/-- One more character in front of what was read. -/
def pushFront (c : Char) (read : List Char × List Char) : List Char × List Char := (c :: read.1, read.2)

/-- A basic string up to its closing quote. -/
def readBasic : List Char → Option (List Char × List Char)
  | [] => none
  | c :: cs =>
    if c = '"' then some ([], cs)
    else if c = '\\' then
      match _escape : readEscape cs with
      | some (d, rest) => (readBasic rest).map (pushFront d)
      | none => none
    else if isTextChar c then (readBasic cs).map (pushFront c)
    else none
  termination_by cs => cs.length
  decreasing_by
    · exact Nat.lt_succ_of_lt (length_readEscape_lt _escape)
    · exact Nat.lt_succ_self _

/-- A literal string up to its closing quote. -/
def readLiteral (cs : List Char) : Option (List Char × List Char) :=
  let body := cs.takeWhile (· ≠ '\'')
  match cs.dropWhile (· ≠ '\'') with
  | [] => none
  | _ :: rest => if body.all isTextChar then some (body, rest) else none

/-! ## On several lines -/

/-- Three quotes in front of the rest. -/
def afterTriple? (quote : Char) (cs : List Char) : Option (List Char) :=
  if cs.take 3 = [quote, quote, quote] then some (cs.drop 3) else none

/-- The quotes, at most two, that a string holds right before the three that close it, when those three have
been read in front of them. -/
def closingQuotes (quote : Char) (cs : List Char) : List Char × List Char :=
  let own := (cs.take 2).takeWhile (· = quote)
  (own, cs.drop own.length)

/-- The rest after a line break right behind the opening quotes. -/
def dropLineBreak : List Char → List Char
  | [] => []
  | c :: cs => if c = '\n' then cs else c :: cs

/-- A basic string on several lines, up to its closing quotes. -/
def readBasicLines : List Char → Option (List Char × List Char)
  | [] => none
  | c :: cs =>
    match afterTriple? '"' (c :: cs) with
    | some rest => some (closingQuotes '"' rest)
    | none =>
      if c = '\\' then
        match _break : continuation? cs with
        | some rest => readBasicLines rest
        | none =>
          match _escape : readEscape cs with
          | some (d, rest) => (readBasicLines rest).map (pushFront d)
          | none => none
      else if isTextChar c || c = '\n' then (readBasicLines cs).map (pushFront c)
      else none
  termination_by cs => cs.length
  decreasing_by
    · exact Nat.lt_succ_of_lt (length_continuation_lt _break)
    · exact Nat.lt_succ_of_lt (length_readEscape_lt _escape)
    · exact Nat.lt_succ_self _

/-- A literal string on several lines, up to its closing quotes. -/
def readLiteralLines : List Char → Option (List Char × List Char)
  | [] => none
  | c :: cs =>
    match afterTriple? '\'' (c :: cs) with
    | some rest => some (closingQuotes '\'' rest)
    | none =>
      if isTextChar c || c = '\n' then (readLiteralLines cs).map (pushFront c) else none

/-! ## Any form -/

/-- A string on one line, with its opening quote. -/
def readQuotedKey : List Char → Option (List Char × List Char)
  | [] => none
  | c :: cs =>
    if c = '"' then readBasic cs
    else if c = '\'' then readLiteral cs
    else none

/-- A string of any form, with its opening quotes. -/
def readQuoted (cs : List Char) : Option (List Char × List Char) :=
  match afterTriple? '"' cs with
  | some rest => readBasicLines (dropLineBreak rest)
  | none =>
    match afterTriple? '\'' cs with
    | some rest => readLiteralLines (dropLineBreak rest)
    | none => readQuotedKey cs

end Toml
end VideoOverlay
