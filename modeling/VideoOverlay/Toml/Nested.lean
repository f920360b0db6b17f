import VideoOverlay.Toml.Value

/-!
# `Toml.Nested` — reading keys, arrays and tables in braces

An array may run over several lines, with comments, and may end with a comma; a table in braces may do
none of that. Values nest at most `depthLimit` deep, and a dotted key has at most as many parts.

## Contents
- `skipBlank`: blanks, line breaks and comments.
- `readKey`, `readKeyPath`: keys.
- `readItems`, `readPairs`: the inside of brackets and of braces.
- `readValue`: any value.
-/

namespace VideoOverlay
namespace Toml

/-! ## Blanks and comments -/

/-- The rest behind blanks and line breaks, and behind comments, which run to the end of their lines. -/
def skipBlankFrom : Bool → List Char → List Char
  | _, [] => []
  | true, c :: cs =>
    if isTextChar c then skipBlankFrom true cs
    else if c = '\n' then skipBlankFrom false cs
    else c :: cs
  | false, c :: cs =>
    if isBlankInLine c || c = '\n' then skipBlankFrom false cs
    else if c = '#' then skipBlankFrom true cs
    else c :: cs

/-- The rest behind blanks, line breaks and comments. -/
def skipBlank (cs : List Char) : List Char := skipBlankFrom false cs

/-- The rest behind the blanks of a line. -/
def skipInLine (cs : List Char) : List Char := cs.dropWhile isBlankInLine

/-! ## Keys -/

/-- How deep values nest, and how many parts a key has, at most. -/
def depthLimit : Nat := 79

/-- A character of a key without quotes. -/
def isBareChar (c : Char) : Bool := c.isAlphanum || c = '_' || c = '-'

/-- A key, bare or in quotes. -/
def readKey (cs : List Char) : Option (String × List Char) :=
  match readQuotedKey cs with
  | some (key, rest) => some (String.ofList key, rest)
  | none =>
    let bare := cs.takeWhile isBareChar
    if bare = [] then none else some (String.ofList bare, cs.dropWhile isBareChar)

/-- The parts of a dotted key. Each part takes a character at least, so `fuel` is the length of the text. -/
def readKeyParts : Nat → List Char → Option (KeyPath × List Char)
  | 0, _ => none
  | fuel + 1, cs => do
    let (key, rest) ← readKey (skipInLine cs)
    match skipInLine rest with
    | '.' :: rest =>
      let (path, rest) ← readKeyParts fuel rest
      return (⟨key :: path.parents, path.name⟩, rest)
    | rest => return (⟨[], key⟩, rest)

/-- A dotted key that has not too many parts. -/
def readKeyPath (cs : List Char) : Option (KeyPath × List Char) :=
  (readKeyParts cs.length cs).filter fun read => read.1.parts.length ≤ depthLimit

/-! ## Brackets and braces -/

/-- Something read from the front of a text, and the rest behind it. -/
abbrev Reader (α : Type) := List Char → Option (α × List Char)

/-- The items of an array behind its opening bracket. Each takes a character at least, so `fuel` is the
length of the text. -/
def readItems (readItem : Reader Value) : Nat → Reader (List Value)
  | 0, _ => none
  | fuel + 1, cs =>
    match skipBlank cs with
    | ']' :: rest => some ([], rest)
    | body => do
      let (item, rest) ← readItem body
      match skipBlank rest with
      | ']' :: rest => return ([item], rest)
      | ',' :: rest =>
        let (items, rest) ← readItems readItem fuel rest
        return (item :: items, rest)
      | _ => none

/-- A dotted key, a sign of equality, and a value. -/
def readPair (readItem : Reader Value) (cs : List Char) : Option ((KeyPath × Value) × List Char) := do
  let (path, rest) ← readKeyPath cs
  match rest with
  | '=' :: rest =>
    let (value, rest) ← readItem (skipInLine rest)
    return ((path, value), rest)
  | _ => none

/-- The pairs of a table in braces behind its opening brace, at least one. Each takes a character at least,
so `fuel` is the length of the text. -/
def readPairs (readItem : Reader Value) : Nat → Reader (List (KeyPath × Value))
  | 0, _ => none
  | fuel + 1, cs => do
    let (pair, rest) ← readPair readItem cs
    match skipInLine rest with
    | '}' :: rest => return ([pair], rest)
    | ',' :: rest =>
      let (pairs, rest) ← readPairs readItem fuel rest
      return (pair :: pairs, rest)
    | _ => none

/-- The table of some pairs in braces. -/
def tableOfPairs (pairs : List (KeyPath × Value)) : Option Value :=
  (pairs.foldlM (fun entries pair => addPair pair.1 pair.2 .braces entries) []).map (.table .braces)

/-- The pairs of a table in braces behind its opening brace. -/
def readBraces (readItem : Reader Value) (cs : List Char) : Option (Value × List Char) :=
  match skipInLine cs with
  | '}' :: rest => some (.table .braces [], rest)
  | body => do
    let (pairs, rest) ← readPairs readItem body.length body
    let table ← tableOfPairs pairs
    return (table, rest)

/-- A value that is not nested. -/
def readFlat (cs : List Char) : Option (Value × List Char) :=
  match readQuoted cs with
  | some (s, rest) => some (.string (String.ofList s), rest)
  | none => (readScalar cs).map fun read => (.scalar read.1, read.2)

/-- Any value that nests at most so deep. -/
def readValue : Nat → Reader Value
  | 0 => readFlat
  | depth + 1 => fun cs =>
    match cs with
    | '[' :: rest => (readItems (readValue depth) rest.length rest).map fun read => (.array read.1, read.2)
    | '{' :: rest => readBraces (readValue depth) rest
    | _ => readFlat cs

end Toml
end VideoOverlay
