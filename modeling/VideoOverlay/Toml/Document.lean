import VideoOverlay.Toml.Nested

/-!
# `Toml.Document` — documents

A document is read as a list of lines: headers, which open a table or one more table of a list, and pairs,
which go to the table opened last. The table of all is then built from them, in order.

## Contents
- `Line`, `readLines`: the lines of a document.
- `openTable`, `openElement`, `addLine`: what a line does to the table of all.
- `parse?`: the table of all.
-/

namespace VideoOverlay
namespace Toml

/-! ## Lines -/

/-- A line of a document. -/
inductive Line where
  | table (path : KeyPath)
  | element (path : KeyPath)
  | pair (path : KeyPath) (value : Value)

/-- The rest behind the end of a line, before which a comment may stand. -/
def afterLine? (cs : List Char) : Option (List Char) :=
  let rest := match skipInLine cs with
    | '#' :: comment => comment.dropWhile isTextChar
    | rest => rest
  match rest with
  | [] => some []
  | c :: rest => if c = '\n' then some rest else none

/-- The rest behind closing brackets. -/
def afterBrackets? : List Char → List Char → Option (List Char)
  | [], cs => some cs
  | b :: bs, cs => (readChar b cs).bind (afterBrackets? bs)

/-- A header behind its opening brackets. -/
def readHeader (closing : List Char) (cs : List Char) : Option (KeyPath × List Char) := do
  let (path, rest) ← readKeyPath cs
  let rest ← afterBrackets? closing rest
  let rest ← afterLine? rest
  return (path, rest)

/-- One line. -/
def readLine (cs : List Char) : Option (Line × List Char) :=
  match cs with
  | '[' :: '[' :: rest => (readHeader [']', ']'] rest).map fun read => (.element read.1, read.2)
  | '[' :: rest => (readHeader [']'] rest).map fun read => (.table read.1, read.2)
  | _ => do
    let ((path, value), rest) ← readPair (readValue depthLimit) cs
    let rest ← afterLine? rest
    return (.pair path value, rest)

/-- All lines. Each takes a character at least, so `fuel` is greater than the length of the text. -/
def readLines : Nat → List Char → Option (List Line)
  | 0, _ => none
  | fuel + 1, cs =>
    match skipBlank cs with
    | [] => some []
    | body => do
      let (line, rest) ← readLine body
      let lines ← readLines fuel rest
      return line :: lines

/-! ## The table of all -/

/-- A table opened by its header. It must be new, or only have been a passage to others, which it keeps. -/
def openTable (name : String) (_ : Origin) (entries : Entries) : Option Entries :=
  match entries.find? name with
  | none => some (entries ++ [(name, .table .header [])])
  | some (.table .passage inner) => some (entries.put name (.table .header inner))
  | some _ => none

/-- One more table of a list of tables, which may be new. -/
def openElement (name : String) (_ : Origin) (entries : Entries) : Option Entries :=
  match entries.find? name with
  | none => some (entries ++ [(name, .tables [[]])])
  | some (.tables elements) => some (entries.put name (.tables (elements ++ [[]])))
  | some _ => none

/-- The table of all, and the path to the table that was opened last. -/
structure Draft where
  opened : List String
  entries : Entries

/-- What a line does. -/
def addLine (d : Draft) : Line → Option Draft
  | .table path =>
    (changeAt false (openTable path.name) path.parents .header d.entries).map fun entries =>
      ⟨path.parts, entries⟩
  | .element path =>
    (changeAt false (openElement path.name) path.parents .header d.entries).map fun entries =>
      ⟨path.parts, entries⟩
  | .pair path value =>
    (changeAt false (addPair path value) d.opened .header d.entries).map fun entries =>
      ⟨d.opened, entries⟩

/-- The table of all, built from its lines. -/
def ofLines (lines : List Line) : Option Entries :=
  (lines.foldlM addLine ⟨[], []⟩).map Draft.entries

/-! ## Text -/

/-- The text with every line break as one character. -/
def unifyLineBreaks : List Char → List Char
  | '\r' :: '\n' :: cs => '\n' :: unifyLineBreaks cs
  | c :: cs => c :: unifyLineBreaks cs
  | [] => []

/-- The text without the mark of its byte order at the front. -/
def dropByteOrderMark : List Char → List Char
  | [] => []
  | c :: cs => if c = '\ufeff' then cs else c :: cs

/-- The table of all that a text is the document of. -/
def parse? (text : String) : Option Entries :=
  let cs := unifyLineBreaks (dropByteOrderMark text.toList)
  (readLines (cs.length + 1) cs).bind ofLines

end Toml
end VideoOverlay
