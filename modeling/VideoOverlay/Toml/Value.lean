import VideoOverlay.Toml.Scalar

/-!
# `Toml.Value` — values, tables and the keys that lead to them

A table is a list of keys with values, no key twice. Where a table came from decides who may add to it:
one opened by a header, one only named on the way to another, one made by dotted keys, and one written
in braces. A key with dots leads through tables; those that are missing are made on the way.

## Contents
- `Origin`, `Value`, `Entries`: values and tables.
- `find?`, `put`: a key's value, and the table with another.
- `KeyPath`: a key with dots.
- `changeAt`: a change made to the table at the end of a path. `addPair`: a value put at a dotted key.
-/

namespace VideoOverlay
namespace Toml

/-! ## Values -/

/-- How a table came to be: by a header of its own, on the way to a table with a header, by dotted keys,
or in braces. -/
inductive Origin where
  | header
  | passage
  | dotted
  | braces
  deriving DecidableEq, Repr

/-- A value. A list of tables is made by headers in double brackets. -/
inductive Value where
  | string (s : String)
  | scalar (value : Scalar)
  | array (items : List Value)
  | table (origin : Origin) (entries : List (String × Value))
  | tables (elements : List (List (String × Value)))

/-- The keys of a table and their values. -/
abbrev Entries := List (String × Value)

/-- The value of a key. -/
def Entries.find? (key : String) (entries : Entries) : Option Value := List.lookup key entries

/-- The table with another value for a key that it has. -/
def Entries.put (key : String) (value : Value) (entries : Entries) : Entries :=
  entries.map fun e => if e.1 = key then (key, value) else e

/-- A dotted key: the tables it leads through, and the key in the last of them. -/
structure KeyPath where
  parents : List String
  name : String
  deriving DecidableEq, Repr

/-- All parts of a dotted key. -/
def KeyPath.parts (p : KeyPath) : List String := p.parents ++ [p.name]

/-! ## Changes to nested tables -/

/-- The table with a change made to the one at the end of a path. A list of tables stands for its last one.
Tables that are missing are made, by dotted keys or as a passage; a path of dotted keys does not lead
through a table that a header opened, and no path leads through braces. -/
def changeAt (byDots : Bool) (change : Origin → Entries → Option Entries) :
    List String → Origin → Entries → Option Entries
  | [], origin, entries => change origin entries
  | key :: path, _, entries =>
    match entries.find? key with
    | none =>
      let origin := if byDots then .dotted else .passage
      (changeAt byDots change path origin []).map fun inner => entries ++ [(key, .table origin inner)]
    | some (.table origin inner) =>
      -- Dotted keys extend only what dotted keys have made, or what no header has opened yet.
      if origin = .braces ∨ (byDots ∧ origin = .header) then none
      else (changeAt byDots change path origin inner).map fun next => entries.put key (.table origin next)
    | some (.tables elements) =>
      match elements.getLast? with
      | none => none
      | some last =>
        (changeAt byDots change path .header last).map fun next =>
          entries.put key (.tables (elements.dropLast ++ [next]))
    | some _ => none

/-- The table with a new key. A table made by dotted keys is added to by dotted keys only, and other tables
by plain keys only. -/
def addEntry (throughDots : Bool) (key : String) (value : Value) (origin : Origin) (entries : Entries) :
    Option Entries :=
  if throughDots = decide (origin = .dotted) ∧ (entries.find? key).isNone then
    some (entries ++ [(key, value)])
  else none

/-- The table with a value put at a dotted key, which must be new. -/
def addPair (path : KeyPath) (value : Value) (origin : Origin) (entries : Entries) : Option Entries :=
  changeAt true (addEntry (!path.parents.isEmpty) path.name value) path.parents origin entries

end Toml
end VideoOverlay
