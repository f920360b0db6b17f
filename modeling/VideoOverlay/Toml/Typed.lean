import VideoOverlay.Toml.Value

/-!
# `Toml.Typed` — values of an expected type

What a document's reader asks of a value: a text, a number of some range, a truth value. A number with a
point may be written without one, but not the other way round. A record may also be written as an array
of its fields in their order.

## Contents
- `Value.string?`, `Value.boolean?`, `Value.float?`, `Value.int32?`, `Value.word32?`.
- `Value.elements?`: a list, in brackets or made by headers.
- `Value.fields?`: a record with the given fields. `Entries.optional`: a field that may be missing.
-/

namespace VideoOverlay
namespace Toml

namespace Value

/-! ## Single values -/

/-- A text. -/
def string? : Value → Option String
  | .string s => some s
  | _ => none

/-- A truth value. -/
def boolean? : Value → Option Bool
  | .scalar (.boolean b) => some b
  | _ => none

/-- A double; a whole number stands for the nearest one. -/
def float? : Value → Option Binary64
  | .scalar (.float x) => some x
  | .scalar (.integer n) => some (.ofInt n)
  | _ => none

/-- A whole number. -/
def integer? : Value → Option Int
  | .scalar (.integer n) => some n
  | _ => none

/-- A signed number of 32 bits. -/
def int32? (v : Value) : Option Int := v.integer?.filter fun n => -2147483648 ≤ n && n < 2147483648

/-- An unsigned number of 32 bits. -/
def word32? (v : Value) : Option UInt32 :=
  (v.integer?.filter fun n => 0 ≤ n && n < 4294967296).map fun n => UInt32.ofNat n.toNat

/-! ## Lists and records -/

/-- The elements of a list. -/
def elements? : Value → Option (List Value)
  | .array items => some items
  | .tables elements => some (elements.map (.table .header))
  | _ => none

/-- The fields of a record: those of a table, or the elements of a list in the order of the names. A date
holds no field of any record. -/
def fields? (names : List String) : Value → Option Entries
  | .table _ entries => some entries
  | .scalar .dateTime => some []
  | v => v.elements?.map (names.zip ·)

end Value

/-- A field that may be missing, but must have the expected type if it is there. -/
def Entries.optional {α : Type} (entries : Entries) (name : String) (expected : Value → Option α) :
    Option (Option α) :=
  match entries.find? name with
  | none => some none
  | some v => (expected v).map some

end Toml
end VideoOverlay
