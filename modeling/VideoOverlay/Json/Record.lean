import VideoOverlay.Json.Token

/-!
# `Json.Record` — records and lists, read where they are asked for

A value is kept as its tokens until its type is known. A value that nobody asks for is only checked for its
form, however deep it nests: the brackets and braces that are open are kept in a list. A record is written as
an object, where unknown keys do not matter and a known one stands at most once, or as a list of exactly its
fields in their order.

## Contents
- `skipValue`, `takeValue?`: a value and what stands behind it.
- `members?`, `items?`: the inside of objects and lists.
- `Fields`, `fields?`: a record. `Fields.get?`: one of its fields.
- `optionalText?`: a text that may be missing.
-/

namespace VideoOverlay
namespace Json

/-! ## Skipping -/

/-- What is open around a place in a value. -/
inductive Nest where
  | list
  | object
  deriving DecidableEq

/-- What may stand at a place in a value. -/
inductive Expect where
  | value
  | firstItem
  | key
  | firstKey
  | colon
  | separator
  deriving DecidableEq

/-- The tokens behind a value. Each step takes one token. -/
def skipValue : Expect → List Nest → List Token → Option (List Token)
  | _, _, [] => none
  | expect, nests, t :: ts =>
    match expect, t with
    -- An empty list or object ends right after it was opened.
    | .firstItem, .closeBracket | .firstKey, .closeBrace =>
      match nests.tail with
      | [] => some ts
      | outer => skipValue .separator outer ts
    | .value, .openBracket | .firstItem, .openBracket => skipValue .firstItem (.list :: nests) ts
    | .value, .openBrace | .firstItem, .openBrace => skipValue .firstKey (.object :: nests) ts
    | .value, .null | .value, .boolean _ | .value, .number | .value, .string _
    | .firstItem, .null | .firstItem, .boolean _ | .firstItem, .number | .firstItem, .string _ =>
      match nests with
      | [] => some ts
      | nests => skipValue .separator nests ts
    | .key, .string _ | .firstKey, .string _ => skipValue .colon nests ts
    | .colon, .colon => skipValue .value nests ts
    | .separator, .comma =>
      match nests with
      | .list :: _ => skipValue .value nests ts
      | .object :: _ => skipValue .key nests ts
      | [] => none
    | .separator, .closeBracket =>
      match nests with
      | .list :: [] => some ts
      | .list :: outer => skipValue .separator outer ts
      | _ => none
    | .separator, .closeBrace =>
      match nests with
      | .object :: [] => some ts
      | .object :: outer => skipValue .separator outer ts
      | _ => none
    | _, _ => none

/-- The tokens of the value at the front, and those behind it. -/
def takeValue? (ts : List Token) : Option (List Token × List Token) :=
  (skipValue .value [] ts).map fun rest => (ts.take (ts.length - rest.length), rest)

/-! ## Objects and lists -/

/-- The keys of an object and their values, behind its opening brace and a first look at what follows. Each
takes a token at least, so `fuel` is the number of tokens. -/
def takeMembers : Nat → List Token → Option (List (String × List Token))
  | 0, _ => none
  | fuel + 1, ts =>
    match ts with
    | .string raw :: .colon :: ts => do
      let key ← stringText? raw
      let (value, rest) ← takeValue? ts
      match rest with
      | [.closeBrace] => return [(key, value)]
      | .comma :: rest =>
        let members ← takeMembers fuel rest
        return (key, value) :: members
      | _ => none
    | _ => none

/-- The keys of an object and their values, if the tokens are those of an object. -/
def members? : List Token → Option (List (String × List Token))
  | [.openBrace, .closeBrace] => some []
  | .openBrace :: ts => takeMembers ts.length ts
  | _ => none

/-- The items of a list behind its opening bracket and a first look at what follows. Each takes a token at
least, so `fuel` is the number of tokens. -/
def takeItems : Nat → List Token → Option (List (List Token))
  | 0, _ => none
  | fuel + 1, ts => do
    let (item, rest) ← takeValue? ts
    match rest with
    | [.closeBracket] => return [item]
    | .comma :: rest =>
      let items ← takeItems fuel rest
      return item :: items
    | _ => none

/-- The items of a list, if the tokens are those of a list. -/
def items? : List Token → Option (List (List Token))
  | [.openBracket, .closeBracket] => some []
  | .openBracket :: ts => takeItems ts.length ts
  | _ => none

/-! ## Records -/

/-- The fields of a record and their values. -/
abbrev Fields := List (String × List Token)

/-- The fields of a record with the given names. -/
def fields? (names : List String) (ts : List Token) : Option Fields :=
  match members? ts with
  | some members =>
    if names.all fun name => (members.filter fun m => m.1 = name).length ≤ 1 then some members else none
  | none => (items? ts).bind fun items =>
    if items.length = names.length then some (names.zip items) else none

/-- The value of a field. -/
def Fields.get? (name : String) (fields : Fields) : Option (List Token) := List.lookup name fields

/-- A text, or nothing where none is given. -/
def optionalText? : Option (List Token) → Option (Option String)
  | none => some none
  | some [.null] => some none
  | some [.string raw] => (stringText? raw).map some
  | some _ => none

end Json
end VideoOverlay
