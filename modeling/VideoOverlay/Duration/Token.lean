import VideoOverlay.Number.Numeral

/-!
# `Duration.Token` — times that wait for the length of the video

A fade-out that ends with the main video starts at a time that is known only once the length of the
video is. Until then a *token* stands for it: the head `{VIDEO_LENGTH`, then nothing or a minus sign and a
finite offset that is not negative, then a closing brace. Text that merely looks like a token is plain.

Two scanners look for tokens, one for the first of them and one for all. Each looks for a head, then for the
closing brace behind it, and goes on behind a head that opens no token.

## Contents
- `secondsText`, `secondsBefore`: seconds rounded to milliseconds, and those left before an end.
- `tokenText`: the token of an offset. `offsetOf?`: the offset in the body of a token.
- `splitHead?`, `splitClosing?`: a text before and behind its first head, or its first closing brace.
- `findToken?`, `findTokenText?`: the first token in a text.
- `resolveChars`, `resolve`: every token replaced by the time it stands for.
-/

namespace VideoOverlay
namespace Duration

/-! ## Seconds -/

/-- The number of milliseconds in a second. -/
def thousand : Binary64 := Binary64.ofRatio false 1000 1

/-- Seconds rounded to whole milliseconds. -/
def secondsText (x : Binary64) : String := ((x.mul thousand).roundWhole.div thousand).text

/-- The seconds left at `offset` before `finish`, never less than zero. -/
def secondsBefore (finish offset : Binary64) : String := secondsText ((finish.sub offset).max .zero)

/-! ## Tokens -/

/-- What a token begins with. -/
def head : List Char := "\x7bVIDEO_LENGTH".toList

/-- What a token ends with. -/
def closing : Char := '}'

/-- The characters between head and closing brace of the token of an offset. -/
def bodyText (offset : Binary64) : List Char :=
  if offset.eq .zero then [] else '-' :: offset.chars

/-- The token that stands for the length of the video less an offset. -/
def tokenText (offset : Binary64) : String := String.ofList (head ++ bodyText offset ++ [closing])

/-- The offset that a token's body gives: none is zero, and one must be finite and not negative. -/
def offsetOf? : List Char → Option Binary64
  | [] => some .zero
  | c :: cs =>
    if c = '-' then (Binary64.ofChars? cs).filter fun x => x.isFinite && Binary64.le .zero x else none

/-- A token found in a text, and the text after it. -/
structure Token where
  body : List Char
  offset : Binary64
  rest : List Char

/-- The whole token. -/
def Token.chars (t : Token) : List Char := head ++ t.body ++ [closing]

/-! ## Searching -/

/-- What stands before the first head of a text, and what stands behind it. -/
def splitHead? : List Char → Option (List Char × List Char)
  | [] => none
  | c :: cs =>
    if head.isPrefixOf (c :: cs) then some ([], (c :: cs).drop head.length)
    else (splitHead? cs).map fun parts => (c :: parts.1, parts.2)

/-- What stands before the first closing brace of a text, and what stands behind it. -/
def splitClosing? (cs : List Char) : Option (List Char × List Char) :=
  match cs.dropWhile (· ≠ closing) with
  | [] => none
  | _ :: rest => some (cs.takeWhile (· ≠ closing), rest)

/-- A text is put together from what stands before its first head, the head, and what stands behind it. -/
theorem eq_of_splitHead? {cs front after : List Char} (h : splitHead? cs = some (front, after)) :
    cs = front ++ head ++ after := by
  induction cs generalizing front with
  | nil => cases h
  | cons c cs ih =>
    rw [splitHead?] at h
    split at h
    next hhead =>
      cases h
      exact (List.prefix_iff_eq_append.mp (List.isPrefixOf_iff_prefix.mp hhead)).symm
    next =>
      obtain ⟨parts, hparts, heq⟩ := Option.map_eq_some_iff.mp h
      cases heq
      rw [ih hparts, List.cons_append, List.cons_append]

/-- A text is put together from what stands before its first closing brace, the brace, and what stands behind. -/
theorem eq_of_splitClosing? {cs body rest : List Char} (h : splitClosing? cs = some (body, rest)) :
    cs = body ++ closing :: rest := by
  unfold splitClosing? at h
  split at h
  next => cases h
  next c rest hdrop =>
    cases h
    have hc : c = closing := by
      have hstop := List.head?_dropWhile_not (fun d => decide (d ≠ closing)) cs
      rw [hdrop] at hstop
      simpa using hstop
    have hsplit := List.takeWhile_append_dropWhile (p := fun d => decide (d ≠ closing)) (l := cs)
    rw [hdrop, hc] at hsplit
    exact hsplit.symm

theorem length_behind_head_lt {cs : List Char} {parts : List Char × List Char} (h : splitHead? cs = some parts) :
    parts.2.length < cs.length := by
  have hhead : 0 < head.length := by decide
  rw [eq_of_splitHead? h, List.length_append, List.length_append]
  omega

/-- The first token in a text. The search gives up at a head that no closing brace follows, and goes on behind a
head that opens no token. -/
def findToken? (cs : List Char) : Option Token :=
  match _found : splitHead? cs with
  | none => none
  | some parts =>
    match splitClosing? parts.2 with
    | none => none
    | some (body, rest) =>
      match offsetOf? body with
      | some offset => some ⟨body, offset, rest⟩
      | none => findToken? parts.2
  termination_by cs.length
  decreasing_by exact length_behind_head_lt _found

/-- The first token in a text, as text. -/
def findTokenText? (s : String) : Option String :=
  (findToken? s.toList).map fun t => String.ofList t.chars

/-! ## Resolution -/

/-- What a token gives that is opened by the head before a text: its offset, and what follows it. -/
def opened? (after : List Char) : Option (Binary64 × List Char) :=
  (splitClosing? after).bind fun parts => (offsetOf? parts.1).map fun offset => (offset, parts.2)

theorem length_rest_lt_of_opened? {after rest : List Char} {offset : Binary64}
    (h : opened? after = some (offset, rest)) : rest.length < after.length := by
  obtain ⟨parts, hparts, hoffset⟩ := Option.bind_eq_some_iff.mp h
  obtain ⟨_, _, heq⟩ := Option.map_eq_some_iff.mp hoffset
  cases heq
  rw [eq_of_splitClosing? hparts, List.length_append, List.length_cons]
  omega

/-- Every token replaced by the seconds it stands for, given the length of the video. A head that opens no token is
copied, and the search goes on behind it. -/
def resolveChars (length : Binary64) (cs : List Char) : List Char :=
  match _found : splitHead? cs with
  | none => cs
  | some parts =>
    match _opened : opened? parts.2 with
    | some (offset, rest) => parts.1 ++ (secondsBefore length offset).toList ++ resolveChars length rest
    | none => parts.1 ++ head ++ resolveChars length parts.2
  termination_by cs.length
  decreasing_by
    · exact Nat.lt_trans (length_rest_lt_of_opened? _opened) (length_behind_head_lt _found)
    · exact length_behind_head_lt _found

/-- Every token of a text replaced by the seconds it stands for, given the length of the video. -/
def resolve (s : String) (length : Binary64) : String := String.ofList (resolveChars length s.toList)

end Duration
end VideoOverlay
