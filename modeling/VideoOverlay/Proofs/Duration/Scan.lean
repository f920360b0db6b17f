import Mathlib.Data.List.TakeWhile
import VideoOverlay.Duration.Token

/-!
# `Proofs.Duration.Scan` — both scanners go from character to character

The scanners leap from head to head: one of them gives up where no closing brace follows, the other one copies what
is left, and both go on behind a head that opens no token. Still they come to the same as looking for a token at each
character (`tokenAt?`), one after the other: no head begins inside of a head, so nothing is passed over when the
search goes on behind it, and a text without a closing brace has no token anywhere.

So both scanners find the same tokens, and whatever is said of either of them goes by one character, or one token, at
a time (`findToken?_cons`, `resolveChars_cons`).

## Contents
- `splitHead?_of_no_head`, `splitHead?_head_append`, `splitClosing?_eq_none_iff`: one step of a search.
- `tokenAt?`: the token at the beginning of a text.
- `findToken?_append_of_no_brace`, `resolveChars_append_of_no_brace`: what no head begins in is passed over.
- `findToken?_cons`, `resolveChars_cons`, and `token_induction` along them.
-/

namespace VideoOverlay
namespace Duration

variable {c : Char} {cs front after body rest : List Char} {length : Binary64}

/-! ## Steps of a search -/

theorem splitHead?_of_no_head (h : ¬head.isPrefixOf (c :: cs) = true) :
    splitHead? (c :: cs) = (splitHead? cs).map fun parts => (c :: parts.1, parts.2) := by
  rw [splitHead?, if_neg h]

/-- A head is an opening brace and letters. -/
theorem head_append (after : List Char) : head ++ after = '{' :: (head.tail ++ after) := by
  have hcons : head = '{' :: head.tail := by decide
  rw [← List.cons_append, ← hcons]

theorem splitHead?_head_append (after : List Char) : splitHead? (head ++ after) = some ([], after) := by
  have hhead : head.isPrefixOf (head ++ after) = true := List.isPrefixOf_iff_prefix.mpr (List.prefix_append _ _)
  rw [head_append, splitHead?, ← head_append, if_pos hhead, List.drop_left]

/-- No head begins with any other character than an opening brace. -/
theorem no_head_of_ne (h : c ≠ '{') : ¬head.isPrefixOf (c :: cs) = true := by
  intro hhead
  have hc : '{' = c := (List.cons_prefix_cons.mp (List.isPrefixOf_iff_prefix.mp hhead)).1
  exact h hc.symm

theorem splitClosing?_eq_none_iff : splitClosing? cs = none ↔ closing ∉ cs := by
  constructor
  · intro h hmem
    unfold splitClosing? at h
    split at h
    next hdrop =>
      have hstop := List.dropWhile_eq_nil_iff.mp hdrop closing hmem
      exact of_decide_eq_true hstop rfl
    next => cases h
  · intro h
    have hdrop : cs.dropWhile (· ≠ closing) = [] := by
      refine List.dropWhile_eq_nil_iff.mpr fun c hc => decide_eq_true fun heq => ?_
      exact h (heq ▸ hc)
    rw [splitClosing?, hdrop]

/-- A body without a closing brace ends at the next one. -/
theorem splitClosing?_append (h : closing ∉ body) (rest : List Char) :
    splitClosing? (body ++ closing :: rest) = some (body, rest) := by
  have hbody : ∀ c ∈ body, decide (c ≠ closing) = true := by
    intro c hc
    refine decide_eq_true fun heq => ?_
    exact h (heq ▸ hc)
  rw [splitClosing?, List.dropWhile_append_of_pos hbody, List.takeWhile_append_of_pos hbody,
    List.dropWhile_cons_of_neg (by decide), List.takeWhile_cons_of_neg (by decide), List.append_nil]

/-! ## The token at the beginning of a text -/

/-- The token at the beginning of a text. Its body ends before the first closing brace. -/
def tokenAt? (cs : List Char) : Option Token :=
  if head.isPrefixOf cs then
    (splitClosing? (cs.drop head.length)).bind fun parts =>
      (offsetOf? parts.1).map fun offset => ⟨parts.1, offset, parts.2⟩
  else none

theorem tokenAt?_of_no_head (h : ¬head.isPrefixOf cs = true) : tokenAt? cs = none := by
  rw [tokenAt?, if_neg h]

theorem tokenAt?_head_append (after : List Char) :
    tokenAt? (head ++ after) = (splitClosing? after).bind fun parts =>
      (offsetOf? parts.1).map fun offset => ⟨parts.1, offset, parts.2⟩ := by
  rw [tokenAt?, if_pos (List.isPrefixOf_iff_prefix.mpr (List.prefix_append _ _)), List.drop_left]

/-- What a head gives that opens a token, and what follows. -/
theorem opened?_eq (after : List Char) :
    opened? after = (tokenAt? (head ++ after)).map fun t => (t.offset, t.rest) := by
  rw [tokenAt?_head_append, opened?]
  cases splitClosing? after with
  | none => rfl
  | some parts =>
    show (offsetOf? parts.1).map _ = ((offsetOf? parts.1).map _).map _
    rw [Option.map_map]
    rfl

/-- A text begins with the token found there. -/
theorem eq_of_tokenAt? {t : Token} (h : tokenAt? cs = some t) : cs = t.chars ++ t.rest := by
  by_cases hhead : head.isPrefixOf cs = true
  · obtain ⟨after, rfl⟩ := List.isPrefixOf_iff_prefix.mp hhead
    rw [tokenAt?_head_append] at h
    obtain ⟨parts, hparts, hoffset⟩ := Option.bind_eq_some_iff.mp h
    obtain ⟨offset, _, rfl⟩ := Option.map_eq_some_iff.mp hoffset
    rw [eq_of_splitClosing? hparts, Token.chars]
    simp only [List.append_assoc, List.singleton_append]
  · rw [tokenAt?_of_no_head hhead] at h
    cases h

/-- What follows a token is shorter than the text it was found in. -/
theorem length_rest_lt {t : Token} (h : tokenAt? cs = some t) : t.rest.length < cs.length := by
  rw [eq_of_tokenAt? h, Token.chars]
  simp only [List.length_append, List.length_singleton]
  omega

/-! ## The first token -/

theorem findToken?_nil : findToken? [] = none := by
  unfold findToken?
  rfl

/-- One leap of the search. -/
theorem findToken?_of_splitHead? {parts : List Char × List Char} (h : splitHead? cs = some parts) :
    findToken? cs = (splitClosing? parts.2).bind fun inner =>
      match offsetOf? inner.1 with
      | some offset => some ⟨inner.1, offset, inner.2⟩
      | none => findToken? parts.2 := by
  rw [findToken?]
  split
  next hnone => cases h.symm.trans hnone
  next found hfound =>
    cases h.symm.trans hfound
    cases splitClosing? parts.2 with
    | none => rfl
    | some inner => cases offsetOf? inner.1 <;> rfl

theorem findToken?_of_no_splitHead? (h : splitHead? cs = none) : findToken? cs = none := by
  rw [findToken?]
  split
  next => rfl
  next found hfound => cases h.symm.trans hfound

/-- A character with which no head begins is passed over. -/
theorem findToken?_cons_of_no_head (h : ¬head.isPrefixOf (c :: cs) = true) :
    findToken? (c :: cs) = findToken? cs := by
  have hsplit := splitHead?_of_no_head h
  cases hlater : splitHead? cs with
  | none =>
    rw [hlater] at hsplit
    rw [findToken?_of_no_splitHead? hsplit, findToken?_of_no_splitHead? hlater]
  | some parts =>
    rw [hlater] at hsplit
    rw [findToken?_of_splitHead? hsplit, findToken?_of_splitHead? hlater]

/-- So is a text without an opening brace. -/
theorem findToken?_append_of_no_brace (h : '{' ∉ front) (cs : List Char) :
    findToken? (front ++ cs) = findToken? cs := by
  induction front with
  | nil => rfl
  | cons c front ih =>
    have hc : c ≠ '{' := fun heq => h (heq ▸ List.mem_cons_self)
    rw [List.cons_append, findToken?_cons_of_no_head (no_head_of_ne hc)]
    exact ih fun hmem => h (List.mem_cons_of_mem c hmem)

/-- Giving up is right: without a closing brace there is no token. -/
theorem findToken?_of_no_closing (h : closing ∉ cs) : findToken? cs = none := by
  cases hsplit : splitHead? cs with
  | none => exact findToken?_of_no_splitHead? hsplit
  | some parts =>
    have hbehind : closing ∉ parts.2 := by
      intro hmem
      rw [eq_of_splitHead? hsplit] at h
      exact h (List.mem_append_right _ hmem)
    rw [findToken?_of_splitHead? hsplit, splitClosing?_eq_none_iff.mpr hbehind]
    rfl

/-- **The first scanner looks for a token at each character.** -/
theorem findToken?_cons (c : Char) (cs : List Char) :
    findToken? (c :: cs) = (tokenAt? (c :: cs)).or (findToken? cs) := by
  by_cases hhead : head.isPrefixOf (c :: cs) = true
  · obtain ⟨after, heq⟩ := List.isPrefixOf_iff_prefix.mp hhead
    have hlater : findToken? cs = findToken? after := by
      rw [← (List.cons.inj ((head_append after).symm.trans heq)).2]
      exact findToken?_append_of_no_brace (by decide) after
    rw [hlater, ← heq, tokenAt?_head_append, findToken?_of_splitHead? (splitHead?_head_append after)]
    cases hclosing : splitClosing? after with
    | none =>
      -- The scanner gives up, and there is nothing to be found behind the head.
      exact (findToken?_of_no_closing (splitClosing?_eq_none_iff.mp hclosing)).symm
    | some inner =>
      rw [Option.bind_some, Option.bind_some]
      cases offsetOf? inner.1 <;> rfl
  · rw [findToken?_cons_of_no_head hhead, tokenAt?_of_no_head hhead, Option.none_or]

/-! ## All tokens -/

theorem resolveChars_nil (length : Binary64) : resolveChars length [] = [] := by
  unfold resolveChars
  rfl

/-- One leap of the resolution. -/
theorem resolveChars_of_splitHead? {parts : List Char × List Char} (h : splitHead? cs = some parts) :
    resolveChars length cs = parts.1 ++ match opened? parts.2 with
      | some (offset, rest) => (secondsBefore length offset).toList ++ resolveChars length rest
      | none => head ++ resolveChars length parts.2 := by
  rw [resolveChars]
  split
  next hnone => cases h.symm.trans hnone
  next found hfound =>
    cases h.symm.trans hfound
    split
    next offset rest hopened => rw [hopened, List.append_assoc]
    next hopened => rw [hopened, List.append_assoc]

theorem resolveChars_of_no_splitHead? (h : splitHead? cs = none) : resolveChars length cs = cs := by
  rw [resolveChars]
  split
  next => rfl
  next found hfound => cases h.symm.trans hfound

/-- A character with which no head begins is copied. -/
theorem resolveChars_cons_of_no_head (h : ¬head.isPrefixOf (c :: cs) = true) :
    resolveChars length (c :: cs) = c :: resolveChars length cs := by
  have hsplit := splitHead?_of_no_head h
  cases hlater : splitHead? cs with
  | none =>
    rw [hlater] at hsplit
    rw [resolveChars_of_no_splitHead? hsplit, resolveChars_of_no_splitHead? hlater]
  | some parts =>
    rw [hlater] at hsplit
    rw [resolveChars_of_splitHead? hsplit, resolveChars_of_splitHead? hlater]
    rfl

/-- So is a text without an opening brace. -/
theorem resolveChars_append_of_no_brace (h : '{' ∉ front) (cs : List Char) :
    resolveChars length (front ++ cs) = front ++ resolveChars length cs := by
  induction front with
  | nil => rfl
  | cons c front ih =>
    have hc : c ≠ '{' := fun heq => h (heq ▸ List.mem_cons_self)
    rw [List.cons_append, resolveChars_cons_of_no_head (no_head_of_ne hc), List.cons_append]
    rw [ih fun hmem => h (List.mem_cons_of_mem c hmem)]

/-- **The second scanner looks for a token at each character**, and goes on behind a token. -/
theorem resolveChars_cons (length : Binary64) (c : Char) (cs : List Char) :
    resolveChars length (c :: cs) = match tokenAt? (c :: cs) with
      | some t => (secondsBefore length t.offset).toList ++ resolveChars length t.rest
      | none => c :: resolveChars length cs := by
  by_cases hhead : head.isPrefixOf (c :: cs) = true
  · obtain ⟨after, heq⟩ := List.isPrefixOf_iff_prefix.mp hhead
    have hlater : c :: resolveChars length cs = head ++ resolveChars length after := by
      obtain ⟨hc, hcs⟩ := List.cons.inj ((head_append after).symm.trans heq)
      rw [← hc, ← hcs, resolveChars_append_of_no_brace (by decide), head_append]
    rw [hlater, ← heq, resolveChars_of_splitHead? (splitHead?_head_append after), opened?_eq]
    cases tokenAt? (head ++ after) <;> rfl
  · rw [resolveChars_cons_of_no_head hhead, tokenAt?_of_no_head hhead]

/-! ## Induction -/

/-- What holds of the empty text, and goes on over a character with which no token begins and over a token, holds of
every text. -/
@[elab_as_elim]
theorem token_induction {motive : List Char → Prop} (nil : motive [])
    (plain : ∀ c cs, tokenAt? (c :: cs) = none → motive cs → motive (c :: cs))
    (token : ∀ c cs t, tokenAt? (c :: cs) = some t → motive t.rest → motive (c :: cs)) (cs : List Char) :
    motive cs := by
  induction hn : cs.length using Nat.strongRecOn generalizing cs with
  | ind n ih =>
    cases cs with
    | nil => exact nil
    | cons c cs =>
      cases hfound : tokenAt? (c :: cs) with
      | none =>
        have hshorter : cs.length < n := by
          rw [← hn]
          exact Nat.lt_succ_self _
        exact plain c cs hfound (ih cs.length hshorter cs rfl)
      | some t =>
        have hshorter : t.rest.length < n := by
          rw [← hn]
          exact length_rest_lt hfound
        exact token c cs t hfound (ih t.rest.length hshorter t.rest rfl)

end Duration
end VideoOverlay
