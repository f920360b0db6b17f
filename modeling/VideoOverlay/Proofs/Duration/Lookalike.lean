import Mathlib.Data.List.Infix
import VideoOverlay.Proofs.Duration.Occurrence
import VideoOverlay.Proofs.Duration.Seconds

/-!
# `Proofs.Duration.Lookalike` — what is left when all tokens are resolved

A head that opens no token is a *lookalike*, and resolving leaves it alone. It may become the head of a token
nevertheless, if its text goes on to the closing brace of a token: what this becomes is then a part of the body
that the lookalike lacked. Where no lookalike borrows a brace in this way (`BracesApart`), nothing is left to
resolve.

The proof goes back from a token that is left to the text it comes from. Its head was there before, since a
time never continues a head (`exists_secondsBefore_eq_cons`); so was its closing brace, since a time has none. What
stood between them had no token, and then the token was there before; or it had one, and the brace of that was
the next one behind the head.

## Contents
- `Lookalike`, `BracesApart`, which is decidable.
- `exists_plain_of_resolved_eq`, `exists_eq_map_plain`: what a resolved text comes from.
- `findTokenText?_resolve_of_bracesApart`.
-/

namespace VideoOverlay

namespace Duration

/-! ## Lookalikes -/

/-- A head in a text, between what is before and behind it, that opens no token: no closing brace follows, or
what is before the next one is not the body of a token. -/
structure Lookalike (cs front after : List Char) : Prop where
  stands : cs = front ++ head ++ after
  opensNone : ∀ body back x, after = body ++ closing :: back → closing ∉ body → ¬IsBody body x

/-- No lookalike goes on to the closing brace of a token: no token ends with the next closing brace behind a
lookalike. -/
def BracesApart (cs : List Char) : Prop :=
  ∀ front body back, Lookalike cs front (body ++ closing :: back) → closing ∉ body →
    ∀ before t x, cs = before ++ t ++ back → ¬IsToken t x

variable {cs front back after u t : List Char} {length x : Binary64} {parts before rest : List Part}

/-- A head is a lookalike where no token is found to begin. -/
theorem lookalike_iff :
    Lookalike cs front after ↔ cs = front ++ head ++ after ∧ tokenAt? (head ++ after) = none := by
  constructor
  · intro h
    refine ⟨h.stands, ?_⟩
    cases hfound : tokenAt? (head ++ after) with
    | none => rfl
    | some token =>
      obtain ⟨heq, hbody⟩ := tokenAt?_eq_some_iff.mp hfound
      rw [Token.chars, List.append_assoc, List.append_assoc] at heq
      have hafter : after = token.body ++ closing :: token.rest := List.append_cancel_left heq
      exact absurd hbody (h.opensNone _ _ _ hafter hbody.closing_not_mem)
  · rintro ⟨hstands, hnone⟩
    refine ⟨hstands, fun body back x hafter _ hbody => ?_⟩
    have hfound : tokenAt? (head ++ after) = some ⟨body, x, back⟩ := by
      refine tokenAt?_eq_some_iff.mpr ⟨?_, hbody⟩
      rw [hafter, Token.chars, List.append_assoc, List.append_assoc, List.singleton_append]
    rw [hnone] at hfound
    cases hfound

/-- Whether lookalikes keep away from the braces of tokens can be told from the ends of a text: what begins with the
next closing brace behind a lookalike is not what begins with the last character of a token. -/
theorem bracesApart_iff :
    BracesApart cs ↔ ∀ z ∈ cs.tails, head.isPrefixOf z = true → tokenAt? z = none →
      ∀ w ∈ cs.tails, ∀ token ∈ tokenAt? w,
        (z.drop head.length).dropWhile (· ≠ closing) ≠ closing :: token.rest := by
  constructor
  · intro h z hz hhead hnone w hw token hfound hclose
    obtain ⟨front, rfl⟩ := (List.mem_tails z cs).mp hz
    obtain ⟨after, rfl⟩ := List.isPrefixOf_iff_prefix.mp hhead
    obtain ⟨before, hbefore⟩ := (List.mem_tails w _).mp hw
    obtain ⟨hw, hbody⟩ := tokenAt?_eq_some_iff.mp hfound
    rw [List.drop_left] at hclose
    have hafter : after = after.takeWhile (· ≠ closing) ++ closing :: token.rest := by
      rw [← hclose, List.takeWhile_append_dropWhile]
    have hlook : Lookalike (front ++ (head ++ after)) front
        (after.takeWhile (· ≠ closing) ++ closing :: token.rest) := by
      rw [← hafter]
      exact lookalike_iff.mpr ⟨(List.append_assoc _ _ _).symm, hnone⟩
    refine h _ _ _ hlook (fun hmem => ?_) before token.chars token.offset ?_ (isToken_chars hbody)
    · have hopen := List.mem_takeWhile_imp hmem
      exact of_decide_eq_true hopen rfl
    · rw [← hbefore, hw, List.append_assoc]
  · intro h front body back hlook hnot before t x heq ht
    obtain ⟨token, hfound, _, _, rfl⟩ := ht.exists_tokenAt? back
    obtain ⟨hstands, hnone⟩ := lookalike_iff.mp hlook
    have hz : head ++ (body ++ closing :: token.rest) ∈ cs.tails :=
      (List.mem_tails _ _).mpr ⟨front, by rw [hstands, List.append_assoc]⟩
    have hw : t ++ token.rest ∈ cs.tails :=
      (List.mem_tails _ _).mpr ⟨before, by rw [heq, List.append_assoc]⟩
    have hopen : ∀ c ∈ body, decide (c ≠ closing) = true := fun c hc => decide_eq_true fun he => hnot (he ▸ hc)
    refine h _ hz (List.isPrefixOf_iff_prefix.mpr (List.prefix_append _ _)) hnone _ hw token hfound ?_
    rw [List.drop_left, List.dropWhile_append_of_pos hopen, List.dropWhile_cons_of_neg (by decide)]

instance (cs : List Char) : Decidable (BracesApart cs) := decidable_of_iff' _ bracesApart_iff

/-! ## Where a resolved text comes from -/

/-- A character that no number is written with was a character of its own before. -/
theorem exists_plain_of_resolved_eq {c : Char} (hc : Binary64.isNumeralChar c = false)
    (h : parts.flatMap (Part.resolved length) = front ++ c :: back) :
    ∃ before rest, parts = before ++ .plain c :: rest ∧ before.flatMap (Part.resolved length) = front
      ∧ rest.flatMap (Part.resolved length) = back := by
  induction parts generalizing front with
  | nil => exact absurd h.symm (List.append_ne_nil_of_right_ne_nil _ (List.cons_ne_nil _ _))
  | cons p parts ih =>
    have hlater {front' : List Char} (hfront : front = p.resolved length ++ front')
        (hrest : parts.flatMap (Part.resolved length) = front' ++ c :: back) :
        ∃ before rest, p :: parts = before ++ .plain c :: rest ∧ before.flatMap (Part.resolved length) = front
          ∧ rest.flatMap (Part.resolved length) = back := by
      obtain ⟨before, rest, rfl, rfl, rfl⟩ := ih hrest
      exact ⟨p :: before, rest, rfl, by rw [hfront, List.flatMap_cons], rfl⟩
    rw [List.flatMap_cons] at h
    cases p with
    | plain d =>
      cases front with
      | nil =>
        obtain ⟨rfl, hrest⟩ := List.cons.inj h
        exact ⟨[], parts, rfl, rfl, hrest⟩
      | cons e front =>
        obtain ⟨rfl, hrest⟩ := List.cons.inj h
        exact hlater rfl hrest
    | token t x =>
      rcases List.append_eq_append_iff.mp h with ⟨front', hfront, hrest⟩ | ⟨inner, hinner, hback⟩
      · exact hlater hfront hrest
      · cases inner with
        | nil =>
          have hfront : front = (Part.token t x).resolved length ++ [] := by
            rw [hinner, List.append_nil, List.append_nil]
          exact hlater hfront hback.symm
        | cons d inner =>
          -- The time would have the character.
          obtain ⟨rfl, _⟩ := List.cons.inj hback
          have hmem : c ∈ (Part.token t x).resolved length := by
            rw [hinner]
            exact List.mem_append_right _ List.mem_cons_self
          rw [Part.resolved, secondsText, Binary64.text, String.toList_ofList] at hmem
          rw [Binary64.isNumeralChar_of_mem_chars c hmem] at hc
          cases hc

/-- Characters that may continue a head were characters of their own before. -/
theorem exists_eq_map_plain (hu : ∀ c ∈ u, c ∈ head.tail)
    (h : parts.flatMap (Part.resolved length) = u ++ back) :
    ∃ rest, parts = u.map .plain ++ rest ∧ rest.flatMap (Part.resolved length) = back := by
  induction u generalizing parts with
  | nil => exact ⟨parts, rfl, h⟩
  | cons c u ih =>
    cases parts with
    | nil => cases h
    | cons p parts =>
      rw [List.flatMap_cons] at h
      cases p with
      | plain d =>
        obtain ⟨rfl, htail⟩ := List.cons.inj h
        obtain ⟨rest, rfl, hrest⟩ := ih (fun c hc => hu c (List.mem_cons_of_mem _ hc)) htail
        exact ⟨rest, rfl, hrest⟩
      | token t x =>
        obtain ⟨d, ds, htime, hd⟩ := exists_secondsBefore_eq_cons length x
        rw [Part.resolved, htime] at h
        exact absurd (hu c List.mem_cons_self) ((List.cons.inj h).1 ▸ hd)

theorem chars_map_plain (u : List Char) : (u.map Part.plain).flatMap Part.chars = u := by
  induction u with
  | nil => rfl
  | cons c u ih =>
    rw [List.map_cons, List.flatMap_cons, ih]
    rfl

theorem resolved_map_plain (length : Binary64) (u : List Char) :
    (u.map Part.plain).flatMap (Part.resolved length) = u := by
  induction u with
  | nil => rfl
  | cons c u ih =>
    rw [List.map_cons, List.flatMap_cons, ih]
    rfl

/-- Parts without a token are characters; otherwise there is a first token. -/
theorem eq_map_plain_or_first_token (parts : List Part) :
    (∃ u : List Char, parts = u.map .plain)
      ∨ ∃ (u : List Char) (t : List Char) (x : Binary64) (rest : List Part),
          parts = u.map .plain ++ .token t x :: rest := by
  induction parts with
  | nil => exact .inl ⟨[], rfl⟩
  | cons p parts ih =>
    cases p with
    | token t x => exact .inr ⟨[], t, x, parts, rfl⟩
    | plain c =>
      rcases ih with ⟨u, rfl⟩ | ⟨u, t, x, rest, rfl⟩
      · exact .inl ⟨c :: u, rfl⟩
      · exact .inr ⟨c :: u, t, x, rest, rfl⟩

/-- No token begins with a character of its own. -/
theorem Splits.not_isToken_of_plain {c : Char} (h : Splits cs (before ++ .plain c :: rest))
    (heq : cs = before.flatMap Part.chars ++ t ++ back) : ¬IsToken t x := by
  intro ht
  obtain ⟨before', rest', hparts, hbefore, _⟩ := h.complete _ _ _ _ heq ht
  obtain ⟨ts, rfl, _⟩ := ht.eq_cons
  -- One of the two fronts continues the other, and so is longer as a text.
  rcases List.append_eq_append_iff.mp hparts with ⟨more, rfl, hmore⟩ | ⟨more, rfl, hmore⟩
  · cases more with
    | nil => cases hmore
    | cons p more =>
      obtain ⟨rfl, _⟩ := List.cons.inj hmore
      rw [List.flatMap_append] at hbefore
      cases List.append_right_eq_self.mp hbefore
  · cases more with
    | nil => cases hmore
    | cons p more =>
      obtain ⟨rfl, _⟩ := List.cons.inj hmore
      rw [List.flatMap_append] at hbefore
      cases List.append_right_eq_self.mp hbefore.symm

/-! ## Nothing is left -/

/-- **Where no lookalike borrows the brace of a token, resolving leaves no token.** -/
theorem findTokenText?_resolve_of_bracesApart {s : String} (h : BracesApart s.toList) (length : Binary64) :
    findTokenText? (resolve s length) = none := by
  obtain ⟨parts, hparts, hresolved⟩ := exists_splits_resolve s
  rw [findTokenText?_eq_none_iff]
  rintro ⟨front, t, x, back, heq, body, rfl, hbody⟩
  rw [hresolved] at heq
  -- The head was there before, and so was the brace; `mid` is what stood between them.
  have hhead : parts.flatMap (Part.resolved length) = front ++ '{' :: (head.tail ++ (body ++ closing :: back)) := by
    rw [heq]
    simp only [List.append_assoc, List.singleton_append]
    rfl
  have hopening : Binary64.isNumeralChar '{' = false := by decide
  have hclosing : Binary64.isNumeralChar closing = false := by decide
  obtain ⟨before, behind, rfl, rfl, hbehind⟩ := exists_plain_of_resolved_eq hopening hhead
  obtain ⟨inside, rfl, hinside⟩ := exists_eq_map_plain (fun _ hc => hc) hbehind
  obtain ⟨mid, rest, rfl, rfl, _⟩ := exists_plain_of_resolved_eq hclosing hinside
  have htext : s.toList = before.flatMap Part.chars ++ head
      ++ (mid.flatMap Part.chars ++ closing :: rest.flatMap Part.chars) := by
    rw [← hparts.text]
    simp only [List.flatMap_append, List.flatMap_cons, chars_map_plain, List.append_assoc]
    rfl
  have hlook : Lookalike s.toList (before.flatMap Part.chars)
      (mid.flatMap Part.chars ++ closing :: rest.flatMap Part.chars) := by
    refine ⟨htext, fun body' back' x' hafter _ hbody' => ?_⟩
    have hplace : s.toList = before.flatMap Part.chars ++ (head ++ body' ++ [closing]) ++ back' := by
      rw [htext, hafter]
      simp only [List.append_assoc, List.singleton_append]
    exact hparts.not_isToken_of_plain hplace ⟨body', rfl, hbody'⟩
  rcases eq_map_plain_or_first_token mid with ⟨u, rfl⟩ | ⟨u, t, x', inner, rfl⟩
  · -- Then the token was there before.
    rw [resolved_map_plain] at hbody
    rw [chars_map_plain] at hlook
    exact hlook.opensNone u _ x rfl hbody.closing_not_mem hbody
  · -- The brace of the first token between them is the next one behind the head.
    obtain ⟨body', rfl, hbody'⟩ := hparts.token t x' (by simp)
    rw [List.flatMap_append, resolved_map_plain] at hbody
    have hu : closing ∉ u := fun hmem => hbody.closing_not_mem (List.mem_append_left _ hmem)
    have hopen : closing ∉ u ++ head ++ body' := by
      rw [List.mem_append, List.mem_append]
      exact not_or.mpr ⟨not_or.mpr ⟨hu, by decide⟩, hbody'.closing_not_mem⟩
    have hmid : (u.map Part.plain ++ .token (head ++ body' ++ [closing]) x' :: inner).flatMap Part.chars
          ++ closing :: rest.flatMap Part.chars
        = (u ++ head ++ body') ++ closing :: (inner.flatMap Part.chars ++ closing :: rest.flatMap Part.chars) := by
      simp only [List.flatMap_append, List.flatMap_cons, chars_map_plain, Part.chars, List.append_assoc,
        List.cons_append, List.nil_append]
    rw [hmid] at hlook htext
    refine h _ _ _ hlook hopen (before.flatMap Part.chars ++ head ++ u) _ x' ?_ ⟨body', rfl, hbody'⟩
    rw [htext]
    simp only [List.append_assoc, List.singleton_append]

/-- Lookalikes with a brace of their own, or with none, stay what they are. -/
example :
    let text := "\x7bVIDEO_LENGTH is unknown\x7d, \x7bVIDEO_LENGTH-1.5\x7d or \x7bVIDEO_LENGTH"
    BracesApart text.toList
      ∧ resolve text (.ofRatio false 30 1) = "\x7bVIDEO_LENGTH is unknown\x7d, 28.5 or \x7bVIDEO_LENGTH" := by
  decide +kernel

/-- A lookalike that borrows the brace of a token becomes one. -/
example :
    let text := "\x7bVIDEO_LENGTH-\x7bVIDEO_LENGTH-1\x7d\x7d"
    ¬BracesApart text.toList
      ∧ findTokenText? (resolve text (.ofRatio false 30 1)) = some "\x7bVIDEO_LENGTH-29\x7d" := by
  decide +kernel

end Duration
end VideoOverlay
