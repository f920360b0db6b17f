import Mathlib.Data.List.Basic
import VideoOverlay.Proofs.Duration.Scan
import VideoOverlay.Proofs.Number.Numeral

/-!
# `Proofs.Duration.Occurrence` — which tokens a text has, and what becomes of them

A token is said here without a scanner: a head, a body that is empty or a minus sign and a numeral, and a
closing brace (`IsToken`). It occurs in a text wherever the text has it as a part. The scanners find just
these occurrences: `findToken?` the first of them, and `resolve` all of them, since tokens never overlap.

Why they do not: a token begins with the only opening brace it has, so another one that begins later begins
after its end (`IsToken.front_of_append`). Heads that open no token, one inside another or never closed, are
text like any other.

## Contents
- `IsBody`, `IsToken`; `tokenAt?_eq_some_iff`, `IsToken.front_of_append`.
- `HasToken`, `FirstToken`; `findTokenText?_eq_some_iff`, `findTokenText?_eq_none_iff`.
- `Part`, `Splits`, `exists_splits`: a text as a sequence of characters and tokens, and its resolution.
- `resolve_eq_self_iff`: what resolving leaves alone.
- `tokens_found_and_resolved`.
-/

namespace VideoOverlay
namespace Duration

/-! ## Tokens -/

/-- The body of a token, and the offset it gives: nothing for the whole length, or a minus sign and a numeral
for a finite number that is not negative. -/
inductive IsBody : List Char → Binary64 → Prop where
  | whole : IsBody [] .zero
  | less {cs : List Char} {x : Binary64} (value : Binary64.ofChars? cs = some x)
      (finite : x.isFinite = true) (nonnegative : Binary64.le .zero x = true) : IsBody ('-' :: cs) x

/-- A text that is a token, and the offset it gives. -/
def IsToken (t : List Char) (x : Binary64) : Prop := ∃ body, t = head ++ body ++ [closing] ∧ IsBody body x

variable {cs body t front rest back : List Char} {x : Binary64}

theorem offsetOf?_eq_some_iff : offsetOf? body = some x ↔ IsBody body x := by
  constructor
  · intro h
    cases body with
    | nil =>
      rw [← Option.some.inj h]
      exact .whole
    | cons c cs =>
      rw [offsetOf?] at h
      split at h
      next hc =>
        subst hc
        obtain ⟨hvalue, hrange⟩ := Option.filter_eq_some_iff.mp h
        obtain ⟨hfinite, hnonnegative⟩ := Bool.and_eq_true_iff.mp hrange
        exact .less hvalue hfinite hnonnegative
      next => cases h
  · intro h
    cases h with
    | whole => rfl
    | less hvalue hfinite hnonnegative =>
      rw [offsetOf?, if_pos rfl, hvalue, Option.filter_some, hfinite, hnonnegative]
      rfl

/-- A body is made of the characters of numerals, so it has no braces. -/
theorem IsBody.isNumeralChar (h : IsBody body x) : ∀ c ∈ body, Binary64.isNumeralChar c = true := by
  cases h with
  | whole => exact List.forall_mem_nil _
  | less hvalue _ _ => exact List.forall_mem_cons.mpr ⟨by decide, Binary64.isNumeralChar_of_mem hvalue⟩

theorem IsBody.closing_not_mem (h : IsBody body x) : closing ∉ body := by
  intro hmem
  exact absurd (h.isNumeralChar closing hmem) (by decide)

/-- A text begins with a token exactly if it is that token and then some text. -/
theorem tokenAt?_eq_some_iff {t : Token} :
    tokenAt? cs = some t ↔ cs = t.chars ++ t.rest ∧ IsBody t.body t.offset := by
  constructor
  · intro h
    refine ⟨eq_of_tokenAt? h, ?_⟩
    by_cases hhead : head.isPrefixOf cs = true
    · rw [tokenAt?, if_pos hhead] at h
      obtain ⟨_, _, hparts⟩ := Option.bind_eq_some_iff.mp h
      obtain ⟨_, hoffset, rfl⟩ := Option.map_eq_some_iff.mp hparts
      exact offsetOf?_eq_some_iff.mp hoffset
    · rw [tokenAt?_of_no_head hhead] at h
      cases h
  · rintro ⟨rfl, hbody⟩
    have hafter : t.chars ++ t.rest = head ++ (t.body ++ closing :: t.rest) := by
      simp only [Token.chars, List.append_assoc, List.singleton_append]
    -- The body ends at the first closing brace, as it has none.
    rw [hafter, tokenAt?_head_append, splitClosing?_append hbody.closing_not_mem, Option.bind_some,
      offsetOf?_eq_some_iff.mpr hbody]
    rfl

theorem isToken_chars {t : Token} (h : IsBody t.body t.offset) : IsToken t.chars t.offset := ⟨t.body, rfl, h⟩

/-- Where a token stands it is found, with its offset and what follows it. -/
theorem IsToken.exists_tokenAt? (h : IsToken t x) (rest : List Char) :
    ∃ token, tokenAt? (t ++ rest) = some token ∧ token.chars = t ∧ token.offset = x ∧ token.rest = rest := by
  obtain ⟨body, rfl, hbody⟩ := h
  exact ⟨⟨body, x, rest⟩, tokenAt?_eq_some_iff.mpr ⟨rfl, hbody⟩, rfl, rfl, rfl⟩

/-- Only one token can stand at the beginning of a text. -/
theorem IsToken.eq_of_append {t' : List Char} {x' : Binary64} (h : IsToken t x) (h' : IsToken t' x')
    (heq : t ++ rest = t' ++ back) : t = t' ∧ x = x' ∧ rest = back := by
  obtain ⟨token, hfound, rfl, rfl, rfl⟩ := h.exists_tokenAt? rest
  obtain ⟨token', hfound', rfl, rfl, rfl⟩ := h'.exists_tokenAt? back
  rw [← heq, hfound] at hfound'
  cases hfound'
  exact ⟨rfl, rfl, rfl⟩

/-! ## Tokens do not overlap -/

/-- The opening brace of a token is its first character and no other. -/
theorem IsToken.eq_cons (h : IsToken t x) : ∃ cs, t = '{' :: cs ∧ '{' ∉ cs := by
  obtain ⟨body, rfl, hbody⟩ := h
  refine ⟨head.tail ++ body ++ [closing], rfl, fun hmem => ?_⟩
  rcases List.mem_append.mp hmem with hmem | hmem
  · rcases List.mem_append.mp hmem with hmem | hmem
    · exact absurd hmem (by decide)
    · exact absurd (hbody.isNumeralChar _ hmem) (by decide)
  · exact absurd hmem (by decide)

/-- **What begins with a brace after a token has begun, begins after the token.** -/
theorem IsToken.front_of_append (h : IsToken t x) (heq : t ++ rest = front ++ '{' :: back) :
    front = [] ∨ ∃ front', front = t ++ front' ∧ rest = front' ++ '{' :: back := by
  obtain ⟨cs, rfl, hcs⟩ := h.eq_cons
  rcases List.append_eq_append_iff.mp heq with ⟨front', hfront, hrest⟩ | ⟨inner, hinner, hback⟩
  · exact .inr ⟨front', hfront, hrest⟩
  · -- The brace would be inside of the token.
    cases front with
    | nil => exact .inl rfl
    | cons c front =>
      cases hinner
      cases inner with
      | nil => exact .inr ⟨[], by simp, by simpa using hback.symm⟩
      | cons d inner =>
        cases hback
        exact absurd (List.mem_append_right front List.mem_cons_self) hcs

/-! ## The first token -/

/-- A text has a token somewhere. -/
def HasToken (s : String) : Prop := ∃ front t x back, s.toList = front ++ t ++ back ∧ IsToken t x

/-- A token that a text has, and there is none that begins before it. -/
def FirstToken (s t : String) : Prop :=
  ∃ front x back, s.toList = front ++ t.toList ++ back ∧ IsToken t.toList x
    ∧ ∀ front' t' x' back', s.toList = front' ++ t' ++ back' → IsToken t' x' → front.length ≤ front'.length

/-- Nothing is found exactly if no token stands anywhere. -/
theorem findToken?_eq_none_iff : findToken? cs = none ↔ ∀ back, back <:+ cs → tokenAt? back = none := by
  induction cs with
  | nil =>
    constructor
    · intro _ back hback
      rw [List.suffix_nil.mp hback]
      rfl
    · intro _
      exact findToken?_nil
  | cons c cs ih =>
    rw [findToken?_cons, Option.or_eq_none_iff, ih]
    constructor
    · rintro ⟨hhere, hlater⟩ back hback
      rcases List.suffix_cons_iff.mp hback with rfl | hback
      · exact hhere
      · exact hlater back hback
    · intro h
      exact ⟨h _ (List.suffix_refl _), fun back hback => h back (hback.trans (List.suffix_cons c cs))⟩

/-- What is found stands somewhere, and no token stands before. -/
theorem exists_of_findToken? {t : Token} (h : findToken? cs = some t) :
    ∃ front back, cs = front ++ back ∧ tokenAt? back = some t
      ∧ ∀ front' back', cs = front' ++ back' → tokenAt? back' ≠ none → front.length ≤ front'.length := by
  induction cs with
  | nil =>
    rw [findToken?_nil] at h
    cases h
  | cons c cs ih =>
    rw [findToken?_cons] at h
    rcases Option.or_eq_some_iff.mp h with hhere | ⟨hnone, hlater⟩
    · exact ⟨[], c :: cs, rfl, hhere, fun _ _ _ _ => Nat.zero_le _⟩
    · obtain ⟨front, back, rfl, hback, hfirst⟩ := ih hlater
      refine ⟨c :: front, back, rfl, hback, fun front' back' heq hne => ?_⟩
      cases front' with
      | nil =>
        cases heq
        exact absurd hnone hne
      | cons c' front' =>
        exact Nat.succ_le_succ (hfirst front' back' (List.cons.inj heq).2 hne)

theorem findTokenText?_eq_none_iff {s : String} : findTokenText? s = none ↔ ¬HasToken s := by
  rw [findTokenText?, Option.map_eq_none_iff, findToken?_eq_none_iff]
  constructor
  · rintro h ⟨front, t, x, back, heq, ht⟩
    obtain ⟨token, hfound, _⟩ := ht.exists_tokenAt? back
    rw [h (t ++ back) ⟨front, by rw [heq, List.append_assoc]⟩] at hfound
    cases hfound
  · rintro h back ⟨front, heq⟩
    cases hfound : tokenAt? back with
    | none => rfl
    | some token =>
      obtain ⟨hback, hbody⟩ := tokenAt?_eq_some_iff.mp hfound
      refine absurd ⟨front, token.chars, token.offset, token.rest, ?_, isToken_chars hbody⟩ h
      rw [← heq, hback, List.append_assoc]

/-- A text has one first token at most. -/
theorem FirstToken.unique {s t t' : String} (h : FirstToken s t) (h' : FirstToken s t') : t = t' := by
  obtain ⟨front, x, back, heq, ht, hfirst⟩ := h
  obtain ⟨front', x', back', heq', ht', hfirst'⟩ := h'
  have hlength : front.length = front'.length :=
    Nat.le_antisymm (hfirst _ _ _ _ heq' ht') (hfirst' _ _ _ _ heq ht)
  rw [heq, List.append_assoc, List.append_assoc] at heq'
  exact String.toList_inj.mp (ht.eq_of_append ht' (List.append_inj heq' hlength).2).1

theorem firstToken_of_findTokenText? {s t : String} (h : findTokenText? s = some t) : FirstToken s t := by
  obtain ⟨token, hfound, rfl⟩ := Option.map_eq_some_iff.mp h
  obtain ⟨front, back, heq, hback, hfirst⟩ := exists_of_findToken? hfound
  obtain ⟨hsplit, hbody⟩ := tokenAt?_eq_some_iff.mp hback
  refine ⟨front, token.offset, token.rest, ?_, ?_, fun front' t' x' back' heq' ht' => ?_⟩
  · rw [String.toList_ofList, heq, hsplit, List.append_assoc]
  · rw [String.toList_ofList]
    exact isToken_chars hbody
  · obtain ⟨token', hfound', _⟩ := ht'.exists_tokenAt? back'
    refine hfirst front' (t' ++ back') ?_ ?_
    · rw [heq', List.append_assoc]
    · rw [hfound']
      exact Option.some_ne_none token'

theorem FirstToken.hasToken {s t : String} (h : FirstToken s t) : HasToken s := by
  obtain ⟨front, x, back, heq, ht, _⟩ := h
  exact ⟨front, t.toList, x, back, heq, ht⟩

/-- **What is found is the first token.** -/
theorem findTokenText?_eq_some_iff {s t : String} : findTokenText? s = some t ↔ FirstToken s t := by
  constructor
  · exact firstToken_of_findTokenText?
  · intro h
    cases hfound : findTokenText? s with
    | none => exact absurd h.hasToken (findTokenText?_eq_none_iff.mp hfound)
    | some t' => rw [(firstToken_of_findTokenText? hfound).unique h]

/-! ## All tokens -/

/-- A part of a text: a token with its offset, or one character of what is not a token. -/
inductive Part where
  | plain (c : Char)
  | token (chars : List Char) (offset : Binary64)

namespace Part

/-- The part as it stands in the text. -/
def chars : Part → List Char
  | plain c => [c]
  | token t _ => t

/-- The part when the length of the video is known: a token becomes the time it stands for. -/
def resolved (length : Binary64) : Part → List Char
  | plain c => [c]
  | token _ x => (secondsText ((length.sub x).max .zero)).toList

end Part

/-- A text consists of some parts, and wherever it has a token, this is one of them. -/
structure Splits (cs : List Char) (parts : List Part) : Prop where
  text : parts.flatMap Part.chars = cs
  token : ∀ t x, .token t x ∈ parts → IsToken t x
  complete : ∀ front t x back, cs = front ++ t ++ back → IsToken t x →
    ∃ before after, parts = before ++ .token t x :: after
      ∧ before.flatMap Part.chars = front ∧ after.flatMap Part.chars = back

theorem splits_nil : Splits [] [] where
  text := rfl
  token _ _ h := absurd h List.not_mem_nil
  complete front t x back heq ht := by
    obtain ⟨cs, rfl, _⟩ := ht.eq_cons
    exact absurd heq.symm (by simp)

/-- A character with which no token begins is a part of its own. -/
theorem Splits.plain {c : Char} {parts : List Part} (h : Splits cs parts) (hc : tokenAt? (c :: cs) = none) :
    Splits (c :: cs) (.plain c :: parts) where
  text := by
    rw [List.flatMap_cons, h.text]
    rfl
  token t x hmem := by
    rcases List.mem_cons.mp hmem with heq | hmem
    · cases heq
    · exact h.token t x hmem
  complete front t x back heq ht := by
    cases front with
    | nil =>
      -- A token at the very beginning would have been found.
      obtain ⟨token, hfound, _⟩ := ht.exists_tokenAt? back
      rw [List.nil_append] at heq
      rw [heq, hfound] at hc
      cases hc
    | cons c' front =>
      obtain ⟨before, after, rfl, rfl, rfl⟩ := h.complete front t x back (List.cons.inj heq).2 ht
      refine ⟨.plain c :: before, after, rfl, ?_, rfl⟩
      rw [← (List.cons.inj heq).1]
      rfl

/-- A token at the beginning is a part, and no other token begins before its end. -/
theorem Splits.prepend {parts : List Part} (h : Splits rest parts) (ht : IsToken t x) :
    Splits (t ++ rest) (.token t x :: parts) where
  text := by
    rw [List.flatMap_cons, h.text]
    rfl
  token t' x' hmem := by
    rcases List.mem_cons.mp hmem with heq | hmem
    · cases heq
      exact ht
    · exact h.token t' x' hmem
  complete front t' x' back heq ht' := by
    rw [List.append_assoc] at heq
    obtain ⟨cs, hcons, _⟩ := ht'.eq_cons
    have hbrace : t' ++ back = '{' :: (cs ++ back) := by rw [hcons, List.cons_append]
    rcases ht.front_of_append (heq.trans (by rw [hbrace])) with rfl | ⟨front', rfl, hrest⟩
    · obtain ⟨rfl, rfl, rfl⟩ := ht.eq_of_append ht' heq
      exact ⟨[], parts, rfl, rfl, h.text⟩
    · rw [← hbrace, ← List.append_assoc] at hrest
      obtain ⟨before, after, rfl, rfl, rfl⟩ := h.complete front' t' x' back hrest ht'
      exact ⟨.token t x :: before, after, rfl, rfl, rfl⟩

/-- **Resolving replaces the tokens of a text and nothing else.** -/
theorem exists_splits (cs : List Char) :
    ∃ parts, Splits cs parts ∧ ∀ length, resolveChars length cs = parts.flatMap (Part.resolved length) := by
  induction cs using token_induction with
  | nil =>
    refine ⟨[], splits_nil, fun length => ?_⟩
    rw [resolveChars_nil]
    rfl
  | plain c cs hfound ih =>
    obtain ⟨parts, hparts, hresolved⟩ := ih
    refine ⟨.plain c :: parts, hparts.plain hfound, fun length => ?_⟩
    rw [resolveChars_cons, hfound, List.flatMap_cons, ← hresolved]
    rfl
  | token c cs t hfound ih =>
    obtain ⟨heq, hbody⟩ := tokenAt?_eq_some_iff.mp hfound
    obtain ⟨parts, hparts, hresolved⟩ := ih
    refine ⟨.token t.chars t.offset :: parts, ?_, fun length => ?_⟩
    · rw [heq]
      exact hparts.prepend (isToken_chars hbody)
    · rw [resolveChars_cons, hfound, List.flatMap_cons, ← hresolved]
      rfl

/-! ## What resolving leaves alone -/

/-- A time has no brace. -/
theorem brace_not_mem_secondsText (y : Binary64) : '{' ∉ (secondsText y).toList := by
  intro h
  rw [secondsText, Binary64.text, String.toList_ofList] at h
  exact absurd (Binary64.isNumeralChar_of_mem_chars _ h) (by decide)

/-- Without tokens, resolving changes nothing. -/
theorem Splits.resolved_of_no_token {parts : List Part} (h : Splits cs parts)
    (hno : ∀ t x, .token t x ∉ parts) (length : Binary64) : parts.flatMap (Part.resolved length) = cs := by
  have hplain : ∀ p ∈ parts, p.resolved length = p.chars := by
    intro p hp
    cases p with
    | plain c => rfl
    | token t x => exact absurd hp (hno t x)
  rw [← h.text]
  exact List.flatMap_congr hplain

/-- Resolving never adds a brace. -/
theorem count_resolved_le (length : Binary64) (parts : List Part) :
    (parts.flatMap (Part.resolved length)).count '{' ≤ (parts.flatMap Part.chars).count '{' := by
  induction parts with
  | nil => exact Nat.le_refl _
  | cons p parts ih =>
    rw [List.flatMap_cons, List.flatMap_cons, List.count_append, List.count_append]
    refine Nat.add_le_add ?_ ih
    cases p with
    | plain c => exact Nat.le_refl _
    | token t x =>
      rw [Part.resolved, List.count_eq_zero.mpr (brace_not_mem_secondsText _)]
      exact Nat.zero_le _

/-- With a token, resolving changes the text: the brace of the token is gone. -/
theorem Splits.resolved_ne {parts : List Part} (h : Splits cs parts) (hmem : .token t x ∈ parts)
    (length : Binary64) : parts.flatMap (Part.resolved length) ≠ cs := by
  obtain ⟨before, after, rfl⟩ := List.append_of_mem hmem
  obtain ⟨tail, rfl, _⟩ := (h.token t x hmem).eq_cons
  intro heq
  have hcount := congrArg (List.count '{') (heq.trans h.text.symm)
  have hbefore := count_resolved_le length before
  have hafter := count_resolved_le length after
  simp only [List.flatMap_append, List.flatMap_cons, List.count_append, Part.resolved, Part.chars,
    List.count_eq_zero.mpr (brace_not_mem_secondsText _), List.count_cons_self] at hcount
  omega

/-- A text as a whole: its parts, and what resolving makes of them. -/
theorem exists_splits_resolve (s : String) :
    ∃ parts, Splits s.toList parts
      ∧ ∀ length, (resolve s length).toList = parts.flatMap (Part.resolved length) := by
  obtain ⟨parts, hparts, hresolved⟩ := exists_splits s.toList
  refine ⟨parts, hparts, fun length => ?_⟩
  rw [resolve, String.toList_ofList, hresolved]

/-- **A text is its own resolution exactly if nothing is found in it.** -/
theorem resolve_eq_self_iff {s : String} {length : Binary64} :
    resolve s length = s ↔ findTokenText? s = none := by
  obtain ⟨parts, hparts, hresolved⟩ := exists_splits_resolve s
  rw [findTokenText?_eq_none_iff, ← String.toList_inj, hresolved]
  constructor
  · rintro hsame ⟨front, t, x, back, heq, ht⟩
    obtain ⟨before, after, hsplit, _, _⟩ := hparts.complete front t x back heq ht
    refine hparts.resolved_ne (t := t) (x := x) ?_ length hsame
    rw [hsplit]
    exact List.mem_append_right before List.mem_cons_self
  · intro hno
    refine hparts.resolved_of_no_token (fun t x hmem => hno ?_) length
    obtain ⟨before, after, rfl⟩ := List.append_of_mem hmem
    refine ⟨before.flatMap Part.chars, t, x, after.flatMap Part.chars, ?_, hparts.token t x hmem⟩
    rw [← hparts.text, List.flatMap_append, List.flatMap_cons, List.append_assoc]
    rfl

/-! ## Both scanners -/

/-- **The first token of a text is found, and every token of it is resolved.** A text consists of tokens and
other characters: what is found is the first of the tokens, nothing if there are none, and resolving puts
the time each of them stands for in its place and leaves the other characters as they are. So a text
is its own resolution exactly if nothing is found in it. -/
theorem tokens_found_and_resolved (s : String) :
    (∀ t, findTokenText? s = some t ↔ FirstToken s t)
      ∧ (findTokenText? s = none ↔ ¬HasToken s)
      ∧ (∃ parts, Splits s.toList parts
          ∧ ∀ length, (resolve s length).toList = parts.flatMap (Part.resolved length))
      ∧ ∀ length, resolve s length = s ↔ findTokenText? s = none :=
  ⟨fun _ => findTokenText?_eq_some_iff, findTokenText?_eq_none_iff, exists_splits_resolve s,
    fun _ => resolve_eq_self_iff⟩

/-- A head inside of what looks like a token is where a token begins. -/
example : findTokenText? "\x7bVIDEO_LENGTH-\x7bVIDEO_LENGTH-1\x7d" = some "\x7bVIDEO_LENGTH-1\x7d"
    ∧ resolve "\x7bVIDEO_LENGTH-\x7bVIDEO_LENGTH-1\x7d" (.ofRatio false 30 1) = "\x7bVIDEO_LENGTH-29" := by
  decide +kernel

end Duration
end VideoOverlay
