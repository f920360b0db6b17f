import VideoOverlay.Proofs.Duration.Occurrence

/-!
# `Proofs.Duration.Comma` — resolving a list of texts

Segments are divided by commas, and no token has one. So a token in the text of a graph is a token of one of the
segments, whatever texts come from outside, and the text is resolved by resolving each of its segments
(`resolve_intercalate`).

## Contents
- `IsToken.comma_not_mem`, `tokenAt?_append_comma`: a comma ends the search for a token.
- `resolveChars_append_comma`, `resolve_intercalate`.
- `HasToken.intercalate`: the tokens of a segment are tokens of the text.
-/

namespace VideoOverlay
namespace Duration

variable {cs t rest : List Char} {x : Binary64} {s : String} {texts : List String}

/-! ## Tokens and commas -/

/-- A token has no comma. -/
theorem IsToken.comma_not_mem (h : IsToken t x) : ',' ∉ t := by
  obtain ⟨body, rfl, hbody⟩ := h
  intro hmem
  rcases List.mem_append.mp hmem with hmem | hmem
  · rcases List.mem_append.mp hmem with hmem | hmem
    · exact absurd hmem (by decide)
    · exact absurd (hbody.isNumeralChar _ hmem) (by decide)
  · exact absurd hmem (by decide)

/-- Where a comma comes behind a text, a token at the beginning of both is one at the beginning of the text. -/
theorem tokenAt?_append_comma (cs rest : List Char) :
    tokenAt? (cs ++ ',' :: rest) = (tokenAt? cs).map fun t => { t with rest := t.rest ++ ',' :: rest } := by
  cases hfound : tokenAt? cs with
  | some t =>
    obtain ⟨hcs, hbody⟩ := tokenAt?_eq_some_iff.mp hfound
    refine tokenAt?_eq_some_iff.mpr ⟨?_, hbody⟩
    rw [hcs, List.append_assoc]
    rfl
  | none =>
    cases hboth : tokenAt? (cs ++ ',' :: rest) with
    | none => rfl
    | some t =>
      obtain ⟨heq, hbody⟩ := tokenAt?_eq_some_iff.mp hboth
      have hcomma : ',' ∉ t.chars := (isToken_chars hbody).comma_not_mem
      have hshorter : ∃ back, cs = t.chars ++ back := by
        rcases List.append_eq_append_iff.mp heq with ⟨inner, hchars, hrest⟩ | ⟨back, hcs, _⟩
        · -- The token would go over the comma, or it ends in front of it.
          cases inner with
          | nil => exact ⟨[], by rw [hchars, List.append_nil, List.append_nil]⟩
          | cons c inner =>
            have hc : ',' = c := (List.cons.inj hrest).1
            rw [hchars, ← hc] at hcomma
            exact absurd (List.mem_append_right cs List.mem_cons_self) hcomma
        · exact ⟨back, hcs⟩
      obtain ⟨back, hcs⟩ := hshorter
      have hsome : tokenAt? cs = some { t with rest := back } := tokenAt?_eq_some_iff.mpr ⟨hcs, hbody⟩
      rw [hfound] at hsome
      cases hsome

/-! ## Resolving -/

/-- A comma is left alone, and divides what is resolved. -/
theorem resolveChars_append_comma (length : Binary64) (cs rest : List Char) :
    resolveChars length (cs ++ ',' :: rest) = resolveChars length cs ++ ',' :: resolveChars length rest := by
  induction cs using token_induction with
  | nil =>
    have hnone : tokenAt? (',' :: rest) = none := rfl
    rw [List.nil_append, resolveChars_nil, List.nil_append, resolveChars_cons, hnone]
  | plain c cs hfound ih =>
    have hboth := tokenAt?_append_comma (c :: cs) rest
    rw [hfound, List.cons_append] at hboth
    rw [List.cons_append, resolveChars_cons, hboth, resolveChars_cons, hfound]
    show c :: resolveChars length (cs ++ ',' :: rest) = c :: (resolveChars length cs ++ _)
    rw [ih]
  | token c cs t hfound ih =>
    have hboth := tokenAt?_append_comma (c :: cs) rest
    rw [hfound, List.cons_append] at hboth
    rw [List.cons_append, resolveChars_cons, hboth, resolveChars_cons, hfound]
    show _ ++ resolveChars length (t.rest ++ ',' :: rest) = _ ++ resolveChars length t.rest ++ _
    rw [ih, List.append_assoc]

theorem resolve_append_comma (length : Binary64) (s t : String) :
    resolve (s ++ "," ++ t) length = resolve s length ++ "," ++ resolve t length := by
  have hlist : (s ++ "," ++ t).toList = s.toList ++ ',' :: t.toList := by
    rw [String.toList_append, String.toList_append, List.append_assoc]
    rfl
  unfold resolve
  have hback : String.ofList ([','] ++ resolveChars length t.toList)
      = "," ++ String.ofList (resolveChars length t.toList) := String.ofList_append
  rw [hlist, resolveChars_append_comma, String.ofList_append, String.append_assoc]
  exact congrArg (String.ofList (resolveChars length s.toList) ++ ·) hback

/-- **Texts that are divided by commas are resolved one by one.** -/
theorem resolve_intercalate (length : Binary64) (texts : List String) :
    resolve (String.intercalate "," texts) length = String.intercalate "," (texts.map fun t => resolve t length) := by
  induction texts with
  | nil =>
    show String.ofList (resolveChars length []) = ""
    rw [resolveChars_nil]
  | cons t texts ih =>
    cases texts with
    | nil => rfl
    | cons u texts =>
      rw [String.intercalate_cons_cons, resolve_append_comma, ih]
      exact String.intercalate_cons_cons.symm

/-- A token of one of the texts is a token of all of them together. -/
theorem HasToken.intercalate (h : HasToken s) (hs : s ∈ texts) : HasToken (String.intercalate "," texts) := by
  have hinfix : s.toList <:+: (String.intercalate "," texts).toList := by
    induction texts with
    | nil => cases hs
    | cons t texts ih =>
      cases texts with
      | nil =>
        rw [List.mem_singleton.mp hs]
        exact List.infix_refl _
      | cons u texts =>
        rw [String.intercalate_cons_cons, String.toList_append, String.toList_append]
        rcases List.mem_cons.mp hs with rfl | hs
        · exact ((List.prefix_append _ _).trans (List.prefix_append _ _)).isInfix
        · exact (ih hs).trans (List.suffix_append _ _).isInfix
  obtain ⟨front, token, y, back, hsplit, htoken⟩ := h
  obtain ⟨before, after, hall⟩ := hinfix
  refine ⟨before ++ front, token, y, back ++ after, ?_, htoken⟩
  rw [← hall, hsplit]
  simp only [List.append_assoc]

end Duration
end VideoOverlay
