import Mathlib.Data.List.Infix
import VideoOverlay.Proofs.Duration.Occurrence
import VideoOverlay.Proofs.Overlay.Plain

/-!
# `Proofs.Duration.HeadFree` — resolving a text piece by piece

Where no head begins, no token does, and resolving changes nothing. The text of a graph is put together from
many pieces, and most of them have no head at all; but a head might begin in one piece and end in the next. It
does not if the next piece begins with what cannot continue a head, as commas and brackets do. So the text
is resolved piece by piece: a piece that *settles* becomes another text, whatever comes after it.

## Contents
- `HeadFree`, `BreaksHead`, `NoHeadBegins`: texts without a head, also where another text follows.
- `headFree_append`, `headFree_prepend`; `headFree_of_writtenAround`: filters around a color.
- `Settles`, `settles_token`, `Settles.append`, `settles_intercalate`: a piece and what it becomes.
- `Settles.resolve_eq`: the whole text.
-/

namespace VideoOverlay
namespace Duration

open Text

/-! ## Texts without a head -/

/-- The head of a token is nowhere in the text. -/
def HeadFree (s : String) : Prop := ¬head <:+: s.toList

instance (s : String) : Decidable (HeadFree s) := inferInstanceAs (Decidable (¬_))

/-- A text does not begin with a character that may continue a head. -/
def BreaksHead (cs : List Char) : Prop := ∀ c ∈ cs.head?, c ∉ head.tail

/-- No head begins in a text, when another text follows it. -/
def NoHeadBegins (cs rest : List Char) : Prop := ∀ back, back <:+ cs → back ≠ [] → ¬head <+: back ++ rest

variable {cs rest : List Char} {s s' t t' : String} {length x : Binary64}

theorem breaksHead_nil : BreaksHead [] := by
  intro c hc
  cases hc

theorem breaksHead_cons {c : Char} (h : c ∉ head.tail) (cs : List Char) : BreaksHead (c :: cs) := by
  intro d hd
  cases hd
  exact h

theorem BreaksHead.append (h : BreaksHead cs) (hrest : BreaksHead rest) : BreaksHead (cs ++ rest) := by
  cases cs with
  | nil => exact hrest
  | cons c cs => exact h

/-- A head begins with a brace. -/
theorem noHeadBegins_of_no_brace (h : '{' ∉ cs) (rest : List Char) : NoHeadBegins cs rest := by
  intro back hback hne hhead
  obtain ⟨c, back, rfl⟩ := List.exists_cons_of_ne_nil hne
  have hc : '{' = c := (List.cons_prefix_cons.mp hhead).1
  exact h (hback.mem (hc ▸ List.mem_cons_self))

/-- A head that begins in one text and ends in the next goes on with the first character of that. -/
theorem noHeadBegins_of_headFree (h : HeadFree s) (hrest : BreaksHead rest) : NoHeadBegins s.toList rest := by
  intro back hback hne hhead
  obtain ⟨more, hmore⟩ := hhead
  rcases List.append_eq_append_iff.mp hmore with ⟨inner, hinner, _⟩ | ⟨inner, hinner, hrest'⟩
  · -- The head ends in the first text.
    exact h ((hinner ▸ List.prefix_append head inner).isInfix.trans hback.isInfix)
  · cases inner with
    | nil =>
      rw [List.append_nil] at hinner
      exact h (hinner ▸ hback.isInfix)
    | cons c inner =>
      obtain ⟨d, back, rfl⟩ := List.exists_cons_of_ne_nil hne
      have htail : head.tail = back ++ c :: inner := congrArg List.tail hinner
      refine hrest c (by rw [hrest']; rfl) ?_
      rw [htail]
      exact List.mem_append_right back List.mem_cons_self

/-- Where no head begins, a head that is somewhere is in the text that follows. -/
theorem NoHeadBegins.infix_right (h : NoHeadBegins cs rest) (hhead : head <:+: cs ++ rest) : head <:+: rest := by
  induction cs with
  | nil => exact hhead
  | cons c cs ih =>
    rcases List.infix_cons_iff.mp hhead with hhere | hlater
    · exact absurd hhere (h (c :: cs) (List.suffix_refl _) (List.cons_ne_nil c cs))
    · exact ih (fun back hback => h back (hback.trans (List.suffix_cons c cs))) hlater

/-- **Where no head begins, resolving changes nothing.** -/
theorem NoHeadBegins.resolveChars_append (h : NoHeadBegins cs rest) (length : Binary64) :
    resolveChars length (cs ++ rest) = cs ++ resolveChars length rest := by
  induction cs with
  | nil => rfl
  | cons c cs ih =>
    have hnone : tokenAt? (c :: (cs ++ rest)) = none := by
      cases hfound : tokenAt? (c :: (cs ++ rest)) with
      | none => rfl
      | some token =>
        refine absurd ?_ (h (c :: cs) (List.suffix_refl _) (List.cons_ne_nil c cs))
        rw [List.cons_append, eq_of_tokenAt? hfound, Token.chars, List.append_assoc, List.append_assoc]
        exact List.prefix_append head _
    rw [List.cons_append, resolveChars_cons, hnone, List.cons_append]
    exact congrArg (c :: ·) (ih fun back hback => h back (hback.trans (List.suffix_cons c cs)))

theorem headFree_of_no_brace (h : '{' ∉ s.toList) : HeadFree s := by
  intro hhead
  exact h (hhead.mem (by decide))

/-- Texts without a head make one if the second does not continue one. -/
theorem headFree_append (hs : HeadFree s) (ht : HeadFree t) (hbreak : BreaksHead t.toList) :
    HeadFree (s ++ t) := by
  intro hhead
  rw [String.toList_append] at hhead
  exact ht ((noHeadBegins_of_headFree hs hbreak).infix_right hhead)

/-- A text without a brace may come before any text without a head. -/
theorem headFree_prepend (hs : '{' ∉ s.toList) (ht : HeadFree t) : HeadFree (s ++ t) := by
  intro hhead
  rw [String.toList_append] at hhead
  exact ht ((noHeadBegins_of_no_brace hs t.toList).infix_right hhead)

theorem headFree_of_filterText (h : FilterText s) : HeadFree s :=
  headFree_of_no_brace (brace_not_mem_of_filterText h)

/-- A filter around a color has no head if the name of the color has none. -/
theorem headFree_of_writtenAround {color : Option Color} (h : WrittenAround color s)
    (hname : ∀ c, color = some c → HeadFree c.name) : HeadFree s := by
  cases h with
  | nothing hown => exact headFree_of_filterText hown
  | name hbefore hafter =>
    have hmark : FilterText "@" := by decide
    have hclose := headFree_of_filterText (each_append.mpr ⟨hmark, hafter⟩)
    refine headFree_prepend (brace_not_mem_of_filterText hbefore) ?_
    -- What follows the name begins with a mark that is not in a head.
    refine headFree_append (hname _ rfl) hclose ?_
    rw [String.toList_append]
    exact breaksHead_cons (by decide) _

/-- A text without a head has no token. -/
theorem HeadFree.findTokenText?_eq_none (h : HeadFree s) : findTokenText? s = none := by
  rw [findTokenText?_eq_none_iff]
  rintro ⟨front, t, x, back, heq, body, rfl, _⟩
  apply h
  rw [heq]
  exact ⟨front, body ++ [closing] ++ back, by simp only [List.append_assoc]⟩

/-! ## Pieces -/

/-- Resolving makes one text of another one, whatever comes after it and does not continue a head; and what
it makes has no head. -/
structure Settles (length : Binary64) (s s' : String) : Prop where
  resolves : ∀ rest, BreaksHead rest →
    resolveChars length (s.toList ++ rest) = s'.toList ++ resolveChars length rest
  headFree : HeadFree s'

/-- A text without a head stays as it is. -/
theorem settles_of_headFree (h : HeadFree s) : Settles length s s where
  resolves _ hrest := (noHeadBegins_of_headFree h hrest).resolveChars_append length
  headFree := h

theorem isToken_tokenText (hfinite : x.isFinite = true) (hpos : Binary64.lt .zero x = true) :
    IsToken (tokenText x).toList x := by
  obtain ⟨hle, hnot⟩ := Binary64.lt_iff.mp hpos
  have hne : x.eq .zero = false := by rw [Binary64.eq, hnot, Bool.false_and]
  have hbody : bodyText x = '-' :: x.chars := by
    rw [bodyText, hne]
    rfl
  refine ⟨'-' :: x.chars, ?_, .less (Binary64.ofChars?_chars x) hfinite hle⟩
  rw [tokenText, String.toList_ofList, hbody]

/-- **A token becomes the time it stands for.** -/
theorem settles_token (hfinite : x.isFinite = true) (hpos : Binary64.lt .zero x = true) :
    Settles length (tokenText x) (secondsBefore length x) where
  resolves rest _ := by
    obtain ⟨token, hfound, hchars, rfl, rfl⟩ := (isToken_tokenText hfinite hpos).exists_tokenAt? rest
    obtain ⟨cs, hcons, _⟩ := (isToken_tokenText hfinite hpos).eq_cons
    rw [hcons, List.cons_append] at hfound ⊢
    rw [resolveChars_cons, hfound]
  headFree := headFree_of_no_brace (brace_not_mem_secondsText _)

/-- A text without a brace may come first. -/
theorem Settles.prepend {u : String} (hu : '{' ∉ u.toList) (h : Settles length s s') :
    Settles length (u ++ s) (u ++ s') where
  resolves rest hrest := by
    rw [String.toList_append, String.toList_append, List.append_assoc, List.append_assoc,
      (noHeadBegins_of_no_brace hu _).resolveChars_append, h.resolves rest hrest]
  headFree := headFree_prepend hu h.headFree

/-- Another piece may come next if it does not continue a head. -/
theorem Settles.append (h : Settles length s s') (ht : Settles length t t') (hbreak : BreaksHead t.toList)
    (hbreak' : BreaksHead t'.toList) : Settles length (s ++ t) (s' ++ t') where
  resolves rest hrest := by
    rw [String.toList_append, String.toList_append, List.append_assoc, List.append_assoc,
      h.resolves _ (hbreak.append hrest), ht.resolves rest hrest]
  headFree := headFree_append h.headFree ht.headFree hbreak'

/-- Pieces divided by commas. -/
theorem settles_intercalate {α : Type} {f g : α → String} {l : List α}
    (h : ∀ a ∈ l, Settles length (f a) (g a)) :
    Settles length (String.intercalate "," (l.map f)) (String.intercalate "," (l.map g)) := by
  induction l with
  | nil => exact settles_of_headFree (by decide : HeadFree "")
  | cons a l ih =>
    have hfirst : Settles length (f a) (g a) := h a List.mem_cons_self
    have hrest := ih fun b hb => h b (List.mem_cons_of_mem a hb)
    cases l with
    | nil => exact hfirst
    | cons b l =>
      have hcomma : '{' ∉ ",".toList := by decide
      rw [List.map_cons, List.map_cons, List.map_cons, List.map_cons, String.intercalate_cons_cons,
        String.intercalate_cons_cons, String.append_assoc, String.append_assoc]
      refine hfirst.append (hrest.prepend hcomma) ?_ ?_
      · rw [String.toList_append]
        exact breaksHead_cons (by decide) _
      · rw [String.toList_append]
        exact breaksHead_cons (by decide) _

theorem headFree_intercalate {α : Type} {f : α → String} {l : List α} (h : ∀ a ∈ l, HeadFree (f a)) :
    HeadFree (String.intercalate "," (l.map f)) := by
  have hsettles : ∀ a ∈ l, Settles .zero (f a) (f a) := fun a ha => settles_of_headFree (h a ha)
  exact (settles_intercalate hsettles).headFree

/-- **A whole text is resolved to what it settles to**, and nothing is left to resolve. -/
theorem Settles.resolve_eq (h : Settles length s s') :
    resolve s length = s' ∧ findTokenText? s' = none := by
  refine ⟨?_, h.headFree.findTokenText?_eq_none⟩
  have hall := h.resolves [] breaksHead_nil
  rw [List.append_nil, resolveChars_nil, List.append_nil] at hall
  rw [resolve, hall, String.ofList_toList]

end Duration
end VideoOverlay
