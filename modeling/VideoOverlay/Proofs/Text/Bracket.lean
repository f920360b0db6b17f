import VideoOverlay.Proofs.Text.Character

/-!
# `Proofs.Text.Bracket` — texts in brackets

A filter graph refers to streams in brackets, so a reader of its text finds them by looking for a bracket
that opens and the next one that closes. `bracketed` is that reader. A text without brackets is *plain*: the
reader passes over it, and what it has opened on a name that is plain it closes at the end of the name.

## Contents
- `readBrackets`, `bracketed`: the texts in brackets, from left to right.
- `Plain`, with `plain_append`, `plain_intercalate`; `plain_of_filterText`: what filters are written with is plain.
- `readBrackets_plain`, `readBrackets_name`: reading over a plain text, and over a name in brackets.
-/

namespace VideoOverlay
namespace Text

/-! ## Reading -/

/-- The texts in brackets. After an open bracket, what follows it so far is given. -/
def readBrackets : Option (List Char) → List Char → List String
  | _, [] => []
  | none, c :: cs => if c = '[' then readBrackets (some []) cs else readBrackets none cs
  | some name, c :: cs =>
    if c = ']' then String.ofList name :: readBrackets none cs else readBrackets (some (name ++ [c])) cs

/-- The texts in brackets, from left to right. -/
def bracketed (s : String) : List String := readBrackets none s.toList

/-! ## Plain texts -/

/-- A text without brackets. -/
def Plain (s : String) : Prop := ∀ c ∈ s.toList, c ≠ '[' ∧ c ≠ ']'

instance (s : String) : Decidable (Plain s) := List.decidableBAll (fun c => c ≠ '[' ∧ c ≠ ']') s.toList

@[simp] theorem plain_append {s t : String} : Plain (s ++ t) ↔ Plain s ∧ Plain t := each_append

/-- Plain texts divided by a plain separator make a plain text. -/
theorem plain_intercalate {sep : String} (hsep : Plain sep) {l : List String} (h : ∀ s ∈ l, Plain s) :
    Plain (String.intercalate sep l) := each_intercalate hsep h

/-- Brackets are not among the characters that filters are written with. -/
theorem plain_of_filterText {s : String} (h : FilterText s) : Plain s := by
  refine Each.mono h fun c hc => ⟨?_, ?_⟩
  · rintro rfl
    exact absurd hc (by decide)
  · rintro rfl
    exact absurd hc (by decide)

/-! ## Reading over plain texts -/

/-- Nothing is found in a plain text. -/
theorem readBrackets_plain {s : String} (h : Plain s) (rest : List Char) :
    readBrackets none (s.toList ++ rest) = readBrackets none rest := by
  unfold Plain at h
  generalize s.toList = cs at h ⊢
  induction cs with
  | nil => rfl
  | cons c cs ih =>
    have hc : c ≠ '[' := (h c List.mem_cons_self).1
    rw [List.cons_append, readBrackets, if_neg hc]
    exact ih fun d hd => h d (List.mem_cons_of_mem c hd)

/-- A plain name ends at the bracket that closes it. -/
theorem readBrackets_open {cs : List Char} (h : ∀ c ∈ cs, c ≠ '[' ∧ c ≠ ']') (name rest : List Char) :
    readBrackets (some name) (cs ++ ']' :: rest) = String.ofList (name ++ cs) :: readBrackets none rest := by
  induction cs generalizing name with
  | nil => rw [List.nil_append, readBrackets, if_pos rfl, List.append_nil]
  | cons c cs ih =>
    have hc : c ≠ ']' := (h c List.mem_cons_self).2
    rw [List.cons_append, readBrackets, if_neg hc, ih fun d hd => h d (List.mem_cons_of_mem c hd),
      List.append_assoc, List.singleton_append]

/-- A plain name in brackets is found. -/
theorem readBrackets_name {name : String} (h : Plain name) (rest : List Char) :
    readBrackets none (("[" ++ name ++ "]").toList ++ rest) = name :: readBrackets none rest := by
  have hlist : ("[" ++ name ++ "]").toList ++ rest = '[' :: (name.toList ++ ']' :: rest) := by simp
  rw [hlist, readBrackets, if_pos rfl, readBrackets_open h, List.nil_append, String.ofList_toList]

end Text
end VideoOverlay
