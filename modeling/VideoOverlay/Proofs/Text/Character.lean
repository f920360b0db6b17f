import VideoOverlay.Proofs.Number.Numeral

/-!
# `Proofs.Text.Character` — texts of characters of one kind

What a text has to do with brackets, braces and tokens follows from the characters it is made of. Filters
are written with a few characters only, none of them a bracket or a brace (`isFilterChar`); so wherever a
graph has one, it comes from a stream, from a token, or from a text that was given from outside.

## Contents
- `Each`: a text all of whose characters have a property, with `each_append`, `each_intercalate`.
- `exists_intercalate_eq`: one of several texts that are put together, with what is before and after it.
- `isDecimalChar`; `each_decimal_int`, `each_decimal_binary64`: what finite numbers are written with.
  `Each.ne_of_decimal`: any other character is not in them.
- `isFilterChar`, `FilterText`; `filterText_int`, `filterText_binary64`: numbers are written with these.
-/

namespace VideoOverlay
namespace Text

variable {P Q : Char → Prop} {s t sep : String}

/-! ## Texts of characters with a property -/

/-- Each character of a text has a property. -/
def Each (P : Char → Prop) (s : String) : Prop := ∀ c ∈ s.toList, P c

instance [DecidablePred P] (s : String) : Decidable (Each P s) := List.decidableBAll P s.toList

theorem Each.mono (h : Each P s) (hPQ : ∀ c, P c → Q c) : Each Q s := fun c hc => hPQ c (h c hc)

theorem each_append : Each P (s ++ t) ↔ Each P s ∧ Each P t := by
  simp only [Each, String.toList_append]
  exact List.forall_mem_append

theorem each_empty : Each P "" := List.forall_mem_nil P

/-- Texts of such characters, put together with a separator of such characters. -/
theorem each_intercalate (hsep : Each P sep) {l : List String} (h : ∀ s ∈ l, Each P s) :
    Each P (String.intercalate sep l) := by
  induction l with
  | nil =>
    rw [String.intercalate_nil]
    exact each_empty
  | cons s l ih =>
    have hs : Each P s := h s List.mem_cons_self
    cases l with
    | nil => rwa [String.intercalate_singleton]
    | cons t l =>
      rw [String.intercalate_cons_cons, each_append, each_append]
      exact ⟨⟨hs, hsep⟩, ih fun u hu => h u (List.mem_cons_of_mem s hu)⟩

/-- One of several texts that are put together may be any text: what is before and after it does not depend
on it. -/
theorem exists_intercalate_eq (hsep : Each P sep) {front back : List String} (hfront : ∀ s ∈ front, Each P s)
    (hback : ∀ s ∈ back, Each P s) :
    ∃ before after, Each P before ∧ Each P after
      ∧ ∀ s, String.intercalate sep (front ++ [s] ++ back) = before ++ (s ++ after) := by
  induction front with
  | nil =>
    cases back with
    | nil =>
      refine ⟨"", "", each_empty, each_empty, fun s => ?_⟩
      rw [List.append_nil, List.nil_append, String.intercalate_singleton, String.empty_append,
        String.append_empty]
    | cons t back =>
      refine ⟨"", sep ++ String.intercalate sep (t :: back), each_empty,
        each_append.mpr ⟨hsep, each_intercalate hsep hback⟩, fun s => ?_⟩
      rw [List.nil_append, List.singleton_append, String.intercalate_cons_cons, String.empty_append,
        String.append_assoc]
  | cons f front ih =>
    obtain ⟨before, after, hbefore, hafter, heq⟩ := ih fun s hs => hfront s (List.mem_cons_of_mem f hs)
    refine ⟨f ++ sep ++ before, after, ?_, hafter, fun s => ?_⟩
    · exact each_append.mpr ⟨each_append.mpr ⟨hfront f List.mem_cons_self, hsep⟩, hbefore⟩
    · -- Something follows the first text: the rest of `front`, or `s`.
      have hcons : String.intercalate sep (f :: front ++ [s] ++ back)
          = f ++ sep ++ String.intercalate sep (front ++ [s] ++ back) := by
        cases front with
        | nil => exact String.intercalate_cons_cons
        | cons g front => exact String.intercalate_cons_cons
      rw [hcons, heq]
      simp only [String.append_assoc]

/-! ## The characters of numbers -/

/-- The characters that finite numbers are written with. -/
def isDecimalChar (c : Char) : Bool := c.isDigit || c = '-' || c = '.'

theorem isDecimalChar_cases {c : Char} (h : isDecimalChar c = true) : c.isDigit = true ∨ c = '-' ∨ c = '.' := by
  simpa [isDecimalChar, or_assoc] using h

theorem isDecimalChar_of_isDigit {c : Char} (h : c.isDigit = true) : isDecimalChar c = true := by
  rw [isDecimalChar, h]
  rfl

theorem each_decimal_nat (n : Nat) : Each (fun c => isDecimalChar c = true) (toString n) := by
  intro c hc
  rw [Nat.toString_eq_ofList_toDigits, String.toList_ofList] at hc
  exact isDecimalChar_of_isDigit (Nat.isDigit_of_mem_toDigits (by decide) (by decide) hc)

theorem each_decimal_int (n : Int) : Each (fun c => isDecimalChar c = true) (toString n) := by
  cases n with
  | ofNat n => exact each_decimal_nat n
  | negSucc n => exact each_append.mpr ⟨by decide, each_decimal_nat (n + 1)⟩

theorem isDecimalChar_of_mem_chars {d : Decimal} {c : Char} (hc : c ∈ d.chars) : isDecimalChar c = true := by
  unfold Decimal.chars at hc
  split at hc
  · exact isDecimalChar_of_isDigit (Decimal.isDigit_of_mem_digits hc)
  · rcases List.mem_append.mp hc with hwhole | hplaces
    · exact isDecimalChar_of_isDigit (Decimal.isDigit_of_mem_digits (List.mem_of_mem_take hwhole))
    · rcases List.mem_cons.mp hplaces with rfl | hplaces
      · decide
      · exact isDecimalChar_of_isDigit (Decimal.isDigit_of_mem_digits (List.mem_of_mem_drop hplaces))

theorem each_decimal_binary64 {x : Binary64} (h : x.isFinite = true) :
    Each (fun c => isDecimalChar c = true) x.text := by
  intro c hc
  rw [Binary64.text, String.toList_ofList] at hc
  cases x with
  | nan => cases h
  | infinite negative => cases h
  | finite negative units fits =>
    rcases List.mem_append.mp hc with hsign | hdigits
    · cases negative with
      | false => cases hsign
      | true =>
        obtain rfl : c = '-' := List.mem_singleton.mp hsign
        decide
    · exact isDecimalChar_of_mem_chars hdigits

/-- A number is written without any other character. -/
theorem Each.ne_of_decimal {d : Char} (h : Each (fun c => isDecimalChar c = true) s) (hd : isDecimalChar d = false) :
    Each (· ≠ d) s := by
  intro c hc
  rintro rfl
  rw [h c hc] at hd
  cases hd

/-! ## The characters of filters -/

/-- The characters that filters are written with: those of numerals and the marks between options. -/
def isFilterChar (c : Char) : Bool := Binary64.isNumeralChar c || ['=', ':', ',', '\'', '@', '(', ')'].contains c

/-- A text of characters that filters are written with. -/
abbrev FilterText (s : String) : Prop := Each (fun c => isFilterChar c = true) s

theorem isFilterChar_of_isNumeralChar {c : Char} (h : Binary64.isNumeralChar c = true) : isFilterChar c = true := by
  rw [isFilterChar, h, Bool.true_or]

theorem isFilterChar_of_isDecimalChar {c : Char} (h : isDecimalChar c = true) : isFilterChar c = true := by
  rcases isDecimalChar_cases h with hdigit | rfl | rfl
  · exact isFilterChar_of_isNumeralChar (Binary64.isNumeralChar_of_isDigit hdigit)
  · decide
  · decide

theorem filterText_nat (n : Nat) : FilterText (toString n) :=
  (each_decimal_nat n).mono fun _ => isFilterChar_of_isDecimalChar

theorem filterText_int (n : Int) : FilterText (toString n) :=
  (each_decimal_int n).mono fun _ => isFilterChar_of_isDecimalChar

theorem filterText_binary64 (x : Binary64) : FilterText x.text := by
  intro c hc
  rw [Binary64.text, String.toList_ofList] at hc
  exact isFilterChar_of_isNumeralChar (Binary64.isNumeralChar_of_mem_chars c hc)

/-- A filter has no brace of its own. -/
theorem brace_not_mem_of_filterText (h : FilterText s) : '{' ∉ s.toList :=
  fun hmem => absurd (h '{' hmem) (by decide)

end Text
end VideoOverlay
