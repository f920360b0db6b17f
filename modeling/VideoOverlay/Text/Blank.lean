/-!
# `Text.Blank` — blank characters and trimming

The characters Unicode calls white space, and the text left when they are cut from both ends. A name,
a codec or a drawing text counts as given only if something is left.

## Contents
- `isBlank`: the Unicode property `White_Space`, as ranges of code points.
- `trimChars`, `trim`: the text without blank characters at either end.
- `isBlankText`: a text of blank characters only.
-/

namespace VideoOverlay
namespace Text

/-! ## The property -/

/-- The ranges of code points with the Unicode property `White_Space`. -/
def blankRanges : List (Nat × Nat) :=
  [(0x09, 0x0D), (0x20, 0x20), (0x85, 0x85), (0xA0, 0xA0), (0x1680, 0x1680), (0x2000, 0x200A),
    (0x2028, 0x2029), (0x202F, 0x202F), (0x205F, 0x205F), (0x3000, 0x3000)]

/-- A blank character: one with the Unicode property `White_Space`. -/
def isBlank (c : Char) : Bool := blankRanges.any fun r => r.1 ≤ c.toNat && c.toNat ≤ r.2

/-! ## Trimming -/

/-- The characters left when blank ones are cut from both ends. -/
def trimChars (cs : List Char) : List Char :=
  ((cs.dropWhile isBlank).reverse.dropWhile isBlank).reverse

/-- The text without blank characters at either end. -/
def trim (s : String) : String := String.ofList (trimChars s.toList)

/-- A text is blank if it holds blank characters only; the empty text is blank. -/
def isBlankText (s : String) : Bool := s.toList.all isBlank

theorem dropWhile_isBlank_eq_nil {cs : List Char} :
    cs.dropWhile isBlank = [] ↔ ∀ c ∈ cs, isBlank c = true := by
  induction cs with
  | nil => simp
  | cons c cs ih => by_cases h : isBlank c = true <;> simp [h, ih]

/-- Trimming leaves nothing exactly of blank characters. -/
theorem trimChars_eq_nil {cs : List Char} : trimChars cs = [] ↔ ∀ c ∈ cs, isBlank c = true := by
  have hpart : ∀ c ∈ cs.takeWhile isBlank, isBlank c = true := List.all_eq_true.1 List.all_takeWhile
  simp only [trimChars, List.reverse_eq_nil_iff, dropWhile_isBlank_eq_nil, List.mem_reverse]
  refine ⟨fun h c hc => ?_, fun h c hc => h c ((List.dropWhile_sublist _).subset hc)⟩
  rw [← List.takeWhile_append_dropWhile (p := isBlank) (l := cs)] at hc
  exact (List.mem_append.1 hc).elim (hpart c) (h c)

/-- A text is blank exactly if trimming leaves nothing of it. -/
theorem isBlankText_eq_true {s : String} : isBlankText s = true ↔ trim s = "" := by
  rw [trim, ← String.toList_inj, String.toList_ofList, isBlankText, List.all_eq_true]
  exact trimChars_eq_nil.symm

end Text
end VideoOverlay
