import Mathlib.Data.List.Induction
import VideoOverlay.Color

/-!
# `Proofs.Color.Thickness` — the texts that name a thickness

A thickness is read from `max` or from a number, and a number of pixels has many texts: a plus sign may stand in
front, and any zeros. `IsDecimal` says which digits stand for which number without a reader, digit by digit from
the left, so the bound of 32 bits is one on the number and not on how many digits there are. What is written
for a thickness is one of its texts, and a border without a pixel is the only thickness that has none.

## Contents
- `WritesCount`, with `word32OfChars?_eq_some_iff`: texts that stand for whole numbers.
- `ofPixels_eq_ok_iff`, `ofText_eq_ok_iff`: when a thickness is made.
- `IsDecimal`, `isDecimal_iff`: digits and the number they stand for.
- `Thickness.Names`, with `ofText_reads_names_and_texts`.
-/

namespace VideoOverlay

/-! ## Whole numbers -/

/-- A text stands for a number: it has digits, at least one, after an optional plus sign. -/
def WritesCount (text : String) (n : Nat) : Prop :=
  ∃ sign digits : List Char, text.toList = sign ++ digits ∧ (sign = [] ∨ sign = ['+']) ∧ digits ≠ []
    ∧ (∀ c ∈ digits, c.isDigit = true) ∧ Nat.ofDigitChars 10 digits 0 = n

theorem digitsValue?_eq_some_iff {ds : List Char} {n : Nat} :
    digitsValue? ds = some n ↔ ds ≠ [] ∧ (∀ c ∈ ds, c.isDigit = true) ∧ Nat.ofDigitChars 10 ds 0 = n := by
  unfold digitsValue?
  by_cases h : ds ≠ [] ∧ ds.all Char.isDigit
  · rw [if_pos h, Option.some.injEq]
    exact ⟨fun hn => ⟨h.1, List.all_eq_true.mp h.2, hn⟩, fun hn => hn.2.2⟩
  · rw [if_neg h]
    constructor
    · intro hn
      cases hn
    · rintro ⟨hne, hdigits, _⟩
      exact absurd ⟨hne, List.all_eq_true.mpr hdigits⟩ h

/-- Digits have no sign in front. -/
theorem dropPlus_of_digits {ds : List Char} (h : ∀ c ∈ ds, c.isDigit = true) : dropPlus ds = ds := by
  unfold dropPlus
  split
  · exact absurd (h '+' List.mem_cons_self) (by decide)
  · rfl

theorem word32OfChars?_eq_some_iff {text : String} {count : UInt32} :
    word32OfChars? text.toList = some count ↔ WritesCount text count.toNat := by
  have hdigits : word32OfChars? text.toList = some count
      ↔ digitsValue? (dropPlus text.toList) = some count.toNat := by
    unfold word32OfChars?
    rw [Option.bind_eq_some_iff]
    constructor
    · rintro ⟨n, hn, hcount⟩
      split at hcount
      · cases hcount
        exact hn
      · cases hcount
    · intro hn
      refine ⟨count.toNat, hn, ?_⟩
      rw [dif_pos count.toNat_lt, UInt32.ofNatLT_toNat]
  rw [hdigits, digitsValue?_eq_some_iff]
  constructor
  · rintro ⟨hne, hall, hvalue⟩
    revert hne hall hvalue
    unfold dropPlus
    split
    next cs hcs =>
      intro hne hall hvalue
      exact ⟨['+'], cs, hcs, .inr rfl, hne, hall, hvalue⟩
    next =>
      intro hne hall hvalue
      exact ⟨[], text.toList, rfl, .inl rfl, hne, hall, hvalue⟩
  · rintro ⟨sign, ds, htext, hsign, hne, hall, hvalue⟩
    have hdrop : dropPlus text.toList = ds := by
      rw [htext]
      rcases hsign with rfl | rfl
      · exact dropPlus_of_digits hall
      · rfl
    rw [hdrop]
    exact ⟨hne, hall, hvalue⟩

/-! ## When a thickness is made -/

namespace Thickness

theorem ofPixels_eq_ok_iff {count : UInt32} {t : Thickness} :
    ofPixels count = .ok t ↔ 1 ≤ count.toNat ∧ t = .pixels count := by
  have hzero : count = 0 ↔ ¬1 ≤ count.toNat := by
    rw [← UInt32.toNat_inj, UInt32.toNat_zero]
    omega
  unfold ofPixels
  by_cases h : count = 0
  · rw [if_pos h]
    constructor
    · intro ht
      cases ht
    · intro ht
      exact absurd ht.1 (hzero.mp h)
  · rw [if_neg h]
    constructor
    · intro ht
      cases ht
      exact ⟨not_not.mp (mt hzero.mpr h), rfl⟩
    · rintro ⟨_, rfl⟩
      rfl

theorem ofText_eq_ok_iff {name : String} {t : Thickness} :
    ofText name = .ok t ↔ (name = "max" ∧ t = .max)
      ∨ ∃ count : UInt32, WritesCount name count.toNat ∧ 1 ≤ count.toNat ∧ t = .pixels count := by
  unfold ofText
  by_cases hmax : name = "max"
  · rw [if_pos hmax]
    have hnone : ∀ count : UInt32, ¬WritesCount name count.toNat := by
      intro count hcount
      rw [← word32OfChars?_eq_some_iff, hmax] at hcount
      cases hcount
    constructor
    · intro ht
      cases ht
      exact .inl ⟨hmax, rfl⟩
    · rintro (⟨_, rfl⟩ | ⟨count, hcount, _⟩)
      · rfl
      · exact absurd hcount (hnone count)
  · rw [if_neg hmax]
    cases hword : word32OfChars? name.toList with
    | none =>
      constructor
      · intro ht
        cases ht
      · rintro (⟨hname, _⟩ | ⟨count, hcount, _⟩)
        · exact absurd hname hmax
        · rw [← word32OfChars?_eq_some_iff, hword] at hcount
          cases hcount
    | some count =>
      show ofPixels count = .ok t ↔ _
      rw [ofPixels_eq_ok_iff]
      constructor
      · rintro ⟨hpos, rfl⟩
        exact .inr ⟨count, word32OfChars?_eq_some_iff.mp hword, hpos, rfl⟩
      · rintro (⟨hname, _⟩ | ⟨other, hother, hpos, rfl⟩)
        · exact absurd hname hmax
        · rw [← word32OfChars?_eq_some_iff, hword] at hother
          cases hother
          exact ⟨hpos, rfl⟩

end Thickness

/-! ## Digits -/

/-- The decimal digits. Each stands for its place among them. -/
def decimalDigits : List Char := "0123456789".toList

/-- A text of digits, at least one, and the number that it stands for. -/
inductive IsDecimal : List Char → Nat → Prop where
  | digit {c : Char} {d : Nat} (place : decimalDigits[d]? = some c) : IsDecimal [c] d
  | next {ds : List Char} {n : Nat} {c : Char} {d : Nat} (front : IsDecimal ds n)
      (place : decimalDigits[d]? = some c) : IsDecimal (ds ++ [c]) (10 * n + d)

theorem getElem?_decimalDigits_iff {c : Char} {d : Nat} :
    decimalDigits[d]? = some c ↔ c.isDigit = true ∧ c.toNat - '0'.toNat = d := by
  have hplace : ∀ k, k < 10 → decimalDigits[k]? = some (Nat.digitChar k) := by decide
  constructor
  · intro h
    have hd : d < 10 := (List.getElem?_eq_some_iff.mp h).1
    rw [hplace d hd] at h
    cases h
    exact ⟨Nat.isDigit_digitChar.trans (decide_eq_true hd), Nat.toNat_digitChar_sub_48_of_lt_ten hd⟩
  · rintro ⟨hdigit, rfl⟩
    simp only [Char.isDigit, Bool.and_eq_true, decide_eq_true_eq, UInt32.le_iff_toNat_le] at hdigit
    have hlow : 48 ≤ c.toNat := hdigit.1
    have hhigh : c.toNat ≤ 57 := hdigit.2
    show decimalDigits[c.toNat - 48]? = some c
    rw [hplace _ (by omega)]
    apply congrArg some
    apply Char.toNat_inj.mp
    rw [Nat.toNat_digitChar_of_lt_ten (by omega)]
    omega

/-- **Digits stand for the number that is counted up from the left.** -/
theorem isDecimal_iff {ds : List Char} {n : Nat} :
    IsDecimal ds n ↔ ds ≠ [] ∧ (∀ c ∈ ds, c.isDigit = true) ∧ Nat.ofDigitChars 10 ds 0 = n := by
  constructor
  · intro h
    induction h with
    | digit place =>
      obtain ⟨hdigit, hvalue⟩ := getElem?_decimalDigits_iff.mp place
      refine ⟨List.cons_ne_nil _ _, List.forall_mem_singleton.mpr hdigit, ?_⟩
      rw [Nat.ofDigitChars_cons, Nat.ofDigitChars_nil, Nat.mul_zero, Nat.zero_add, hvalue]
    | next _ place ih =>
      obtain ⟨hdigit, hvalue⟩ := getElem?_decimalDigits_iff.mp place
      obtain ⟨_, hfront, hn⟩ := ih
      refine ⟨List.append_ne_nil_of_right_ne_nil _ (List.cons_ne_nil _ _), ?_, ?_⟩
      · intro c hc
        rcases List.mem_append.mp hc with hc | hc
        · exact hfront c hc
        · rw [List.mem_singleton.mp hc]
          exact hdigit
      · rw [Nat.ofDigitChars_append, hn, Nat.ofDigitChars_cons, Nat.ofDigitChars_nil, hvalue]
  · rintro ⟨hne, hdigits, rfl⟩
    -- From the right, as a number grows by its last digit.
    induction ds using List.reverseRecOn with
    | nil => exact absurd rfl hne
    | append_singleton ds c ih =>
      have hc : c.isDigit = true := hdigits c (List.mem_append_right ds List.mem_cons_self)
      have hplace := getElem?_decimalDigits_iff.mpr ⟨hc, rfl⟩
      rw [Nat.ofDigitChars_append, Nat.ofDigitChars_cons, Nat.ofDigitChars_nil]
      by_cases hds : ds = []
      · subst hds
        rw [Nat.ofDigitChars_nil, Nat.mul_zero, Nat.zero_add]
        exact .digit hplace
      · exact .next (ih hds fun d hd => hdigits d (List.mem_append_left _ hd)) hplace

theorem writesCount_iff {text : String} {n : Nat} :
    WritesCount text n ↔ ∃ sign digits : List Char,
      text.toList = sign ++ digits ∧ (sign = [] ∨ sign = ['+']) ∧ IsDecimal digits n := by
  unfold WritesCount
  simp only [isDecimal_iff]

/-! ## Texts of a thickness -/

namespace Thickness

/-- A text names a thickness: it is `max`, or a number of pixels from 1 up to the greatest one of 32 bits, with any
zeros in front and an optional plus sign before them. -/
inductive Names (text : String) : Thickness → Prop where
  | max (word : text = "max") : Names text .max
  | pixels {sign digits : List Char} {n : Nat} (written : text.toList = sign ++ digits)
      (plus : sign = [] ∨ sign = ['+']) (value : IsDecimal digits n) (least : 1 ≤ n) (most : n ≤ 4294967295) :
      Names text (.pixels (UInt32.ofNat n))

theorem ofText_eq_ok_iff_names {text : String} {t : Thickness} : ofText text = .ok t ↔ Names text t := by
  rw [ofText_eq_ok_iff]
  constructor
  · rintro (⟨rfl, rfl⟩ | ⟨count, hcount, hpos, rfl⟩)
    · exact .max rfl
    · obtain ⟨sign, digits, hwritten, hplus, hvalue⟩ := writesCount_iff.mp hcount
      have hmost : count.toNat < 4294967296 := count.toNat_lt
      have hnamed : Names text (.pixels (UInt32.ofNat count.toNat)) :=
        .pixels hwritten hplus hvalue hpos (by omega)
      rwa [UInt32.ofNat_toNat] at hnamed
  · intro h
    cases h with
    | max hword => exact .inl ⟨hword, rfl⟩
    | @pixels sign digits n hwritten hplus hvalue hleast hmost =>
      have hsize : n < UInt32.size := Nat.lt_succ_of_le hmost
      have hn : (UInt32.ofNat n).toNat = n := UInt32.toNat_ofNat_of_lt' hsize
      refine .inr ⟨UInt32.ofNat n, ?_, ?_, rfl⟩
      · rw [hn]
        exact writesCount_iff.mpr ⟨sign, digits, hwritten, hplus, hvalue⟩
      · rw [hn]
        exact hleast

/-- What is written for a number of pixels stands for this number. -/
theorem writesCount_text (count : UInt32) : WritesCount (pixels count).text count.toNat := by
  refine ⟨[], Nat.toDigits 10 count.toNat, ?_, .inl rfl, Nat.toDigits_ne_nil, ?_, ?_⟩
  · show (toString count.toNat).toList = _
    rw [Nat.toString_eq_ofList_toDigits, String.toList_ofList, List.nil_append]
  · intro c hc
    exact Nat.isDigit_of_mem_toDigits (by decide) (by decide) hc
  · exact Nat.ofDigitChars_ten_toDigits

/-- No text names a border without a pixel. -/
theorem ne_pixels_zero_of_ofText {text : String} {t : Thickness} (h : ofText text = .ok t) : t ≠ .pixels 0 := by
  rintro rfl
  rcases ofText_eq_ok_iff.mp h with ⟨_, ht⟩ | ⟨count, _, hpos, hcount⟩
  · cases ht
  · cases hcount
    exact absurd hpos (by decide)

theorem ofText_text_eq_ok_iff {t : Thickness} : ofText t.text = .ok t ↔ t ≠ .pixels 0 := by
  constructor
  · exact ne_pixels_zero_of_ofText
  · intro h
    cases t with
    | max => rfl
    | pixels count =>
      have hpos : 1 ≤ count.toNat := by
        rw [Nat.one_le_iff_ne_zero]
        intro hzero
        apply h
        rw [UInt32.toNat_inj.mp (hzero.trans UInt32.toNat_zero.symm)]
      exact ofText_eq_ok_iff.mpr (.inr ⟨count, writesCount_text count, hpos, rfl⟩)

/-- **A thickness is read from exactly the texts that name it, and from the text that is written for it**, unless it
is a border without a pixel, for which no text is read. So a text that is read may be replaced by what is written
for its thickness, and one that is not gives the same failure as before. -/
theorem ofText_reads_names_and_texts :
    (∀ text t, ofText text = .ok t ↔ Names text t)
      ∧ (∀ t : Thickness, ofText t.text = .ok t ↔ t ≠ .pixels 0)
      ∧ ∀ text, ((ofText text).bind fun t => ofText t.text) = ofText text := by
  refine ⟨fun _ _ => ofText_eq_ok_iff_names, fun _ => ofText_text_eq_ok_iff, fun text => ?_⟩
  cases h : ofText text with
  | error v => rfl
  | ok t => exact ofText_text_eq_ok_iff.mpr (ne_pixels_zero_of_ofText h)

/-- A sign and zeros are read, and not written. The least number that is too large is refused. -/
example : ofText "+007" = .ok (.pixels 7) ∧ text (.pixels 7) = "7" ∧ (ofText "4294967295").isOk
    ∧ ¬(ofText "4294967296").isOk := by
  decide +kernel

end Thickness
end VideoOverlay
