import Mathlib.Data.List.TakeWhile
import VideoOverlay.Number.Numeral

/-!
# `Proofs.Number.Numeral` — every double reads back from its text

What is written for a double is a numeral, and reading that numeral gives the double again
(`ofChars?_chars`). The decimal that `shortest` chooses rounds to the double it was chosen for, so what is
left to show is that a reader finds its coefficient and places in the text, and that the shortcuts by which
`scientific` keeps away from large powers of ten agree with rounding (`scientific_neg_eq_ofRatio`).

## Contents
- `isNumeralChar`, `isNumeralChar_of_mem`: the characters that numerals are made of.
- `two_pow_le_roundUnits`, `roundUnits_eq_zero`: what is too large, or next to nothing, is rounded so.
- `scientific_neg_eq_ofRatio`: a coefficient and its places are read as the nearest double.
- `ofChars?_chars`: the text of a double is a numeral for it.
-/

namespace VideoOverlay

-- Powers of numbers are those of the core library, also beside libraries with powers of their own.
attribute [local instance(2000)] instPowNat

/-! ## Rounding what is large or tiny -/

theorem le_divRound (n d : Nat) : n / d ≤ divRound n d := by
  simp only [divRound]
  split
  · exact Nat.le_succ _
  · exact Nat.le_refl _

/-- Less than half a unit is rounded to nothing. -/
theorem roundUnits_eq_zero {n d : Nat} (h : 2 * n < d) : roundUnits n d = 0 := by
  have hquotient : n / d = 0 := Nat.div_eq_of_lt (by omega)
  have hremainder : n % d = n := Nat.mod_eq_of_lt (by omega)
  have hbit : lowestBit 0 = 0 := by decide
  simp only [roundUnits, hquotient, hbit, Nat.pow_zero, Nat.mul_one, divRound, hremainder]
  rw [if_neg (by omega)]

/-- Rounding does not go below a power of two, which has one bit only. -/
theorem two_pow_le_roundUnits {n d e : Nat} (h : 2 ^ e ≤ n / d) : 2 ^ e ≤ roundUnits n d := by
  have hne : n / d ≠ 0 := Nat.ne_of_gt (Nat.lt_of_lt_of_le (Nat.two_pow_pos e) h)
  have hlog : e ≤ (n / d).log2 := (Nat.le_log2 hne).mpr h
  have hbit : lowestBit (n / d) ≤ (n / d).log2 := Nat.sub_le _ _
  -- The leading bit is among those that are kept.
  have hlead : 2 ^ ((n / d).log2 - lowestBit (n / d)) ≤ n / d / 2 ^ lowestBit (n / d) := by
    rw [Nat.le_div_iff_mul_le (Nat.two_pow_pos _), ← Nat.pow_add, Nat.sub_add_cancel hbit]
    exact Nat.log2_self_le hne
  calc 2 ^ e ≤ 2 ^ (n / d).log2 := Nat.pow_le_pow_right (by decide) hlog
    _ = 2 ^ ((n / d).log2 - lowestBit (n / d)) * 2 ^ lowestBit (n / d) := by
      rw [← Nat.pow_add, Nat.sub_add_cancel hbit]
    _ ≤ n / d / 2 ^ lowestBit (n / d) * 2 ^ lowestBit (n / d) := Nat.mul_le_mul_right _ hlead
    _ ≤ roundUnits n d := by
      rw [Nat.div_div_eq_div_mul]
      exact Nat.mul_le_mul_right _ (le_divRound _ _)

/-- What is too large for a double stays so when it is rounded. -/
theorem unitLimit_le_roundUnits {n d : Nat} (hd : 0 < d) (h : unitLimit * d ≤ n) :
    unitLimit ≤ roundUnits n d := by
  have hpower : ∃ e, unitLimit = 2 ^ e := ⟨1024 + unitExponent, by decide +kernel⟩
  obtain ⟨e, he⟩ := hpower
  rw [he] at h ⊢
  exact two_pow_le_roundUnits ((Nat.le_div_iff_mul_le hd).mpr h)

namespace Binary64

/-- A ratio of `10 ^ k` or more is infinite, if that is too large for a double. -/
theorem ofRatio_of_large {negative : Bool} {n d k : Nat} (hd : 0 < d) (hk : unitLimit ≤ 10 ^ k * unitsPerOne)
    (h : 10 ^ k * d ≤ n) : ofRatio negative n d = .infinite negative := by
  have hlimit : unitLimit * d ≤ n * unitsPerOne :=
    calc unitLimit * d ≤ 10 ^ k * unitsPerOne * d := Nat.mul_le_mul_right _ hk
      _ = 10 ^ k * d * unitsPerOne := Nat.mul_right_comm _ _ _
      _ ≤ n * unitsPerOne := Nat.mul_le_mul_right _ h
  rw [ofRatio, ofUnits, dif_neg (Nat.not_lt.mpr (unitLimit_le_roundUnits hd hlimit))]

/-- A ratio of less than `10 ^ (-k)` is zero, if that is at most half a unit. -/
theorem ofRatio_of_tiny {negative : Bool} {n d k : Nat} (hk : 2 * unitsPerOne ≤ 10 ^ k)
    (h : n * 10 ^ k < d) : ofRatio negative n d = ofRatio negative 0 1 := by
  have hhalf : 2 * (n * unitsPerOne) < d :=
    calc 2 * (n * unitsPerOne) = n * (2 * unitsPerOne) := Nat.mul_left_comm _ _ _
      _ ≤ n * 10 ^ k := Nat.mul_le_mul_left _ hk
      _ < d := h
  have hzero : roundUnits (0 * unitsPerOne) 1 = 0 := roundUnits_eq_zero (by rw [Nat.zero_mul]; decide)
  simp only [ofRatio, ofUnits, roundUnits_eq_zero hhalf, hzero]

/-! ## The shortcuts of reading -/

theorem pow_le_of_lt_length {c k : Nat} (hk : 0 < k) (h : k < (Nat.toDigits 10 c).length) : 10 ^ k ≤ c := by
  rw [← Nat.not_lt, ← Nat.length_toDigits_le_iff (by decide) hk]
  exact Nat.not_le.mpr h

theorem lt_pow_length (c : Nat) : c < 10 ^ (Nat.toDigits 10 c).length :=
  (Nat.length_toDigits_le_iff (by decide) (List.length_pos_iff.mpr Nat.toDigits_ne_nil)).mp (Nat.le_refl _)

/-- **A coefficient and its places are read as the nearest double.** Where many digits or many places let
`scientific` answer at once, rounding gives the same answer. -/
theorem scientific_neg_eq_ofRatio (negative : Bool) (c places : Nat) :
    scientific negative c (-places) = ofRatio negative c (10 ^ places) := by
  have hten : 0 < 10 ^ places := Nat.pow_pos (by decide)
  unfold scientific
  by_cases hzero : c = 0
  · have hscale : ofRatio negative (0 * 10 ^ places) (1 * 10 ^ places) = ofRatio negative 0 1 :=
      ofRatio_mul_right hten
    rw [if_pos hzero, hzero, ← hscale, Nat.zero_mul, Nat.one_mul]
  rw [if_neg hzero]
  by_cases hlarge : 310 < ((Nat.toDigits 10 c).length : Int) + -places
  · -- So many digits stand before the point.
    have hpow : 10 ^ (310 + places) ≤ c := pow_le_of_lt_length (by omega) (by omega)
    rw [Nat.pow_add] at hpow
    rw [if_pos hlarge, ofRatio_of_large hten (by decide +kernel) hpow]
  rw [if_neg hlarge]
  by_cases htiny : ((Nat.toDigits 10 c).length : Int) + -places < -330
  · -- So many zeros follow the point.
    have hpow : c * 10 ^ 330 < 10 ^ places :=
      calc c * 10 ^ 330 < 10 ^ (Nat.toDigits 10 c).length * 10 ^ 330 :=
            Nat.mul_lt_mul_of_pos_right (lt_pow_length c) (Nat.pow_pos (by decide))
        _ = 10 ^ ((Nat.toDigits 10 c).length + 330) := (Nat.pow_add _ _ _).symm
        _ ≤ 10 ^ places := Nat.pow_le_pow_right (by decide) (by omega)
    rw [if_pos htiny, ofRatio_of_tiny (by decide +kernel) hpow]
  rw [if_neg htiny]
  split
  next hnonneg =>
    have hplaces : places = 0 := by omega
    rw [hplaces]
    simp
  next => rw [Int.neg_neg, Int.toNat_natCast]

/-! ## The characters of numerals -/

/-- A letter, a digit, a sign or a point. -/
def isNumeralChar (c : Char) : Bool := c.isAlphanum || c = '+' || c = '-' || c = '.'

theorem isNumeralChar_of_isDigit {c : Char} (h : c.isDigit = true) : isNumeralChar c = true := by
  simp [isNumeralChar, Char.isAlphanum, h]

/-- Only a capital letter has a small one. -/
theorem toLower_eq_self {c : Char} (h : c.isUpper = false) : c.toLower = c := dif_neg (of_decide_eq_false h)

theorem isNumeralChar_of_toLower {c : Char} (h : isNumeralChar c.toLower = true) : isNumeralChar c = true := by
  cases hupper : c.isUpper with
  | false => rwa [toLower_eq_self hupper] at h
  | true =>
    have hletter : c.isAlphanum = true := by
      show (c.isUpper || c.isLower || c.isDigit) = true
      rw [hupper, Bool.true_or, Bool.true_or]
    rw [isNumeralChar, hletter, Bool.true_or, Bool.true_or, Bool.true_or]

theorem isNumeralChar_of_mem_named? {negative : Bool} {cs : List Char} {x : Binary64}
    (h : named? negative cs = some x) {c : Char} (hc : c ∈ cs) : isNumeralChar c = true := by
  have hword : ∀ word : List Char, word.all isNumeralChar = true → cs.map Char.toLower = word →
      isNumeralChar c = true := by
    intro word hall hmap
    refine isNumeralChar_of_toLower (List.all_eq_true.mp hall _ ?_)
    rw [← hmap]
    exact List.mem_map_of_mem hc
  simp only [named?] at h
  split at h
  next hinf =>
    rcases hinf with hinf | hinf
    · exact hword _ (by decide) hinf
    · exact hword _ (by decide) hinf
  next =>
    split at h
    next hnan => exact hword _ (by decide) hnan
    next => cases h

theorem isNumeralChar_of_mem_splitSign {cs : List Char}
    (h : ∀ c ∈ (splitSign cs).2, isNumeralChar c = true) : ∀ c ∈ cs, isNumeralChar c = true := by
  unfold splitSign at h
  split at h
  next => exact List.forall_mem_cons.mpr ⟨by decide, h⟩
  next => exact List.forall_mem_cons.mpr ⟨by decide, h⟩
  next => exact h

theorem isNumeralChar_of_mem_powerOfTen? {cs : List Char} {e : Int} (h : powerOfTen? cs = some e) :
    ∀ c ∈ cs, isNumeralChar c = true := by
  cases cs with
  | nil => exact List.forall_mem_nil _
  | cons c cs =>
    simp only [powerOfTen?] at h
    split at h
    next hpower =>
      obtain ⟨hletter, _, hdigits⟩ := hpower
      refine List.forall_mem_cons.mpr ⟨?_, isNumeralChar_of_mem_splitSign fun d hd => ?_⟩
      · rcases hletter with rfl | rfl
        · decide
        · decide
      · exact isNumeralChar_of_isDigit (List.all_eq_true.mp hdigits d hd)
    next => cases h

theorem isNumeralChar_of_mem_takeWhile {cs : List Char} :
    ∀ c ∈ cs.takeWhile Char.isDigit, isNumeralChar c = true := fun _ hc =>
  isNumeralChar_of_isDigit (List.all_eq_true.mp List.all_takeWhile _ hc)

theorem isNumeralChar_of_mem_splitPlaces {cs : List Char}
    (h : ∀ c ∈ (splitPlaces cs).2, isNumeralChar c = true) : ∀ c ∈ cs, isNumeralChar c = true := by
  unfold splitPlaces at h
  split at h
  next cs =>
    refine List.forall_mem_cons.mpr ⟨by decide, fun c hc => ?_⟩
    rw [← List.takeWhile_append_dropWhile (p := Char.isDigit) (l := cs)] at hc
    exact (List.mem_append.mp hc).elim (isNumeralChar_of_mem_takeWhile c) (h c)
  next => exact h

theorem isNumeralChar_of_mem_magnitude? {negative : Bool} {cs : List Char} {x : Binary64}
    (h : magnitude? negative cs = some x) : ∀ c ∈ cs, isNumeralChar c = true := by
  simp only [magnitude?] at h
  split at h
  next => cases h
  next =>
    obtain ⟨e, he, _⟩ := Option.map_eq_some_iff.mp h
    intro c hc
    rw [← List.takeWhile_append_dropWhile (p := Char.isDigit) (l := cs)] at hc
    rcases List.mem_append.mp hc with hc | hc
    · exact isNumeralChar_of_mem_takeWhile c hc
    · exact isNumeralChar_of_mem_splitPlaces (isNumeralChar_of_mem_powerOfTen? he) c hc

/-- **A numeral is made of letters, digits, signs and points.** -/
theorem isNumeralChar_of_mem {cs : List Char} {x : Binary64} (h : ofChars? cs = some x) :
    ∀ c ∈ cs, isNumeralChar c = true := by
  refine isNumeralChar_of_mem_splitSign fun c hc => ?_
  rw [ofChars?] at h
  rcases Option.or_eq_some_iff.mp h with hnamed | ⟨_, hmagnitude⟩
  · exact isNumeralChar_of_mem_named? hnamed hc
  · exact isNumeralChar_of_mem_magnitude? hmagnitude c hc

/-! ## Reading what was written -/

/-- The text of a decimal is read as its digits before the point and its places. -/
theorem exists_digits_of_chars (d : Decimal) :
    ∃ whole places, d.digits = whole ++ places ∧ places.length = d.places ∧ whole ≠ []
      ∧ d.chars.takeWhile Char.isDigit = whole
      ∧ splitPlaces (d.chars.dropWhile Char.isDigit) = (places, []) := by
  have hlength : d.places < d.digits.length := d.places_lt_length_digits
  have hdigits : ∀ c ∈ d.digits, c.isDigit = true := fun _ hc => Decimal.isDigit_of_mem_digits hc
  rw [Decimal.chars]
  split
  next hzero =>
    refine ⟨d.digits, [], (List.append_nil _).symm, hzero.symm, ?_, ?_, ?_⟩
    · exact List.ne_nil_of_length_pos (by omega)
    · exact List.takeWhile_eq_self_iff.mpr hdigits
    · rw [List.dropWhile_eq_nil_iff.mpr hdigits]
      rfl
  next hplaces =>
    have hwhole : ∀ c ∈ d.digits.take (d.digits.length - d.places), c.isDigit = true :=
      fun c hc => hdigits c (List.mem_of_mem_take hc)
    have hafter : ∀ c ∈ d.digits.drop (d.digits.length - d.places), c.isDigit = true :=
      fun c hc => hdigits c (List.mem_of_mem_drop hc)
    refine ⟨_, _, (List.take_append_drop (d.digits.length - d.places) d.digits).symm, ?_, ?_, ?_, ?_⟩
    · rw [List.length_drop]
      omega
    · refine List.ne_nil_of_length_pos ?_
      rw [List.length_take]
      omega
    · -- The point ends the digits before it.
      rw [List.takeWhile_append_of_pos hwhole, List.takeWhile_cons_of_neg (by decide), List.append_nil]
    · rw [List.dropWhile_append_of_pos hwhole, List.dropWhile_cons_of_neg (by decide), splitPlaces,
        List.takeWhile_eq_self_iff.mpr hafter, List.dropWhile_eq_nil_iff.mpr hafter]

/-- A decimal is read as the double it rounds to. -/
theorem magnitude?_chars (negative : Bool) (d : Decimal) :
    magnitude? negative d.chars = some (ofRatio negative d.coefficient (10 ^ d.places)) := by
  obtain ⟨whole, places, hdigits, hlength, hne, htake, hsplit⟩ := exists_digits_of_chars d
  simp only [magnitude?, htake, hsplit]
  rw [if_neg (List.append_ne_nil_of_left_ne_nil hne places), powerOfTen?, Option.map_some, ← hdigits,
    Decimal.ofDigitChars_digits, hlength, Int.zero_sub, scientific_neg_eq_ofRatio]

/-- The text of a decimal begins with a digit. -/
theorem exists_chars_eq_cons (d : Decimal) : ∃ c cs, d.chars = c :: cs ∧ c.isDigit = true := by
  obtain ⟨whole, _, _, _, hne, htake, _⟩ := exists_digits_of_chars d
  cases hchars : d.chars with
  | nil =>
    rw [hchars, List.takeWhile_nil] at htake
    exact absurd htake.symm hne
  | cons c cs =>
    refine ⟨c, cs, rfl, ?_⟩
    by_contra hc
    rw [hchars, List.takeWhile_cons_of_neg hc] at htake
    exact absurd htake.symm hne

theorem toLower_of_isDigit {c : Char} (h : c.isDigit = true) : c.toLower = c := by
  simp only [Char.isDigit, Bool.and_eq_true, decide_eq_true_eq] at h
  -- The digits come before the capital letters.
  have hlt : c.val < 'A'.val := Nat.lt_of_le_of_lt h.2 (by decide)
  exact toLower_eq_self (decide_eq_false fun hupper => UInt32.not_le.mpr hlt hupper.1)

/-- What begins with a digit is no word. -/
theorem named?_eq_none {negative : Bool} {c : Char} {cs : List Char} (h : c.isDigit = true) :
    named? negative (c :: cs) = none := by
  have hword : ∀ word : List Char, word.head?.any Char.isDigit = false → (c :: cs).map Char.toLower ≠ word := by
    rintro word hword rfl
    rw [List.map_cons, List.head?_cons, Option.any_some, toLower_of_isDigit h, h] at hword
    cases hword
  simp only [named?]
  rw [if_neg (not_or.mpr ⟨hword _ (by decide), hword _ (by decide)⟩), if_neg (hword _ (by decide))]

theorem splitSign_of_isDigit {c : Char} {cs : List Char} (h : c.isDigit = true) :
    splitSign (c :: cs) = (false, c :: cs) := by
  unfold splitSign
  split
  next heq =>
    cases heq
    exact absurd h (by decide)
  next heq =>
    cases heq
    exact absurd h (by decide)
  next => rfl

/-- **Every double reads back from its text.** -/
theorem ofChars?_chars (x : Binary64) : ofChars? x.chars = some x := by
  cases x with
  | nan => decide
  | infinite negative =>
    cases negative with
    | false => decide
    | true => decide
  | finite negative units fits =>
    obtain ⟨c, cs, hchars, hc⟩ := exists_chars_eq_cons (shortest units)
    have hsign : splitSign (Binary64.finite negative units fits).chars = (negative, (shortest units).chars) := by
      cases negative with
      | true => rfl
      | false =>
        rw [chars, if_neg Bool.false_ne_true, List.nil_append, hchars]
        exact splitSign_of_isDigit hc
    -- The decimal that is written rounds to the units it was chosen for.
    have hunits : roundUnits ((shortest units).coefficient * unitsPerOne) (10 ^ (shortest units).places) = units :=
      units_shortest fits
    have hname : named? negative (shortest units).chars = none := by
      rw [hchars]
      exact named?_eq_none hc
    simp only [ofChars?, hsign, hname, Option.none_or, magnitude?_chars, ofRatio, ofUnits, hunits]
    rw [dif_pos fits.2]

/-- The text of a double is made of letters, digits, signs and points. -/
theorem isNumeralChar_of_mem_chars {x : Binary64} : ∀ c ∈ x.chars, isNumeralChar c = true :=
  isNumeralChar_of_mem (ofChars?_chars x)

end Binary64
end VideoOverlay
