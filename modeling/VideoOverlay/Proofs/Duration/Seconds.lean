import VideoOverlay.Duration.Token
import VideoOverlay.Proofs.Number.Numeral

/-!
# `Proofs.Duration.Seconds` — the times that tokens stand for

A time is what is left of the video, and at least zero. The lower bound makes it a number even where the length
of the video is none, and rounding keeps it one. So it is written with a digit, a sign or a small letter in
front, and none of these stands in the head of a token behind its brace.

## Contents
- `Binary64.max_ne_nan`, `mul_ne_nan`, `div_ne_nan`, `roundWhole_ne_nan`: arithmetic on numbers.
- `thousand_eq`; `exists_chars_eq_cons`, `exists_secondsBefore_eq_cons`: how numbers and times begin.
-/

namespace VideoOverlay

/-! ## Values that are numbers -/

namespace Binary64

variable {x y : Binary64}

theorem ofUnits_ne_nan (negative : Bool) (n d : Nat) : ofUnits negative n d ≠ .nan := by
  rw [ofUnits]
  split
  · intro h
    cases h
  · intro h
    cases h

/-- The greater of two values is a number if the second one is. -/
theorem max_ne_nan (hy : y ≠ .nan) : x.max y ≠ .nan := by
  by_cases hx : x = .nan
  · rw [hx, max]
    exact hy
  · rw [max.eq_3 x y hx hy]
    split
    · exact hy
    · exact hx

theorem mul_ne_nan (hx : x ≠ .nan) {t : Bool} {k : Nat} {hk : Fits k} (hne : k ≠ 0) :
    x.mul (.finite t k hk) ≠ .nan := by
  cases x with
  | nan => exact absurd rfl hx
  | infinite s =>
    rw [mul, if_neg hne]
    intro h
    cases h
  | finite s j hj =>
    rw [mul]
    exact ofUnits_ne_nan _ _ _

theorem roundWhole_ne_nan (hx : x ≠ .nan) : x.roundWhole ≠ .nan := by
  cases x with
  | nan => exact absurd rfl hx
  | infinite s =>
    intro h
    cases h
  | finite s j hj =>
    rw [roundWhole, ofRatio]
    exact ofUnits_ne_nan _ _ _

theorem div_ne_nan (hx : x ≠ .nan) {t : Bool} {k : Nat} {hk : Fits k} (hne : k ≠ 0) :
    x.div (.finite t k hk) ≠ .nan := by
  cases x with
  | nan => exact absurd rfl hx
  | infinite s =>
    intro h
    cases h
  | finite s j hj =>
    rw [div, if_neg hne]
    exact ofUnits_ne_nan _ _ _

end Binary64

namespace Duration

/-! ## Times -/

/-- A thousand is a whole number of units. -/
theorem thousand_eq : ∃ hk : Fits (1000 * unitsPerOne), thousand = .finite false (1000 * unitsPerOne) hk := by
  have hfits : Fits (1000 * unitsPerOne) := by decide +kernel
  refine ⟨hfits, ?_⟩
  rw [thousand, Binary64.ofRatio, Binary64.ofUnits_of_fits hfits]

theorem thousand_units_ne_zero : 1000 * unitsPerOne ≠ 0 := by decide +kernel

/-- A number begins with a digit, a sign or a small letter, and no head goes on with one of these. -/
theorem exists_chars_eq_cons {x : Binary64} (h : x ≠ .nan) : ∃ c cs, x.chars = c :: cs ∧ c ∉ head.tail := by
  cases x with
  | nan => exact absurd rfl h
  | infinite negative =>
    cases negative with
    | false => exact ⟨'i', _, rfl, by decide⟩
    | true => exact ⟨'-', _, rfl, by decide⟩
  | finite negative units fits =>
    rw [Binary64.chars]
    cases negative with
    | true => exact ⟨'-', (shortest units).chars, by rw [if_pos rfl, List.singleton_append], by decide⟩
    | false =>
      obtain ⟨c, cs, hchars, hdigit⟩ := Binary64.exists_chars_eq_cons (shortest units)
      refine ⟨c, cs, by rw [if_neg Bool.false_ne_true, List.nil_append, hchars], fun hmem => ?_⟩
      have hletters : head.tail.all (fun d => !d.isDigit) = true := by decide
      have hletter := List.all_eq_true.mp hletters c hmem
      rw [hdigit] at hletter
      cases hletter

/-- The time of a token is a number, whatever the length of the video is. -/
theorem exists_secondsBefore_eq_cons (length x : Binary64) :
    ∃ c cs, (secondsText ((length.sub x).max .zero)).toList = c :: cs ∧ c ∉ head.tail := by
  obtain ⟨hk, hthousand⟩ := thousand_eq
  have hne := thousand_units_ne_zero
  have hzero : Binary64.zero ≠ .nan := by
    rw [Binary64.zero, Binary64.ofRatio]
    exact Binary64.ofUnits_ne_nan _ _ _
  have hmax : (length.sub x).max .zero ≠ .nan := Binary64.max_ne_nan hzero
  rw [secondsText, Binary64.text, String.toList_ofList, hthousand]
  exact exists_chars_eq_cons (Binary64.div_ne_nan (Binary64.roundWhole_ne_nan (Binary64.mul_ne_nan hmax hne)) hne)

end Duration
end VideoOverlay
