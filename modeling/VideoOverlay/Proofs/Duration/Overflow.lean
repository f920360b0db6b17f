import VideoOverlay.Proofs.Duration.Seconds
import VideoOverlay.Proofs.Overlay.Complete

/-!
# `Proofs.Duration.Overflow` — seconds that are too many to be written

Seconds are rounded to milliseconds by way of their thousandfold, which may be too large for a double though the
seconds are not. What is written then is `inf`. The seconds that remain before an end are a number that is not
negative (`max_zero_cases`), so nothing else can go wrong: below a certain number of them a decimal is written, and
from that number on it is `inf`.

That the border is a single number rests on rounding: it keeps the order (`roundUnits_mono`), and between the last
double with a finite thousandfold and the first one without there is none (`le_lastUnits`).

## Contents
- `divRound_mono`, `roundUnits_le_two_pow`, `roundUnits_mono`: rounding keeps the order.
- `Fits.dvd`, `Fits.le_mul_two_pow`: large doubles are multiples of a power of two.
- `overflowUnits`, `tooLong`: the border, with `roundUnits_thousandfold_lt_iff`.
- `exists_roundWhole_eq`, `exists_div_thousand_eq`: the other steps do not overflow.
- `WritesSeconds`, `writesSeconds_secondsBefore`.
-/

namespace VideoOverlay

-- Powers of numbers are those of the core library, also beside libraries with powers of their own.
attribute [local instance(2000)] instPowNat

/-! ## Rounding keeps the order -/

theorem divRound_mono {n n' d : Nat} (h : n ≤ n') : divRound n d ≤ divRound n' d := by
  have hquotient : n / d ≤ n' / d := Nat.div_le_div_right h
  by_cases hlt : n / d < n' / d
  · exact Nat.le_trans (divRound_le hlt) (le_divRound n' d)
  · -- With the same quotient it is the remainder that grows.
    have hsame : n / d = n' / d := by omega
    have hremainder : n % d ≤ n' % d := by
      have hn := Nat.div_add_mod n d
      have hn' := Nat.div_add_mod n' d
      rw [hsame] at hn
      omega
    simp only [divRound, hsame]
    split
    · split
      · exact Nat.le_refl _
      · omega
    · split
      · exact Nat.le_succ _
      · exact Nat.le_refl _

/-- The lowest bit of a number is not above its highest one. -/
theorem lowestBit_le_of_lt {q e : Nat} (h : q < 2 ^ e) : lowestBit q ≤ e := by
  by_cases hq : q = 0
  · have hzero : lowestBit 0 = 0 := by decide
    rw [hq, hzero]
    exact Nat.zero_le e
  · have hlog : q.log2 < e := (Nat.log2_lt hq).mpr h
    exact Nat.le_trans (Nat.sub_le _ _) (Nat.le_of_lt hlog)

/-- Rounding does not go beyond a power of two, which has one bit only. -/
theorem roundUnits_le_two_pow {n d e : Nat} (h : n / d < 2 ^ e) : roundUnits n d ≤ 2 ^ e := by
  have hbit : lowestBit (n / d) ≤ e := lowestBit_le_of_lt h
  have hsplit : 2 ^ (e - lowestBit (n / d)) * 2 ^ lowestBit (n / d) = 2 ^ e := by
    rw [← Nat.pow_add, Nat.sub_add_cancel hbit]
  have hquotient : n / (d * 2 ^ lowestBit (n / d)) < 2 ^ (e - lowestBit (n / d)) := by
    rw [← Nat.div_div_eq_div_mul, Nat.div_lt_iff_lt_mul (Nat.two_pow_pos _), hsplit]
    exact h
  rw [roundUnits, ← hsplit]
  exact Nat.mul_le_mul_right _ (divRound_le hquotient)

/-- **Rounding keeps the order.** Numbers with the same lowest bit are rounded alike; otherwise a power of two is
between them. -/
theorem roundUnits_mono {n n' d : Nat} (h : n ≤ n') : roundUnits n d ≤ roundUnits n' d := by
  have hquotient : n / d ≤ n' / d := Nat.div_le_div_right h
  by_cases hsame : lowestBit (n / d) = lowestBit (n' / d)
  · rw [roundUnits, roundUnits, hsame]
    exact Nat.mul_le_mul_right _ (divRound_mono h)
  · by_cases hpower : n / d < 2 ^ (n' / d).log2
    · have hne : n' / d ≠ 0 := by
        intro hzero
        rw [hzero] at hquotient hsame
        rw [Nat.le_zero.mp hquotient] at hsame
        exact hsame rfl
      exact Nat.le_trans (roundUnits_le_two_pow hpower) (two_pow_le_roundUnits (Nat.log2_self_le hne))
    · -- Both have the same highest bit, so they have the same lowest one.
      refine absurd ?_ hsame
      have hpos : n / d ≠ 0 := by
        intro hzero
        rw [hzero] at hpower
        exact hpower (Nat.two_pow_pos _)
      have hle : (n' / d).log2 ≤ (n / d).log2 := (Nat.le_log2 hpos).mpr (Nat.not_lt.mp hpower)
      have hpos' : n' / d ≠ 0 := Nat.ne_of_gt (Nat.lt_of_lt_of_le (Nat.pos_of_ne_zero hpos) hquotient)
      have hge : (n / d).log2 ≤ (n' / d).log2 :=
        (Nat.le_log2 hpos').mpr (Nat.le_trans (Nat.log2_self_le hpos) hquotient)
      rw [lowestBit, lowestBit, Nat.le_antisymm hge hle]

/-! ## The border -/

/-- A double has no bit below its lowest one. -/
theorem Fits.dvd {k e : Nat} (hk : Fits k) (h : 2 ^ (e + 52) ≤ k) : 2 ^ e ∣ k := by
  have hne : k ≠ 0 := Nat.ne_of_gt (Nat.lt_of_lt_of_le (Nat.two_pow_pos _) h)
  have hlog : e + 52 ≤ k.log2 := (Nat.le_log2 hne).mpr h
  have hbit : e ≤ lowestBit k := by
    rw [lowestBit]
    omega
  exact Nat.dvd_trans (Nat.pow_dvd_pow 2 hbit) (Nat.dvd_of_mod_eq_zero hk.1)

/-- Between two neighbouring multiples of a power of two there is no double if they have 53 bits above it. -/
theorem Fits.le_mul_two_pow {k m e : Nat} (hk : Fits k) (hm : 2 ^ (52 : Nat) ≤ m) (h : k < (m + 1) * 2 ^ e) :
    k ≤ m * 2 ^ e := by
  by_cases hsmall : k < 2 ^ (e + 52)
  · calc k ≤ 2 ^ (e + 52) := Nat.le_of_lt hsmall
      _ = 2 ^ (52 : Nat) * 2 ^ e := by rw [Nat.add_comm, Nat.pow_add]
      _ ≤ m * 2 ^ e := Nat.mul_le_mul_right _ hm
  · obtain ⟨q, rfl⟩ := hk.dvd (Nat.not_lt.mp hsmall)
    rw [Nat.mul_comm] at h ⊢
    exact Nat.mul_le_mul_right _ (Nat.le_of_lt_succ (Nat.lt_of_mul_lt_mul_right h))

/-- The greatest finite double, in units. -/
def greatestUnits : Nat := 9007199254740991 * 2 ^ (2045 : Nat)

/-- The greatest double whose thousandfold is finite, in units. -/
def lastUnits : Nat := 4611686018427387 * 2 ^ (2036 : Nat)

/-- The double after that, in units. -/
def overflowUnits : Nat := (4611686018427387 + 1) * 2 ^ (2036 : Nat)

/-- The least number of seconds whose milliseconds are not finite. -/
def tooLong : Binary64 := .finite false overflowUnits (by decide +kernel)

theorem le_greatestUnits {k : Nat} (hk : Fits k) : k ≤ greatestUnits := by
  have hlimit : unitLimit = (9007199254740991 + 1) * 2 ^ (2045 : Nat) := by decide +kernel
  have hlt : k < (9007199254740991 + 1) * 2 ^ (2045 : Nat) := by
    rw [← hlimit]
    exact hk.2
  unfold greatestUnits
  exact hk.le_mul_two_pow (m := 9007199254740991) (e := 2045) (by decide) hlt

/-- There is no double between the two. -/
theorem le_lastUnits {k : Nat} (hk : Fits k) (h : k < overflowUnits) : k ≤ lastUnits := by
  unfold overflowUnits at h
  unfold lastUnits
  exact hk.le_mul_two_pow (m := 4611686018427387) (e := 2036) (by decide) h

/-- **The thousandfold of a double is finite exactly below the border.** -/
theorem roundUnits_thousandfold_lt_iff {k : Nat} (hk : Fits k) :
    roundUnits (1000 * k) 1 < unitLimit ↔ k < overflowUnits := by
  constructor
  · intro h
    by_contra hge
    have hlimit : unitLimit * 1 ≤ 1000 * overflowUnits := by decide +kernel
    have hlarge : unitLimit * 1 ≤ 1000 * k := Nat.le_trans hlimit (Nat.mul_le_mul_left 1000 (Nat.not_lt.mp hge))
    exact absurd h (Nat.not_lt.mpr (unitLimit_le_roundUnits Nat.one_pos hlarge))
  · intro h
    have hlast : roundUnits (1000 * lastUnits) 1 < unitLimit := by decide +kernel
    exact Nat.lt_of_le_of_lt (roundUnits_mono (Nat.mul_le_mul_left 1000 (le_lastUnits hk h))) hlast

/-! ## The steps to milliseconds and back -/

namespace Binary64

/-- What is rounded from a count of units without a sign. -/
theorem ofUnits_false_cases (n d : Nat) :
    (∃ hk : Fits (roundUnits n d), ofUnits false n d = .finite false (roundUnits n d) hk
        ∧ roundUnits n d < unitLimit)
      ∨ (ofUnits false n d = .infinite false ∧ unitLimit ≤ roundUnits n d) := by
  unfold ofUnits
  by_cases h : roundUnits n d < unitLimit
  · rw [dif_pos h]
    exact .inl ⟨fits_roundUnits h, rfl, h⟩
  · rw [dif_neg h]
    exact .inr ⟨rfl, Nat.not_lt.mp h⟩

theorem exists_ofUnits_eq {n d : Nat} (h : roundUnits n d < unitLimit) :
    ∃ k, ∃ hk : Fits k, ofUnits false n d = .finite false k hk := by
  rcases ofUnits_false_cases n d with ⟨hk, heq, _⟩ | ⟨_, hlarge⟩
  · exact ⟨_, hk, heq⟩
  · exact absurd h (Nat.not_lt.mpr hlarge)

theorem mul_thousand_eq {k : Nat} (hk : Fits k) :
    (finite false k hk).mul Duration.thousand = ofUnits false (1000 * k) 1 := by
  obtain ⟨hthousand, heq⟩ := Duration.thousand_eq
  have hscale : k * (1000 * unitsPerOne) = 1000 * k * unitsPerOne := by
    rw [← Nat.mul_assoc, Nat.mul_comm k 1000]
  have hpos : 0 < unitsPerOne := Nat.two_pow_pos _
  have hround : ofUnits false (1000 * k * unitsPerOne) (1 * unitsPerOne) = ofUnits false (1000 * k) 1 :=
    ofUnits_mul_right hpos
  rw [Nat.one_mul] at hround
  rw [heq, mul, hscale]
  exact hround

/-- A whole number next to a finite one is finite. -/
theorem exists_roundWhole_eq {k : Nat} (hk : Fits k) :
    ∃ k', ∃ hk' : Fits k', (finite false k hk).roundWhole = finite false k' hk' := by
  have hgreatest : roundUnits ((2 * greatestUnits + unitsPerOne) / (2 * unitsPerOne) * unitsPerOne) 1 < unitLimit := by
    decide +kernel
  have hle : 2 * k + unitsPerOne ≤ 2 * greatestUnits + unitsPerOne :=
    Nat.add_le_add_right (Nat.mul_le_mul_left 2 (le_greatestUnits hk)) _
  rw [roundWhole, ofRatio]
  refine exists_ofUnits_eq (Nat.lt_of_le_of_lt (roundUnits_mono ?_) hgreatest)
  exact Nat.mul_le_mul_right _ (Nat.div_le_div_right hle)

/-- A thousandth of a finite number is finite. -/
theorem exists_div_thousand_eq {k : Nat} (hk : Fits k) :
    ∃ k', ∃ hk' : Fits k', (finite false k hk).div Duration.thousand = finite false k' hk' := by
  obtain ⟨hthousand, heq⟩ := Duration.thousand_eq
  have hgreatest : roundUnits (greatestUnits * unitsPerOne) (1000 * unitsPerOne) < unitLimit := by
    decide +kernel
  rw [heq, div, if_neg Duration.thousand_units_ne_zero]
  refine exists_ofUnits_eq (Nat.lt_of_le_of_lt (roundUnits_mono ?_) hgreatest)
  exact Nat.mul_le_mul_right _ (le_greatestUnits hk)

/-- What is at least zero is a number without a sign, which may be infinite. -/
theorem max_zero_cases (x : Binary64) :
    x.max .zero = .infinite false ∨ ∃ k, ∃ hk : Fits k, x.max .zero = .finite false k hk := by
  obtain ⟨hzero, heq⟩ := zero_eq
  rw [heq]
  cases x with
  | nan => exact .inr ⟨0, hzero, rfl⟩
  | infinite s =>
    cases s with
    | true => exact .inr ⟨0, hzero, rfl⟩
    | false => exact .inl rfl
  | finite s k hk =>
    refine .inr ?_
    rw [max.eq_3 _ _ Binary64.noConfusion Binary64.noConfusion]
    cases s with
    | false =>
      split
      · exact ⟨0, hzero, rfl⟩
      · exact ⟨k, hk, rfl⟩
    | true =>
      -- A number with a sign is less than zero, or it is the other zero.
      have hless : (lt (finite true k hk) (finite false 0 hzero)
          || (eq (finite true k hk) (finite false 0 hzero) && (finite true k hk).isNegative)) = true := by
        by_cases hk0 : k = 0
        · simp [lt, eq, le, signedUnits, isNegative, hk0]
        · have hneg : (-(k : Int)) < 0 := by omega
          have hlt : lt (finite true k hk) (finite false 0 hzero) = true := decide_eq_true hneg
          rw [hlt, Bool.true_or]
      rw [if_pos hless]
      exact ⟨0, hzero, rfl⟩

end Binary64

/-! ## What is written -/

namespace Duration

/-- What is written for seconds: a decimal below the border, and `inf` from there on. -/
inductive WritesSeconds (x : Binary64) : String → Prop where
  | decimal {k : Nat} {hk : Fits k} (below : Binary64.lt x tooLong = true) :
    WritesSeconds x (Binary64.finite false k hk).text
  | overflow (beyond : Binary64.le tooLong x = true) : WritesSeconds x "inf"

theorem lt_tooLong_iff {k : Nat} (hk : Fits k) :
    Binary64.lt (.finite false k hk) tooLong = true ↔ k < overflowUnits := by
  show decide ((k : Int) < (overflowUnits : Int)) = true ↔ _
  rw [decide_eq_true_eq, Int.ofNat_lt]

theorem le_tooLong_iff {k : Nat} (hk : Fits k) :
    Binary64.le tooLong (.finite false k hk) = true ↔ overflowUnits ≤ k := by
  show decide ((overflowUnits : Int) ≤ (k : Int)) = true ↔ _
  rw [decide_eq_true_eq, Int.ofNat_le]

theorem secondsText_infinite : secondsText (.infinite false) = "inf" := by
  obtain ⟨hthousand, heq⟩ := thousand_eq
  have hmul : (Binary64.infinite false).mul thousand = .infinite false := by
    rw [heq, Binary64.mul, if_neg thousand_units_ne_zero]
    rfl
  have hdiv : (Binary64.infinite false).div thousand = .infinite false := by
    rw [heq]
    rfl
  have hround : (Binary64.infinite false).roundWhole = .infinite false := rfl
  rw [secondsText, hmul, hround, hdiv]
  rfl

/-- Seconds overflow by way of their milliseconds, and in no other way. -/
theorem writesSeconds_finite {k : Nat} (hk : Fits k) :
    WritesSeconds (.finite false k hk) (secondsText (.finite false k hk)) := by
  unfold secondsText
  rw [Binary64.mul_thousand_eq]
  rcases Binary64.ofUnits_false_cases (1000 * k) 1 with ⟨hmillis, heq, hlt⟩ | ⟨heq, hge⟩
  · obtain ⟨w, hw, hwhole⟩ := Binary64.exists_roundWhole_eq hmillis
    obtain ⟨q, hq, hdiv⟩ := Binary64.exists_div_thousand_eq hw
    rw [heq, hwhole, hdiv]
    exact .decimal ((lt_tooLong_iff hk).mpr ((roundUnits_thousandfold_lt_iff hk).mp hlt))
  · have hborder : overflowUnits ≤ k := by
      by_contra h
      exact absurd ((roundUnits_thousandfold_lt_iff hk).mpr (Nat.not_le.mp h)) (Nat.not_lt.mpr hge)
    have hinf : ((Binary64.infinite false).roundWhole.div thousand).text = "inf" := by
      obtain ⟨hthousand, heq⟩ := thousand_eq
      rw [heq]
      rfl
    rw [heq, hinf]
    exact .overflow ((le_tooLong_iff hk).mpr hborder)

/-- **The seconds before an end are written as a decimal, unless there are too many of them.** -/
theorem writesSeconds_secondsBefore (finish offset : Binary64) :
    WritesSeconds ((finish.sub offset).max .zero) (secondsBefore finish offset) := by
  unfold secondsBefore
  rcases Binary64.max_zero_cases (finish.sub offset) with heq | ⟨k, hk, heq⟩
  · rw [heq, secondsText_infinite]
    exact .overflow rfl
  · rw [heq]
    exact writesSeconds_finite hk

end Duration
end VideoOverlay
