/-!
# `Number.Binary64` — IEEE 754 double precision numbers, exactly

A number is a sign and a count of *units*, where one unit is the smallest positive number `2 ^ (-1074)`.
Every finite double is a whole count of units, so sums, products and quotients are taken exactly in
`Nat` and then rounded once, to the nearest representable count with ties to an even significand.
Nothing here runs the machine's floating point, so every operation can be evaluated in a proof.

## Contents
- `Fits`: the counts of units that are doubles. `Binary64`: the numbers, `nan` and the two infinities.
- `divRound`, `roundUnits`, `ofRatio`: the double nearest to a ratio, with `fits_roundUnits`.
- `lt`, `le`, `max`, `isFinite`: the order, in which `nan` takes no part.
- `add`, `sub`, `mul`, `div`, `roundWhole`: arithmetic.
- `ofUnits_of_fits`: a double is the double nearest to itself.
-/

namespace VideoOverlay

-- Powers of numbers are those of the core library, also beside libraries with powers of their own.
attribute [local instance(2000)] instPowNat

/-! ## Representable counts of units -/

/-- The exponent below which a count of units has no bits: its significand has 53. -/
def lowestBit (k : Nat) : Nat := k.log2 - 52

/-- The negative exponent of one unit, as a power of two. -/
def unitExponent : Nat := 1074

/-- The number one, in units. -/
def unitsPerOne : Nat := 2 ^ unitExponent

/-- The first power of two that is too large for a finite double, in units. -/
def unitLimit : Nat := 2 ^ (1024 : Nat) * unitsPerOne

/-- A count of units is a double if it has at most 53 significant bits and is not too large. -/
def Fits (k : Nat) : Prop := k % 2 ^ lowestBit k = 0 ∧ k < unitLimit

instance (k : Nat) : Decidable (Fits k) := inferInstanceAs (Decidable (_ ∧ _))

/-- The IEEE 754 double precision numbers. Zero has two signs; `nan` stands for all of its kind. -/
inductive Binary64 where
  | nan
  | infinite (negative : Bool)
  | finite (negative : Bool) (units : Nat) (fits : Fits units)
  deriving DecidableEq

/-! ## Rounding -/

/-- The whole number nearest to `n / d`; a tie goes to the even neighbour. -/
def divRound (n d : Nat) : Nat :=
  let q := n / d
  let r := n % d
  if d < 2 * r ∨ (2 * r = d ∧ q % 2 = 1) then q + 1 else q

/-- The count of units nearest to `n / d` among those with at most 53 significant bits. -/
def roundUnits (n d : Nat) : Nat :=
  let e := lowestBit (n / d)
  divRound n (d * 2 ^ e) * 2 ^ e

theorem divRound_le {n d q : Nat} (h : n / d < q) : divRound n d ≤ q := by
  unfold divRound; simp only; split <;> omega

/-- A scaled ratio rounds as the ratio itself. -/
theorem divRound_mul_right {n d c : Nat} (hc : 0 < c) : divRound (n * c) (d * c) = divRound n d := by
  have h2 : 2 * (n % d * c) = 2 * (n % d) * c := by rw [Nat.mul_assoc]
  simp only [divRound, Nat.mul_div_mul_right _ _ hc, Nat.mul_mod_mul_right, h2,
    Nat.mul_lt_mul_right hc, Nat.mul_left_inj (Nat.ne_of_gt hc)]

theorem divRound_self {q d : Nat} (hd : 0 < d) : divRound (q * d) d = q := by
  simp only [divRound, Nat.mul_div_cancel _ hd, Nat.mul_mod_left]
  split <;> omega

/-- A scaled ratio rounds to the same count of units. -/
theorem roundUnits_mul_right {n d c : Nat} (hc : 0 < c) :
    roundUnits (n * c) (d * c) = roundUnits n d := by
  simp only [roundUnits, Nat.mul_div_mul_right _ _ hc]
  rw [show d * c * 2 ^ lowestBit (n / d) = d * 2 ^ lowestBit (n / d) * c by
    rw [Nat.mul_assoc, Nat.mul_comm c, ← Nat.mul_assoc], divRound_mul_right hc]

/-- A product of a significand of at most 53 bits and a power of two has no bit below that power's. -/
theorem mod_lowestBit_mul_two_pow {p e : Nat} (hp : p ≤ 2 ^ (53 : Nat)) :
    (p * 2 ^ e) % 2 ^ lowestBit (p * 2 ^ e) = 0 := by
  rcases Nat.eq_zero_or_pos p with rfl | h0
  · simp
  · have hne : p * 2 ^ e ≠ 0 := Nat.ne_of_gt (Nat.mul_pos h0 (Nat.two_pow_pos e))
    -- Rounding up may give the power of two itself, which has one bit only.
    rcases Nat.lt_or_eq_of_le hp with hlt | rfl
    · have hlog : (p * 2 ^ e).log2 < 53 + e :=
        (Nat.log2_lt hne).2 (by rw [Nat.pow_add]; exact Nat.mul_lt_mul_of_pos_right hlt (Nat.two_pow_pos e))
      have hle : lowestBit (p * 2 ^ e) ≤ e := by unfold lowestBit; omega
      exact Nat.mod_eq_zero_of_dvd (Nat.dvd_mul_left_of_dvd (Nat.pow_dvd_pow 2 hle) p)
    · rw [← Nat.pow_add]
      have hle : lowestBit (2 ^ (53 + e)) ≤ 53 + e := by
        unfold lowestBit; rw [Nat.log2_two_pow]; omega
      exact Nat.mod_eq_zero_of_dvd (Nat.pow_dvd_pow 2 hle)

/-- What `roundUnits` gives has at most 53 significant bits. -/
theorem fits_roundUnits {n d : Nat} (h : roundUnits n d < unitLimit) : Fits (roundUnits n d) := by
  refine ⟨mod_lowestBit_mul_two_pow (divRound_le ?_), h⟩
  rw [← Nat.div_div_eq_div_mul]
  rw [Nat.div_lt_iff_lt_mul (Nat.two_pow_pos _), ← Nat.pow_add]
  refine Nat.lt_of_lt_of_le (Nat.lt_log2_self (n := n / d)) (Nat.pow_le_pow_right (by decide) ?_)
  unfold lowestBit; omega

/-- A multiple of `p` divided by `p` and multiplied again is itself, rounded or not. -/
theorem divRound_mul_cancel {k p : Nat} (hp : 0 < p) (h : k % p = 0) : divRound k p * p = k := by
  obtain ⟨q, rfl⟩ := Nat.dvd_of_mod_eq_zero h
  rw [Nat.mul_comm p q, divRound_self hp]

/-- A count of units that is a double is its own rounding. -/
theorem roundUnits_of_fits {k : Nat} (h : Fits k) : roundUnits k 1 = k := by
  simp only [roundUnits, Nat.div_one, Nat.one_mul]
  exact divRound_mul_cancel (Nat.two_pow_pos _) h.1

namespace Binary64

/-- The double nearest to `n / d` units, an infinity if that is too large. -/
def ofUnits (negative : Bool) (n d : Nat) : Binary64 :=
  if h : roundUnits n d < unitLimit then .finite negative (roundUnits n d) (fits_roundUnits h)
  else .infinite negative

/-- The double nearest to the number `n / d`. -/
def ofRatio (negative : Bool) (n d : Nat) : Binary64 := ofUnits negative (n * unitsPerOne) d

/-- The double nearest to a whole number. -/
def ofInt (n : Int) : Binary64 := ofRatio (n < 0) n.natAbs 1

/-- Positive zero. -/
def zero : Binary64 := ofRatio false 0 1

/-- The number one. -/
def one : Binary64 := ofRatio false 1 1

theorem ofUnits_mul_right {negative : Bool} {n d c : Nat} (hc : 0 < c) :
    ofUnits negative (n * c) (d * c) = ofUnits negative n d := by
  simp only [ofUnits, roundUnits_mul_right hc]

/-- A ratio may be scaled. -/
theorem ofRatio_mul_right {negative : Bool} {n d c : Nat} (hc : 0 < c) :
    ofRatio negative (n * c) (d * c) = ofRatio negative n d := by
  rw [ofRatio, Nat.mul_right_comm, ofUnits_mul_right hc, ofRatio]

/-- A double is the double nearest to itself. -/
theorem ofUnits_of_fits {negative : Bool} {k : Nat} (h : Fits k) :
    ofUnits negative k 1 = .finite negative k h := by
  simp only [ofUnits, roundUnits_of_fits h, h.2, dif_pos]

/-! ## Order -/

/-- Neither infinite nor `nan`. -/
def isFinite : Binary64 → Bool
  | .finite .. => true
  | _ => false

/-- The sign of a number, as a truth value; `nan` has none. -/
def isNegative : Binary64 → Bool
  | .nan => false
  | .infinite negative => negative
  | .finite negative _ _ => negative

/-- The signed count of units of a finite number. Both zeros have the count 0. -/
def signedUnits (negative : Bool) (units : Nat) : Int := if negative then -units else units

/-- Strictly less, false if either is `nan`. -/
def lt : Binary64 → Binary64 → Bool
  | .nan, _ => false
  | _, .nan => false
  | .infinite s, .infinite t => s && !t
  | .infinite s, .finite .. => s
  | .finite .., .infinite t => !t
  | .finite s j _, .finite t k _ => signedUnits s j < signedUnits t k

/-- Less or equal, false if either is `nan`. -/
def le : Binary64 → Binary64 → Bool
  | .nan, _ => false
  | _, .nan => false
  | .infinite s, .infinite t => s || !t
  | .infinite s, .finite .. => s
  | .finite .., .infinite t => !t
  | .finite s j _, .finite t k _ => signedUnits s j ≤ signedUnits t k

/-- Equal as numbers: both zeros are equal, and `nan` equals nothing. -/
def eq (x y : Binary64) : Bool := le x y && le y x

/-- Less is less or equal, but not the other way round. -/
theorem lt_iff {x y : Binary64} : lt x y = true ↔ le x y = true ∧ le y x = false := by
  cases x with
  | nan => simp [lt, le]
  | infinite s =>
    cases y with
    | nan => simp [lt, le]
    | infinite t => cases s <;> cases t <;> decide
    | finite t k hk => simp [lt, le]
  | finite s j hj =>
    cases y with
    | nan => simp [lt, le]
    | infinite t => simp [lt, le]
    | finite t k hk =>
      simp only [lt, le, decide_eq_true_eq, decide_eq_false_iff_not, Int.not_le]
      omega

/-- The greater of two numbers. `nan` gives way to a number, and of two zeros the positive is greater. -/
def max : Binary64 → Binary64 → Binary64
  | .nan, y => y
  | x, .nan => x
  | x, y => if lt x y || (eq x y && x.isNegative) then y else x

/-! ## Arithmetic -/

/-- The number with the other sign. -/
def neg : Binary64 → Binary64
  | .nan => .nan
  | .infinite negative => .infinite !negative
  | .finite negative units fits => .finite (!negative) units fits

/-- The double nearest to a signed count of units; `zeroSign` is the sign of an exact zero. -/
def ofSignedUnits (zeroSign : Bool) (n : Int) : Binary64 :=
  ofUnits (if n = 0 then zeroSign else n < 0) n.natAbs 1

/-- The sum. A zero sum is positive unless both terms are negative. -/
def add : Binary64 → Binary64 → Binary64
  | .nan, _ => .nan
  | _, .nan => .nan
  | .infinite s, .infinite t => if s = t then .infinite s else .nan
  | .infinite s, .finite .. => .infinite s
  | .finite .., .infinite t => .infinite t
  | .finite s j _, .finite t k _ => ofSignedUnits (s && t) (signedUnits s j + signedUnits t k)

/-- The difference. -/
def sub (x y : Binary64) : Binary64 := add x (neg y)

/-- The product. Infinity times zero is `nan`. -/
def mul : Binary64 → Binary64 → Binary64
  | .nan, _ => .nan
  | _, .nan => .nan
  | .infinite s, .infinite t => .infinite (s ^^ t)
  | .infinite s, .finite t k _ => if k = 0 then .nan else .infinite (s ^^ t)
  | .finite s j _, .infinite t => if j = 0 then .nan else .infinite (s ^^ t)
  | .finite s j _, .finite t k _ => ofUnits (s ^^ t) (j * k) unitsPerOne

/-- The quotient. Zero by zero and infinity by infinity are `nan`, any other number by zero is infinite. -/
def div : Binary64 → Binary64 → Binary64
  | .nan, _ => .nan
  | _, .nan => .nan
  | .infinite _, .infinite _ => .nan
  | .infinite s, .finite t _ _ => .infinite (s ^^ t)
  | .finite s _ _, .infinite t => ofUnits (s ^^ t) 0 1
  | .finite s j _, .finite t k _ =>
    if k = 0 then (if j = 0 then .nan else .infinite (s ^^ t)) else ofUnits (s ^^ t) (j * unitsPerOne) k

/-- The nearest whole number; a half goes away from zero. -/
def roundWhole : Binary64 → Binary64
  | .finite negative units _ => ofRatio negative ((2 * units + unitsPerOne) / (2 * unitsPerOne)) 1
  | x => x

end Binary64
end VideoOverlay
