import VideoOverlay.Number.Binary64

/-!
# `Number.Decimal` — decimal fractions and the shortest text of a double

A decimal is a whole number over a power of ten, and its text is positional at any size: `28`, `0.4`,
`1000000000000000000000`. A double is written as the decimal with the fewest digits that reads back as
that double; of two such decimals the nearer is taken, and of two equally near ones the greater.

## Contents
- `Decimal`: coefficient and number of places. `Decimal.trim`: without closing zeros.
- `Decimal.digits`, `Decimal.chars`: the positional text.
- `Decimal.units`: the double a decimal reads as, in units.
- `shortest`: the decimal a double is written as, with `units_shortest`.
- `Binary64.text`: the text of a double.
-/

namespace VideoOverlay

-- Powers of numbers are those of the core library, also beside libraries with powers of their own.
attribute [local instance(2000)] instPowNat

/-- The number `coefficient / 10 ^ places`. -/
structure Decimal where
  coefficient : Nat
  places : Nat
  deriving DecidableEq

namespace Decimal

/-! ## Reading a decimal as a double -/

/-- The double nearest to a decimal, in units. -/
def units (d : Decimal) : Nat := roundUnits (d.coefficient * unitsPerOne) (10 ^ d.places)

/-- The same number without zeros at the end of its places. -/
def trimPlaces (coefficient : Nat) : Nat → Decimal
  | 0 => ⟨coefficient, 0⟩
  | places + 1 =>
    if coefficient % 10 = 0 then trimPlaces (coefficient / 10) places else ⟨coefficient, places + 1⟩

/-- The same number without zeros at the end of its places. -/
def trim (d : Decimal) : Decimal := trimPlaces d.coefficient d.places

theorem units_trimPlaces (coefficient places : Nat) :
    (trimPlaces coefficient places).units = (Decimal.mk coefficient places).units := by
  induction places generalizing coefficient with
  | zero => rfl
  | succ places ih =>
    by_cases h : coefficient % 10 = 0
    · obtain ⟨q, rfl⟩ := Nat.dvd_of_mod_eq_zero h
      rw [trimPlaces, if_pos h, ih, Nat.mul_div_cancel_left q (by decide)]
      simp only [units]
      rw [Nat.pow_succ, Nat.mul_comm 10 q, Nat.mul_right_comm, roundUnits_mul_right (by decide)]
    · rw [trimPlaces, if_neg h]

/-- Trimming keeps the number. -/
@[simp] theorem units_trim (d : Decimal) : d.trim.units = d.units := units_trimPlaces _ _

/-! ## Text -/

/-- The digits of the coefficient, with zeros in front so that one digit stands before the places. -/
def digits (d : Decimal) : List Char :=
  let ds := Nat.toDigits 10 d.coefficient
  List.replicate (d.places + 1 - ds.length) '0' ++ ds

/-- The positional text: a point divides the whole part from the places, if there are any. -/
def chars (d : Decimal) : List Char :=
  if d.places = 0 then d.digits
  else
    let whole := d.digits.length - d.places
    d.digits.take whole ++ '.' :: d.digits.drop whole

theorem isDigit_of_mem_digits {d : Decimal} {c : Char} (h : c ∈ d.digits) : c.isDigit = true := by
  simp only [digits, List.mem_append, List.mem_replicate] at h
  rcases h with ⟨_, rfl⟩ | h
  · rfl
  · exact Nat.isDigit_of_mem_toDigits (by decide) (by decide) h

/-- The digits are those of the coefficient. -/
theorem ofDigitChars_digits (d : Decimal) : Nat.ofDigitChars 10 d.digits 0 = d.coefficient := by
  simp [digits, Nat.ofDigitChars_append, Nat.ofDigitChars_replicate_zero, Nat.ofDigitChars_ten_toDigits]

theorem places_lt_length_digits (d : Decimal) : d.places < d.digits.length := by
  simp only [digits, List.length_append, List.length_replicate]; omega

end Decimal

/-! ## The shortest decimal of a double -/

/-- Places that give every finite double at least 17 digits. -/
def gridPlaces : Nat := 400

/-- The digits of `units` down to the last of `gridPlaces` places, as a whole number. -/
def scaledDown (units : Nat) : Nat := units * 10 ^ gridPlaces / unitsPerOne

/-- The decimal `c * 10 ^ (drop - gridPlaces)`. -/
def gridPoint (drop c : Nat) : Decimal :=
  if gridPlaces ≤ drop then ⟨c * 10 ^ (drop - gridPlaces), 0⟩
  else Decimal.trim ⟨c, gridPlaces - drop⟩

/-- The nearer of the two decimals of `count` digits around `units` that read back, if any does. -/
def nearestWith? (units count : Nat) : Option Decimal :=
  let scaled := scaledDown units
  let drop := (Nat.toDigits 10 scaled).length - count
  let c := scaled / 10 ^ drop
  let below := gridPoint drop c
  let above := gridPoint drop (c + 1)
  if below.units = units then
    if above.units = units ∧ (2 * c + 1) * 10 ^ drop * unitsPerOne ≤ 2 * units * 10 ^ gridPlaces then some above
    else some below
  else if above.units = units then some above
  else none

/-- All digits of a count of units: one unit has `unitExponent` places. -/
def allDigits (units : Nat) : Decimal := Decimal.trim ⟨units * 5 ^ unitExponent, unitExponent⟩

/-- The decimal with the fewest digits that reads back as `units`. Seventeen digits always do. -/
def shortest (units : Nat) : Decimal :=
  ((List.range' 1 17).findSome? (nearestWith? units)).getD (allDigits units)

theorem units_of_nearestWith? {units count : Nat} {d : Decimal} (h : nearestWith? units count = some d) :
    d.units = units := by
  simp only [nearestWith?] at h
  split at h
  · split at h <;> (cases h; simp_all)
  · split at h
    · cases h; assumption
    · cases h

/-- Written with all its places, a count of units reads back: `5 ^ e * 2 ^ e` is `10 ^ e`. -/
theorem roundUnits_mul_pow_five {units : Nat} (h : Fits units) (e : Nat) :
    roundUnits (units * 5 ^ e * 2 ^ e) (10 ^ e) = units := by
  have hscale := roundUnits_mul_right (n := units) (d := 1) (Nat.pow_pos (n := e) (by decide : 0 < 10))
  rw [Nat.one_mul, roundUnits_of_fits h] at hscale
  rw [Nat.mul_assoc, ← Nat.mul_pow]
  exact hscale

theorem units_allDigits {units : Nat} (h : Fits units) : (allDigits units).units = units := by
  rw [allDigits, Decimal.units_trim]
  exact roundUnits_mul_pow_five h unitExponent

/-- What is written for a double reads back as that double. -/
theorem units_shortest {units : Nat} (h : Fits units) : (shortest units).units = units := by
  rw [shortest]
  cases hf : (List.range' 1 17).findSome? (nearestWith? units) with
  | none => rw [Option.getD_none, units_allDigits h]
  | some d =>
    obtain ⟨count, _, hc⟩ := List.exists_of_findSome?_eq_some hf
    rw [Option.getD_some, units_of_nearestWith? hc]

namespace Binary64

/-! ## The text of a double -/

/-- The text of a double, as characters: a sign, then `NaN`, `inf` or the shortest positional text. -/
def chars : Binary64 → List Char
  | .nan => "NaN".toList
  | .infinite negative => (if negative then ['-'] else []) ++ "inf".toList
  | .finite negative units _ => (if negative then ['-'] else []) ++ (shortest units).chars

/-- The text of a double: positional at any size, with no more digits than it takes to read it back. -/
def text (x : Binary64) : String := String.ofList x.chars

instance : ToString Binary64 := ⟨text⟩

end Binary64
end VideoOverlay
