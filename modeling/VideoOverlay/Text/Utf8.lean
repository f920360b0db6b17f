/-!
# `Text.Utf8` — text from bytes

Bytes that programs print are read as UTF-8. Where they are not, one replacement character stands for the
longest run of bytes that begins a character and does not finish it, and for a byte that begins none.

## Contents
- `Lead`, `lead?`: what the first byte of a character announces.
- `nextChar`: the first character of some bytes, or a place that holds none.
- `decode`: all of them. `strictText?`, `lossyText`: the text, if all bytes are well formed, and in any case.
-/

namespace VideoOverlay
namespace Text

/-- What the first byte of a character of several bytes announces: how many bytes follow it, between which
bounds the first of these lies, and the high bits of the code point. -/
structure Lead where
  count : Nat
  low : UInt8
  high : UInt8
  bits : Nat

/-- What a first byte announces, unless it begins no character of several bytes. The bounds leave out long
forms of small code points, surrogates, and code points that are too large. -/
def lead? (b : UInt8) : Option Lead :=
  if 0xC2 ≤ b ∧ b ≤ 0xDF then some ⟨1, 0x80, 0xBF, b.toNat - 0xC0⟩
  else if b = 0xE0 then some ⟨2, 0xA0, 0xBF, 0⟩
  else if b = 0xED then some ⟨2, 0x80, 0x9F, 0xD⟩
  else if 0xE1 ≤ b ∧ b ≤ 0xEF then some ⟨2, 0x80, 0xBF, b.toNat - 0xE0⟩
  else if b = 0xF0 then some ⟨3, 0x90, 0xBF, 0⟩
  else if b = 0xF4 then some ⟨3, 0x80, 0x8F, 4⟩
  else if 0xF1 ≤ b ∧ b ≤ 0xF3 then some ⟨3, 0x80, 0xBF, b.toNat - 0xF0⟩
  else none

/-- The code point that the following bytes complete, and the bytes behind it. Without one, the bytes from the
first that does not fit. -/
def takeTail : Nat → UInt8 → UInt8 → Nat → List UInt8 → Option Nat × List UInt8
  | 0, _, _, bits, bs => (some bits, bs)
  | _ + 1, _, _, _, [] => (none, [])
  | n + 1, low, high, bits, b :: bs =>
    if low ≤ b ∧ b ≤ high then takeTail n 0x80 0xBF (bits * 64 + (b.toNat - 0x80)) bs else (none, b :: bs)

theorem length_takeTail_le (n : Nat) (low high : UInt8) (bits : Nat) (bs : List UInt8) :
    (takeTail n low high bits bs).2.length ≤ bs.length := by
  induction n generalizing low high bits bs with
  | zero => exact Nat.le_refl _
  | succ n ih =>
    cases bs with
    | nil => exact Nat.le_refl _
    | cons b bs =>
      simp only [takeTail]
      split
      · exact Nat.le_succ_of_le (ih ..)
      · exact Nat.le_refl _

/-- The first character, or none where the bytes hold none, and the bytes behind it. -/
def nextChar (b : UInt8) (bs : List UInt8) : Option Char × List UInt8 :=
  if b < 0x80 then (some (Char.ofNat b.toNat), bs)
  else
    match lead? b with
    | none => (none, bs)
    | some lead =>
      let (code, rest) := takeTail lead.count lead.low lead.high lead.bits bs
      (code.map Char.ofNat, rest)

theorem length_nextChar_le (b : UInt8) (bs : List UInt8) : (nextChar b bs).2.length ≤ bs.length := by
  unfold nextChar
  split
  · exact Nat.le_refl _
  · split
    · exact Nat.le_refl _
    · exact length_takeTail_le ..

/-- The characters that bytes hold, and the places where they hold none. -/
def decode : List UInt8 → List (Option Char)
  | [] => []
  | b :: bs => (nextChar b bs).1 :: decode (nextChar b bs).2
  termination_by bs => bs.length
  decreasing_by exact Nat.lt_succ_of_le (length_nextChar_le b bs)

/-- The text of bytes that are well formed. -/
def strictText? (bytes : ByteArray) : Option String := String.fromUTF8? bytes

/-- The text of any bytes, with a replacement character at every place that holds no character. -/
def lossyText (bytes : ByteArray) : String :=
  String.ofList ((decode bytes.data.toList).map fun c => c.getD '\ufffd')

/-- Bytes that hold a text hold that text. -/
theorem strictText?_toUTF8 (s : String) : strictText? s.toUTF8 = some s := by
  rw [strictText?, String.toUTF8_eq_toByteArray, String.fromUTF8?, dif_pos s.isValidUTF8]
  rfl

end Text
end VideoOverlay
