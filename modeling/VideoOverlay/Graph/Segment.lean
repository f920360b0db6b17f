/-!
# `Graph.Segment` — the segments of a filter graph

A segment reads some streams, passes them through filters and writes at most one stream under a label
that later segments can read. A graph is a list of segments.

## Contents
- `Label`, `Stream`, `Segment`, with their texts.
- `Label.text_injective`: different labels have different texts.
-/

namespace VideoOverlay

/-- The name of a stream that a segment writes: the keyed main video, the picture number `n` brought to
its size, or the main video with everything up to the stage number `n` drawn onto it. -/
inductive Label where
  | keyed
  | scaled (n : Nat)
  | stage (n : Nat)
  deriving DecidableEq, Repr

/-- The text of a label. -/
def Label.text : Label → String
  | .keyed => "sck"
  | .scaled n => "s" ++ toString n
  | .stage n => "out" ++ toString n

/-- A stream that a segment reads: the video of an input file, or what another segment wrote. -/
inductive Stream where
  | input (n : Nat)
  | labelled (label : Label)
  deriving DecidableEq, Repr

/-- A stream in brackets, as a segment refers to it. -/
def Stream.text : Stream → String
  | .input n => "[" ++ toString n ++ ":v]"
  | .labelled label => "[" ++ label.text ++ "]"

/-- One segment of a filter graph. -/
structure Segment where
  sources : List Stream
  filters : String
  output : Option Label
  deriving DecidableEq, Repr

/-- The streams it reads, the filters, and the label it writes. -/
def Segment.text (s : Segment) : String :=
  String.join (s.sources.map Stream.text) ++ s.filters
    ++ (s.output.map fun label => (Stream.labelled label).text).getD ""

/-- The labels a segment reads, in order. -/
def Segment.reads (s : Segment) : List Label :=
  s.sources.filterMap fun
    | .labelled label => some label
    | .input _ => none

/-! ## Different labels have different texts -/

theorem toList_toString_nat (n : Nat) : (toString n).toList = Nat.toDigits 10 n := by
  rw [Nat.toString_eq_ofList_toDigits, String.toList_ofList]

/-- A number is known by its digits. -/
theorem toDigits_ten_injective {m n : Nat} (h : Nat.toDigits 10 m = Nat.toDigits 10 n) : m = n := by
  rw [← Nat.ofDigitChars_ten_toDigits (n := m), h, Nat.ofDigitChars_ten_toDigits]

theorem toDigits_ten_ne_ck (n : Nat) : Nat.toDigits 10 n ≠ ['c', 'k'] := by
  intro h
  have hc : 'c'.isDigit = true :=
    Nat.isDigit_of_mem_toDigits (b := 10) (n := n) (by decide) (by decide) (by rw [h]; exact List.mem_cons_self)
  exact absurd hc (by decide)

/-- Different labels have different texts. -/
theorem Label.text_injective {a b : Label} (h : a.text = b.text) : a = b := by
  have hl := congrArg String.toList h
  cases a <;> cases b <;>
    simp only [Label.text, String.toList_append, toList_toString_nat] at hl
  case keyed.keyed => rfl
  case keyed.scaled n => exact absurd (List.cons.inj hl).2.symm (toDigits_ten_ne_ck n)
  case scaled.keyed n => exact absurd (List.cons.inj hl).2 (toDigits_ten_ne_ck n)
  case scaled.scaled m n => exact congrArg Label.scaled (toDigits_ten_injective (List.cons.inj hl).2)
  case stage.stage m n => exact congrArg Label.stage (toDigits_ten_injective (List.append_cancel_left hl))
  all_goals exact absurd (List.cons.inj hl).1 (by decide)

end VideoOverlay
