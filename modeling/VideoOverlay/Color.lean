import VideoOverlay.Error
import VideoOverlay.Number.Numeral

/-!
# `Color` — colors and the thickness of a drawn border

A color has a name, an opacity from 0 to 1 and the thickness of the border it is drawn with. The
thickness is a number of pixels, or `max` for a filled box.

## Contents
- `Thickness`, `Thickness.ofPixels`, `Thickness.ofText`, `Thickness.text`.
- `Color`, `Color.make`, `Color.plain`: name, opacity and thickness are checked in this order.
- `Color.withAlpha`, `Color.text`.
-/

namespace VideoOverlay

/-! ## Thickness -/

/-- The thickness of a border. -/
inductive Thickness where
  | max
  | pixels (count : UInt32)
  deriving DecidableEq

namespace Thickness

/-- What a thickness should be. -/
def expectation : String := "thickness should be a positive integer or \"max\""

/-- A border of some pixels, at least one. -/
def ofPixels (count : UInt32) : Except ValidationError Thickness :=
  if count = 0 then .error (.invalidValue "color.thickness" expectation) else .ok (.pixels count)

/-- The thickness a text names: `max`, or a positive number of pixels. -/
def ofText (s : String) : Except ValidationError Thickness :=
  if s = "max" then .ok .max
  else
    match word32OfChars? s.toList with
    | some count => ofPixels count
    | none => .error (.invalidValue "color.thickness" (expectation ++ ", " ++ s ++ " given"))

/-- The text of a thickness. -/
def text : Thickness → String
  | .max => "max"
  | .pixels count => toString count.toNat

end Thickness

/-! ## Colors -/

/-- From 0 to 1, both included. -/
def IsFraction (x : Binary64) : Prop := Binary64.le .zero x = true ∧ Binary64.le x .one = true

instance (x : Binary64) : Decidable (IsFraction x) := inferInstanceAs (Decidable (_ ∧ _))

/-- A color: its name is not blank, its opacity is a fraction, and its border has a pixel. -/
structure Color where
  name : String
  opacity : Binary64
  thickness : Thickness
  name_isGiven : Text.isBlankText name = false
  opacity_isFraction : IsFraction opacity
  thickness_isDrawn : thickness ≠ .pixels 0
  deriving DecidableEq

namespace Color

/-- The opacity of a color for which none is given. -/
def defaultOpacity : Binary64 := Binary64.ofRatio false 4 10

/-- The color of a name, an opacity and a thickness. -/
def make (name : String) (opacity : Binary64) (thickness : Thickness) : Except ValidationError Color :=
  if hn : Text.isBlankText name = false then
    if ho : IsFraction opacity then
      if ht : thickness ≠ .pixels 0 then .ok ⟨name, opacity, thickness, hn, ho, ht⟩
      else .error (.invalidValue "color.thickness" Thickness.expectation)
    else
      .error (.invalidValue "color.opacity"
        ("opacity should be a value from 0 to 1, " ++ opacity.text ++ " given"))
  else .error (.invalidValue "color.name" "color name is empty")

/-- The color of a name, with the default opacity and no border. -/
def plain (name : String) : Except ValidationError Color := make name defaultOpacity .max

/-- Name and opacity, as filters take a color. -/
def withAlpha (c : Color) : String := c.name ++ "@" ++ c.opacity.text

/-- Name, opacity and thickness, as options of a drawn box. -/
def text (c : Color) : String := c.withAlpha ++ ":t=" ++ c.thickness.text

end Color
end VideoOverlay
