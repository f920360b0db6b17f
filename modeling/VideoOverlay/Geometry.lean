import VideoOverlay.Error

/-!
# `Geometry` — where an overlay sits and how large it is

Pixels count from the top left corner of the main video. A position may lie outside of it. A side of a
dimension is a positive number of pixels, or `keepAspect` for the length that keeps the proportions.

## Contents
- `Position`, `Position.text`.
- `IsSide`, `Dimension`, `Dimension.text`: sides are checked when a dimension is made.
- `Dimension.make`, `Dimension.ofWidth`, `Dimension.ofHeight`, with `Dimension.make_eq_ok_iff`.
-/

namespace VideoOverlay

/-! ## Positions -/

/-- The top left corner of an overlay. -/
structure Position where
  x : Int
  y : Int
  deriving DecidableEq, Repr

/-- Both coordinates, divided by a colon. -/
def Position.text (p : Position) : String := toString p.x ++ ":" ++ toString p.y

/-! ## Dimensions -/

/-- The side that follows from the other one and the proportions of the stream. -/
def keepAspect : Int := -1

/-- A length that a side may have. -/
def IsSide (n : Int) : Prop := 0 < n ∨ n = keepAspect

instance (n : Int) : Decidable (IsSide n) := inferInstanceAs (Decidable (_ ∨ _))

/-- The size a stream is scaled to, or a box is drawn with. -/
structure Dimension where
  width : Int
  height : Int
  width_isSide : IsSide width
  height_isSide : IsSide height
  deriving DecidableEq

namespace Dimension

/-- Why a number is not a side. -/
def sideError (field : String) (n : Int) : ValidationError :=
  .invalidValue field ("expected a positive integer or " ++ toString keepAspect ++ ", got " ++ toString n)

/-- The dimension with the given sides; the width is checked first. -/
def make (width height : Int) : Except ValidationError Dimension :=
  if hw : IsSide width then
    if hh : IsSide height then .ok ⟨width, height, hw, hh⟩
    else .error (sideError "dimension.height" height)
  else .error (sideError "dimension.width" width)

/-- The dimension of a given width that keeps the proportions. -/
def ofWidth (width : Int) : Except ValidationError Dimension := make width keepAspect

/-- The dimension of a given height that keeps the proportions. -/
def ofHeight (height : Int) : Except ValidationError Dimension := make keepAspect height

/-- Both sides, divided by a colon. -/
def text (d : Dimension) : String := toString d.width ++ ":" ++ toString d.height

/-- Two numbers make a dimension exactly if both are sides, and it has those sides. -/
theorem make_eq_ok_iff {width height : Int} {d : Dimension} :
    make width height = .ok d ↔ d.width = width ∧ d.height = height := by
  constructor
  · intro h
    unfold make at h
    split at h
    · split at h
      · cases h; exact ⟨rfl, rfl⟩
      · cases h
    · cases h
  · rintro ⟨rfl, rfl⟩
    simp only [make, dif_pos d.width_isSide, dif_pos d.height_isSide]

end Dimension
end VideoOverlay
