import VideoOverlay.Color
import VideoOverlay.Geometry
import VideoOverlay.TimeRange

/-!
# `Overlay.Basic` — overlays and what they carry

An overlay is something drawn onto the main video: a picture or clip, a text, a box, or a background
that shows through where the video has a key color. Every kind shares a placement: where, how large,
when, and how it fades. Which fields a kind needs is checked by `Overlay.validate`, not by the types
here, so an unfinished overlay can be described and shown as well.

## Contents
- `Placement`, `Placement.fadeInLength`, `Placement.fadeOutLength`, `Placement.hasFade`.
- `Picture`, `ColorKey`, `ColorKey.files`: what a picture and a color key carry beyond a placement.
- `Content`: the four kinds. `Placed`, `Overlay`: something with a placement.
-/

namespace VideoOverlay

/-! ## Placement -/

/-- Where, how large and when an overlay is shown, and how it fades. A fade is a length in seconds. The
`layer` is kept for the caller; the order of drawing follows from the kinds. -/
structure Placement where
  position : Option Position := none
  dimension : Option Dimension := none
  timeRange : Option TimeRange := none
  fadeIn : Option Binary64 := none
  fadeOut : Option Binary64 := none
  layer : Int := 0
  deriving DecidableEq

namespace Placement

/-- Whether a length of a fade makes a fade at all. -/
def isFade (seconds : Binary64) : Bool := Binary64.lt .zero seconds

/-- The length of the fade at the beginning; none if it is zero. -/
def fadeInLength (p : Placement) : Option Binary64 := p.fadeIn.filter isFade

/-- The length of the fade at the end; none if it is zero. -/
def fadeOutLength (p : Placement) : Option Binary64 := p.fadeOut.filter isFade

/-- Whether the overlay fades at either end. -/
def hasFade (p : Placement) : Bool := p.fadeInLength.isSome || p.fadeOutLength.isSome

end Placement

/-! ## Kinds -/

/-- A picture or clip. A still picture has no timeline of its own and stops with the main video. -/
structure Picture where
  file : Option String := none
  still : Bool := false
  deriving DecidableEq

/-- A background shown where the main video has a color, or nearly so. -/
structure ColorKey where
  color : Option Color := none
  imageFile : Option String := none
  videoFile : Option String := none
  similarity : Binary64 := Binary64.ofRatio false 1 100
  blend : Binary64 := .zero
  deriving DecidableEq

/-- The background files in the order they are read: the picture, then the clip. -/
def ColorKey.files (k : ColorKey) : List String := k.imageFile.toList ++ k.videoFile.toList

/-- What an overlay shows. A text is a filter expression of its own, taken as it is. -/
inductive Content where
  | picture (picture : Picture)
  | text (fragment : String)
  | box (color : Option Color)
  | colorKey (key : ColorKey)
  deriving DecidableEq

/-- The name of a kind. -/
def Content.kindName : Content → String
  | .picture _ => "image"
  | .text _ => "text"
  | .box _ => "box"
  | .colorKey _ => "colorkey"

/-! ## Overlays -/

/-- Something with a placement. -/
structure Placed (α : Type) where
  placement : Placement
  content : α
  deriving DecidableEq

/-- An overlay of any kind. -/
abbrev Overlay := Placed Content

end VideoOverlay
