import VideoOverlay.Overlay.Basic
import VideoOverlay.Toml.Typed

/-!
# `Scene.Entry` — overlays as a scene writes them

An entry of a scene names the kind of an overlay and any of its fields. A field that is known to no kind
is refused; one that is known but has no meaning for the kind is not.

## Contents
- `ThicknessEntry`, `Entry`: what is written.
- `Entry.fieldNames`, `Entry.ofValue?`: reading an entry from a document.
- `Entry.toOverlay`: the overlay it describes.
-/

namespace VideoOverlay

/-- A thickness as it is written: a number of pixels, or a name. -/
inductive ThicknessEntry where
  | pixels (count : UInt32)
  | named (name : String)
  deriving DecidableEq

/-- An overlay as it is written. -/
structure Entry where
  kind : String
  file : Option String := none
  imageFile : Option String := none
  videoFile : Option String := none
  text : Option String := none
  x : Option Int := none
  y : Option Int := none
  width : Option Int := none
  height : Option Int := none
  start : Option Binary64 := none
  finish : Option Binary64 := none
  fadeIn : Option Binary64 := none
  fadeOut : Option Binary64 := none
  layer : Option Int := none
  color : Option String := none
  opacity : Option Binary64 := none
  thickness : Option ThicknessEntry := none
  similarity : Option Binary64 := none
  blend : Option Binary64 := none
  still : Option Bool := none
  deriving DecidableEq

namespace Entry

/-! ## Reading -/

/-- The names of the fields, in the order of an entry that is written as an array. -/
def fieldNames : List String :=
  ["kind", "file", "image_file", "video_file", "text", "x", "y", "width", "height", "start", "end", "fade_in",
    "fade_out", "z_index", "color", "opacity", "thickness", "similarity", "blend", "still_image"]

/-- A thickness, as a number or as a text. -/
def thickness? (v : Toml.Value) : Option ThicknessEntry :=
  (v.word32?.map .pixels).or (v.string?.map .named)

/-- An entry with the given fields. The kind must be there, and no field may be unknown. -/
def ofFields? (fields : Toml.Entries) : Option Entry := do
  guard (fields.all fun f => f.1 ∈ fieldNames)
  let kind ← (fields.find? "kind").bind Toml.Value.string?
  let file ← fields.optional "file" Toml.Value.string?
  let imageFile ← fields.optional "image_file" Toml.Value.string?
  let videoFile ← fields.optional "video_file" Toml.Value.string?
  let text ← fields.optional "text" Toml.Value.string?
  let x ← fields.optional "x" Toml.Value.int32?
  let y ← fields.optional "y" Toml.Value.int32?
  let width ← fields.optional "width" Toml.Value.int32?
  let height ← fields.optional "height" Toml.Value.int32?
  let start ← fields.optional "start" Toml.Value.float?
  let finish ← fields.optional "end" Toml.Value.float?
  let fadeIn ← fields.optional "fade_in" Toml.Value.float?
  let fadeOut ← fields.optional "fade_out" Toml.Value.float?
  let layer ← fields.optional "z_index" Toml.Value.int32?
  let color ← fields.optional "color" Toml.Value.string?
  let opacity ← fields.optional "opacity" Toml.Value.float?
  let thickness ← fields.optional "thickness" thickness?
  let similarity ← fields.optional "similarity" Toml.Value.float?
  let blend ← fields.optional "blend" Toml.Value.float?
  let still ← fields.optional "still_image" Toml.Value.boolean?
  return ⟨kind, file, imageFile, videoFile, text, x, y, width, height, start, finish, fadeIn, fadeOut,
    layer, color, opacity, thickness, similarity, blend, still⟩

/-- An entry of a document. One that is written as an array has all fields, and what follows them is left
out of account. -/
def ofValue? (v : Toml.Value) : Option Entry := do
  let fields ← v.fields? fieldNames
  guard (v.elements?.all fun items => fieldNames.length ≤ items.length)
  ofFields? fields

/-! ## Meaning -/

/-- The thickness that is meant; none is a filled box. -/
def thicknessOf (e : Entry) : Except ValidationError Thickness :=
  match e.thickness with
  | none => .ok .max
  | some (.pixels count) => Thickness.ofPixels count
  | some (.named name) => Thickness.ofText name

/-- The color that is meant, if one is named. Its thickness is looked at first. -/
def colorOf (e : Entry) : Except ValidationError (Option Color) :=
  match e.color with
  | none => .ok none
  | some name => do
    let thickness ← e.thicknessOf
    let color ← Color.make name (e.opacity.getD Color.defaultOpacity) thickness
    return some color

/-- What the overlay shows. -/
def contentOf (e : Entry) : Except ValidationError Content :=
  if e.kind = "image" then .ok (.picture ⟨e.file, e.still.getD false⟩)
  else if e.kind = "text" then .ok (.text (e.text.getD ""))
  else if e.kind = "box" then e.colorOf.map .box
  else if e.kind = "colorkey" ∨ e.kind = "color_key" then
    e.colorOf.map fun color =>
      let unset : ColorKey := {}
      .colorKey ⟨color, e.imageFile, e.videoFile, e.similarity.getD unset.similarity, e.blend.getD unset.blend⟩
  else .error (.unsupportedKind e.kind)

/-- Where the overlay sits: at zero in a direction that is not given, if the other one is. -/
def positionOf (e : Entry) : Option Position :=
  if e.x.isSome || e.y.isSome then some ⟨e.x.getD 0, e.y.getD 0⟩ else none

/-- How large the overlay is: a side that is not given keeps the proportions, if the other one is given. -/
def dimensionOf (e : Entry) : Except ValidationError (Option Dimension) :=
  if e.width.isSome || e.height.isSome then
    (Dimension.make (e.width.getD keepAspect) (e.height.getD keepAspect)).map some
  else .ok none

/-- When the overlay is shown: from the beginning, if only the end is given. -/
def timeRangeOf (e : Entry) : Except ValidationError (Option TimeRange) :=
  match e.start, e.finish with
  | start, some finish => (TimeRange.make (start.getD .zero) finish).map some
  | some _, none => .error (.invalidValue "end" "a start time needs an end time")
  | none, none => .ok none

/-- The overlay an entry describes. Whether it has the fields its kind needs is not looked at. -/
def toOverlay (e : Entry) : Except ValidationError Overlay := do
  let content ← e.contentOf
  let dimension ← e.dimensionOf
  let timeRange ← e.timeRangeOf
  return ⟨⟨e.positionOf, dimension, timeRange, e.fadeIn, e.fadeOut, e.layer.getD 0⟩, content⟩

end Entry
end VideoOverlay
