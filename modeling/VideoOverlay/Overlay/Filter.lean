import VideoOverlay.Duration.Token
import VideoOverlay.Overlay.Basic

/-!
# `Overlay.Filter` — the filter expressions of overlays

Each kind of overlay is drawn by one filter, written as a name and options. The expressions know nothing
of streams and labels. An overlay that lacks a field is still written, with that option left out or at
the filter's own default.

## Contents
- `drawBox`, `ColorKey.filter`: a box and a color key.
- `scaleFilter`, `Placement.sourceFilters`: what a picture goes through before it is laid over.
- `Placement.overlayFilter`: laying a picture over the stream below.
- `fadeOutStart`: when a fade at the end begins, or the token that stands for it.
-/

namespace VideoOverlay

/-! ## Boxes and color keys -/

/-- A box drawn onto the stream. -/
def drawBox (p : Placement) (color : Option Color) : String :=
  let place := match p.position with
    | some position => ["x=" ++ toString position.x, "y=" ++ toString position.y]
    | none => []
  let size := match p.dimension with
    | some dimension => ["w=" ++ toString dimension.width, "h=" ++ toString dimension.height]
    | none => []
  let paint := match color with
    | some color => ["color='" ++ color.text ++ "'"]
    | none => []
  let time := (p.timeRange.map TimeRange.enableClause).toList
  "drawbox=" ++ String.intercalate ":" (place ++ size ++ paint ++ time)

/-- The stream made transparent where it has the key color. -/
def ColorKey.filter (k : ColorKey) : String :=
  "colorkey=" ++ (k.color.map Color.withAlpha).getD "" ++ ":" ++ k.similarity.text ++ ":" ++ k.blend.text

/-! ## Pictures -/

/-- A stream brought to a size; its own size if none is given. -/
def scaleFilter (dimension : Option Dimension) : String :=
  "scale=" ++ (dimension.map Dimension.text).getD "iw:ih"

/-- When a fade at the end begins: so long before the end of the range that it ends with it, or before the
end of the main video, which a token stands for. -/
def fadeOutStart (timeRange : Option TimeRange) (seconds : Binary64) : String :=
  match timeRange with
  | some r => Duration.secondsBefore r.finish seconds
  | none => Duration.tokenText seconds

/-- A fade at the beginning. -/
def fadeInFilter (seconds : Binary64) : String := "fade=t=in:st=0:d=" ++ seconds.text ++ ":alpha='1'"

/-- A fade at the end. -/
def fadeOutFilter (timeRange : Option TimeRange) (seconds : Binary64) : String :=
  "fade=t=out:st=" ++ fadeOutStart timeRange seconds ++ ":d=" ++ seconds.text ++ ":alpha='1'"

/-- What a picture goes through before it is laid over: it is scaled, and given transparency to fade. -/
def Placement.sourceFilters (p : Placement) : String :=
  if p.hasFade then
    String.intercalate ","
      (["format=yuva420p", scaleFilter p.dimension] ++ (p.fadeInLength.map fadeInFilter).toList
        ++ (p.fadeOutLength.map (fadeOutFilter p.timeRange)).toList)
  else scaleFilter p.dimension

/-- A picture laid over the stream below. A still one stops with it. -/
def Placement.overlayFilter (p : Placement) (still : Bool) : String :=
  "overlay=" ++ (p.position.map Position.text).getD "0:0" ++ (if still then ":shortest='1'" else "")
    ++ (p.timeRange.map fun r => ":" ++ r.enableClause).getD ""

end VideoOverlay
