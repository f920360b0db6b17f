import VideoOverlay.Graph.Segment
import VideoOverlay.Overlay.Filter
import VideoOverlay.Session

/-!
# `Graph.Compile` — the filter graph of a session

Overlays are drawn in a fixed order of kinds: color key, pictures, texts, boxes. Each stage draws onto what the stage
before has written, and the last one writes to the output. Segments are emitted one after the other, and what is
emitted is kept together with the labels that are written and the number of the latest stage. A segment that reads a
label which none before it wrote is refused at once.

## Contents
- `Emission`, `Emission.emit`: what is emitted, and one segment more.
- `Emission.emitColorKey`, `Emission.emitPictures`, `Emission.emitTexts`, `Emission.emitBoxes`: the kinds.
- `Emission.emitSession`: all of them.
- `Graph`, `Session.compile`: the segments and the files they read.
-/

namespace VideoOverlay

/-- The stream that the stage number `n` draws onto: the main video if nothing was drawn before. -/
def baseStream (n : Nat) : Stream := if n = 1 then .input 0 else .labelled (.stage n)

/-- A label, if the condition holds. -/
def labelIf (condition : Bool) (label : Label) : Option Label := if condition then some label else none

/-! ## Emitting -/

/-- What is emitted of a graph: its segments so far, the labels that they write, and the number of the latest stage. -/
structure Emission where
  segments : List Segment := []
  written : List Label := []
  stage : Nat := 1

namespace Emission

/-- One segment more. Every label that it reads must be written. -/
def emit (e : Emission) (sources : List Stream) (filters : String) (output : Option Label) :
    Except GraphError Emission :=
  let segment : Segment := ⟨sources, filters, output⟩
  match segment.reads.find? (· ∉ e.written) with
  | some label => .error (.danglingLabel label.text e.segments.length)
  | none => .ok { e with segments := e.segments ++ [segment], written := output.toList ++ e.written }

/-- The next stage is the latest one. -/
def advance (e : Emission) : Emission := { e with stage := e.stage + 1 }

/-- The keyed main video is laid over the background, if there is a color key. -/
def emitColorKey (e : Emission) (followed : Bool) : Option (Placed ColorKey) → Except GraphError Emission
  | none => .ok e
  | some key => do
    let e ← e.emit [.input 0] key.content.filter (some .keyed)
    let e ← e.emit [.input 1] (scaleFilter key.placement.dimension) (some (.stage 1))
    let e ← e.emit [.labelled (.stage 1), .labelled .keyed] "overlay" (labelIf followed (.stage 2))
    return { e with stage := 2 }

/-- A picture is brought to its size and laid over what was drawn before. -/
def emitPicture (e : Emission) (input : Nat) (followed : Bool) (p : Placed Picture) : Except GraphError Emission := do
  let e ← e.emit [.input input] p.placement.sourceFilters (some (.scaled e.stage))
  let e ← e.emit [baseStream e.stage, .labelled (.scaled e.stage)] (p.placement.overlayFilter p.content.still)
    (labelIf followed (.stage (e.stage + 1)))
  return e.advance

/-- All pictures, in order. They read the inputs from `first` on, and each of them is followed by the next one. -/
def emitPictures (e : Emission) (first : Nat) (followed : Bool) (ps : List (Placed Picture)) :
    Except GraphError Emission :=
  ps.zipIdx.foldlM (fun e q => e.emitPicture (first + q.2) (q.2 + 1 < ps.length || followed) q.1) e

/-- All texts are drawn by one segment. -/
def emitTexts (e : Emission) (followed : Bool) (texts : List (Placed String)) : Except GraphError Emission := do
  let e ← e.emit [baseStream e.stage] (String.intercalate "," (texts.map Placed.content))
    (labelIf followed (.stage (e.stage + 1)))
  return e.advance

/-- All boxes are drawn by one segment, which closes the graph. -/
def emitBoxes (e : Emission) (boxes : List (Placed (Option Color))) : Except GraphError Emission :=
  e.emit [.labelled (.stage e.stage)]
    (String.intercalate "," (boxes.map fun b => drawBox b.placement b.content)) none

/-- What is emitted if the condition holds. -/
def onlyIf (e : Emission) (condition : Bool) (more : Emission → Except GraphError Emission) :
    Except GraphError Emission :=
  if condition then more e else .ok e

/-- All overlays of a session. -/
def emitSession (e : Emission) (s : Session) : Except GraphError Emission := do
  let hasPictures := !s.pictures.isEmpty
  let hasTexts := !s.texts.isEmpty
  let hasBoxes := !s.boxes.isEmpty
  let e ← e.emitColorKey (hasPictures || hasTexts) s.colorKey
  let e ← e.emitPictures (1 + s.colorKeyInputCount) hasTexts s.pictures
  let e ← e.onlyIf hasTexts fun e => e.emitTexts hasBoxes s.texts
  e.onlyIf hasBoxes fun e => e.emitBoxes s.boxes

end Emission

/-! ## Graphs -/

/-- A filter graph and the files its inputs after the main video are. -/
structure Graph where
  segments : List Segment
  inputs : List String
  deriving DecidableEq

/-- The text of a graph: its segments, divided by commas. -/
def Graph.text (g : Graph) : String := String.intercalate "," (g.segments.map Segment.text)

/-- Whether there is nothing to draw. -/
def Graph.isEmpty (g : Graph) : Bool := g.segments.isEmpty

/-- The graph that draws the overlays of a session. -/
def Session.compile (s : Session) : Except GraphError Graph := do
  let e ← ({} : Emission).emitSession s
  return ⟨e.segments, s.inputs⟩

end VideoOverlay
