import VideoOverlay.Graph.Compile
import VideoOverlay.Media.Probe

/-!
# `Export.Command` — the arguments of an encoder run

Three exports share one main video: drawing the overlays of a session onto it, appending other files to
it, and remuxing it into a transport stream. Each is a list of arguments. Copying streams works only for
files of one codec, so every file of such an export is asked for its codec first, in order.

## Contents
- `resolveGraph`: the text of a graph without tokens for the length of the main video.
- `renderCommand`, `mergeCommand`, `transportStreamCommand`.
-/

namespace VideoOverlay

/-! ## Drawing -/

/-- The text of a graph with every duration token resolved. Only a graph with a token asks the probe, and
a token that is still there afterwards is refused. -/
def resolveGraph (probe : Option Probe) (primary graph : String) : Assembly String :=
  match Duration.findTokenText? graph with
  | none => pure graph
  | some token =>
    match probe with
    | none => .fail (.config (.unresolvedPlaceholder token))
    | some probe => do
      let report ← Assembly.require probe primary
      let resolved := Duration.resolve graph report.duration
      match Duration.findTokenText? resolved with
      | none => pure resolved
      | some rest => .fail (.config (.unresolvedPlaceholder rest))

/-- The arguments that name input files. -/
def inputArguments (files : List String) : List String := files.flatMap fun file => ["-i", file]

/-- The arguments that apply a filter graph, unless it is empty. -/
def filterArguments (graph : String) : List String :=
  if graph = "" then [] else ["-filter_complex", graph]

/-- The arguments that draw the overlays of a session onto the main video. -/
def renderCommand (probe : Option Probe) (primary : String) (session : Session) (output : String) :
    Assembly (List String) := do
  let graph ← Assembly.ofExcept (session.compile.mapError .graph)
  let text ← resolveGraph probe primary graph.text
  return inputArguments (primary :: graph.inputs) ++ filterArguments text ++ [output]

/-! ## Copying streams -/

/-- A file has a video stream of the required codec. -/
def ensureCodec (probe : Option Probe) (required operation file : String) : Assembly Unit :=
  match probe with
  | none => .fail (.config (.missingKey "media probe"))
  | some probe => do
    let report ← Assembly.require probe file
    if report.codec = required then pure ()
    else .fail (.validation (.unsupportedCodec (operation ++ " of " ++ file) required report.codec))

/-- Every file has a video stream of the required codec; the first that has not is the reason of a failure. -/
def ensureCodecs (probe : Option Probe) (required operation : String) : List String → Assembly Unit
  | [] => pure ()
  | file :: files => do
    ensureCodec probe required operation file
    ensureCodecs probe required operation files

/-- The arguments that append files to the main video. -/
def mergeCommand (probe : Option Probe) (required primary : String) (appended : List String)
    (output : String) : Assembly (List String) := do
  ensureCodecs probe required "Concat protocol merge" (primary :: appended)
  return ["-y", "-i", "concat:" ++ String.intercalate "|" (primary :: appended), "-c", "copy",
    "-bsf:a", "aac_adtstoasc", output]

/-- The arguments that remux the main video into a transport stream. -/
def transportStreamCommand (probe : Option Probe) (required primary output : String) :
    Assembly (List String) := do
  ensureCodec probe required "Transport stream export" primary
  return ["-y", "-i", primary, "-c", "copy", "-bsf:v", "h264_mp4toannexb", "-f", "mpegts", output]

end VideoOverlay
