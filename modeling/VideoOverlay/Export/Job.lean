import VideoOverlay.Config.File
import VideoOverlay.Export.Command
import VideoOverlay.Scene.File
import VideoOverlay.System.Machine

/-!
# `Export.Job` — exports of files

A job names the files of one export. What the encoder is given for it depends on the settings and on the
machine: the scene is read there, and its prober is asked about media files.

## Contents
- `Job`, `Job.command`: the arguments that the export itself needs.
- `allowReplacing`, `Job.arguments`: all arguments, with the leave to replace an output that exists.
-/

namespace VideoOverlay

/-- One export: the overlays of a scene drawn onto a video, files appended to a video, or a video remuxed. -/
inductive Job where
  | render (input scene output : String)
  | merge (input : String) (appended : List String) (output : String)
  | transportStream (input output : String)
  deriving DecidableEq, Repr

/-- The arguments an export needs. -/
def Job.command (machine : Machine) (config : Config) : Job → Assembly (List String)
  | .render input scene output => do
    let scene ← Assembly.ofExcept (Scene.load machine.files scene)
    let session ← scene.session (some (machine.probe config.programs.prober))
    renderCommand (some (machine.probe config.programs.prober)) input session output
  | .merge input appended output =>
    mergeCommand (some (machine.probe config.programs.prober)) config.policy.requiredCodec input appended output
  | .transportStream input output =>
    transportStreamCommand (some (machine.probe config.programs.prober)) config.policy.requiredCodec input output

/-- Arguments that let the encoder replace an output that exists, if that is wanted. Arguments that already
let it are left as they are. -/
def allowReplacing (wanted : Bool) (arguments : List String) : List String :=
  if wanted && arguments.head? != some "-y" then "-y" :: arguments else arguments

/-- All arguments of the encoder. -/
def Job.arguments (machine : Machine) (config : Config) (job : Job) : Assembly (List String) := do
  let arguments ← job.command machine config
  return allowReplacing config.policy.overwrite arguments

end VideoOverlay
