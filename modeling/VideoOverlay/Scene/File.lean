import VideoOverlay.Scene.Session
import VideoOverlay.System.Files

/-!
# `Scene.File` — scenes in a file

## Contents
- `Scene.load`.
-/

namespace VideoOverlay

/-- The scene in a file. One that cannot be read counts as missing, and so does one that holds no text. -/
def Scene.load (files : Files) (path : String) : Except Error Scene :=
  match files.readText? path with
  | none => .error (.config (.fileNotFound path))
  | some text =>
    match Scene.parse? text with
    | none => .error (.config (.parseFailed path))
    | some scene => .ok scene

end VideoOverlay
