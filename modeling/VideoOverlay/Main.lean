import VideoOverlay.CommandLine.Run

/-!
# `Main` — the program

The files that a command line names are read, the run is done, and what it printed is shown. No other program
is started from here: a run finds neither a prober nor an encoder, so it succeeds for previews, and for dry
runs in which no media file has to be examined.

## Contents
- `Files.withFile`: a tree in which a path leads to a file.
- `Task.scene?`, `Request.files`: the files that a run reads. `loadFiles`: a tree with these files.
- `Action.text`, `logText`: what the log says.
- `main`.
-/

namespace VideoOverlay

/-- The tree with a file where a path leads, and the directories on the way. A directory is made by a file
without a name, which no path leads to. -/
def Files.withFile (t : Files) (text : String) (contents : ByteArray) : Files :=
  let path := Path.ofText text
  let start := if path.fromRoot then [] else t.workingDirectory
  let visited := path.through.foldl (fun places name => Files.enter (places.headD start) name :: places) []
  let withDirectories := visited.foldl (fun t place => t.put (place ++ [""]) .empty) t
  withDirectories.put (Files.enter (visited.headD start) path.last) contents

namespace CommandLine

/-! ## Files -/

/-- The scene that a task reads. -/
def Task.scene? : Task → Option String
  | .preview scene | .make (.render _ scene _) _ => some scene
  | .make _ _ => none

/-- The files that a run reads. -/
def Request.files (r : Request) : List String := r.config.toList ++ r.task.scene?.toList

/-- The tree with the files that can be read. -/
def loadFiles (t : Files) : List String → IO Files
  | [] => return t
  | path :: paths => do
    match ← (IO.FS.readBinFile path).toBaseIO with
    | .ok contents => loadFiles (t.withFile path contents) paths
    | .error _ => loadFiles t paths

/-- The place of the working directory. -/
def workingPlace : IO Place := do
  let path := Path.ofText (← IO.currentDir).toString
  return path.through ++ [path.last]

/-! ## Log -/

/-- What the log says about an action. -/
def Action.text : Action → String
  | .examine prober path => "examining " ++ path ++ " with " ++ prober
  | .encode encoder arguments => "running " ++ commandText encoder arguments

/-- The log of a run: its actions, if more is to be said. -/
def logText (verbose : Bool) (f : Finished) : String :=
  if verbose then String.join (f.actions.map fun a => line a.text) else ""

end CommandLine
end VideoOverlay

open VideoOverlay in
/-- Run the program. -/
def main (arguments : List String) : IO UInt32 := do
  let request? := (CommandLine.Request.ofArguments arguments).toOption
  let files ← CommandLine.loadFiles { workingDirectory := ← CommandLine.workingPlace }
    ((request?.map CommandLine.Request.files).getD [])
  let finished := CommandLine.run { files } arguments
  IO.eprint (CommandLine.logText (request?.any CommandLine.Request.verbose) finished)
  IO.print finished.output
  IO.eprint finished.messages
  return UInt32.ofNat finished.code
