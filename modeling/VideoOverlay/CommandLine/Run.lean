import VideoOverlay.CommandLine.Request

/-!
# `CommandLine.Run` — runs of the program

A run loads the configuration, does the task of a request and says how it ended. It asks the prober about
media files and starts the encoder once at the most, after it has asked everything. A preview does neither.

## Contents
- `Action`, `Finished`: what a run does with other programs, and how it ends.
- `report`: the text of a failure.
- `preview`, `make`, `Request.run`: the tasks. `run`: the program.
- `Finished.calls`: the programs that a run started.
-/

namespace VideoOverlay
namespace CommandLine

/-! ## Runs -/

/-- What a run does with other programs. -/
inductive Action where
  | examine (prober path : String)
  | encode (encoder : String) (arguments : List String)
  deriving DecidableEq, Repr

/-- How a run ends: what it did with other programs, in order, its exit code, and what it printed. -/
structure Finished where
  actions : List Action := []
  code : Nat := 0
  output : String := ""
  messages : String := ""
  deriving DecidableEq, Repr

/-- The end of a run that fails. -/
def Finished.failed (actions : List Action) (text : String) : Finished :=
  { actions, code := 1, messages := "Error: " ++ text ++ "\n" }

/-- A text under a heading, with every line indented. -/
def indented (text : String) : String :=
  "    " ++ String.ofList (text.toList.flatMap fun c => if c = '\n' then "\n    ".toList else [c])

/-- A failure with its cause. -/
def report (e : Error) : String := e.message ++ "\n\nCaused by:\n" ++ indented e.cause

/-- A line of output. -/
def line (text : String) : String := text ++ "\n"

/-! ## Tasks -/

/-- The files a graph reads, numbered after the main video. -/
def inputLines (number : Nat) : List String → String
  | [] => ""
  | file :: files => line ("[" ++ toString number ++ ":v] " ++ file) ++ inputLines (number + 1) files

/-- A graph with the files it reads, line by line. -/
def listing (g : Graph) : String :=
  inputLines 1 g.inputs ++ String.join (g.segments.map fun s => line s.text)

/-- Show the graph of a scene. No other program is asked. -/
def preview (machine : Machine) (path : String) : Finished :=
  match (Scene.load machine.files path).bind fun scene => (scene.session none).outcome with
  | .error e => .failed [] (report e)
  | .ok session =>
    match session.compile with
    | .error e => .failed [] e.message
    | .ok graph => { output := listing graph }

/-- The command line that an encoder would be started by. -/
def commandText (encoder : String) (arguments : List String) : String :=
  encoder ++ " " ++ String.intercalate " " arguments

/-- Do an export, or show what would be done. -/
def make (machine : Machine) (config : Config) (job : Job) (dryRun : Bool) : Finished :=
  let assembly := job.arguments machine config
  let examined := assembly.probed.map (Action.examine config.programs.prober)
  match assembly.outcome with
  | .error e => .failed examined (report e)
  | .ok arguments =>
    if dryRun then { actions := examined, output := line (commandText config.programs.encoder arguments) }
    else
      let actions := examined ++ [.encode config.programs.encoder arguments]
      match machine.encode config.programs.encoder arguments with
      | .ok () => { actions }
      | .error e => .failed actions (Error.run e).userMessage

/-- The settings of a request. -/
def Request.settings (r : Request) (files : Files) : Except Error Config :=
  match r.config with
  | some path => Config.load files path
  | none => .ok {}

/-- Do what is requested. -/
def Request.run (r : Request) (machine : Machine) : Finished :=
  match r.settings machine.files with
  | .error e => .failed [] (report e)
  | .ok config =>
    match r.task with
    | .preview path => preview machine path
    | .make job dryRun => make machine config job dryRun

/-! ## The program -/

/-- The name of the program, and its version. -/
def versionText : String := "overlay-compositor 0.1.0"

/-- How the program is used. -/
def usageText : String :=
  "Usage: overlay-compositor [-c FILE] [-v] COMMAND\n\n" ++
  "Commands:\n" ++
  "  render -i VIDEO -s SCENE -o OUTPUT [--dry-run]      draw the overlays of a scene onto a video\n" ++
  "  merge -i VIDEO -s VIDEO... -o OUTPUT [--dry-run]    append videos without encoding\n" ++
  "  preview -s SCENE                                    show the filter graph of a scene\n" ++
  "  transport-stream -i VIDEO -o OUTPUT [--dry-run]     remux a video into a transport stream"

/-- The end of a run that is asked for no task. -/
def Ending.finished : Ending → Finished
  | .version => { output := line versionText }
  | .help => { output := line usageText }
  | .misuse => { code := 2, messages := line usageText }

/-- The program. -/
def run (machine : Machine) (arguments : List String) : Finished :=
  match Request.ofArguments arguments with
  | .ok request => request.run machine
  | .error ending => ending.finished

/-! ## Started programs -/

/-- The programs that are started for an action: none if it cannot be started. -/
def Action.calls (machine : Machine) : Action → List Call
  | .examine prober path => machine.started prober (Machine.proberArguments path)
  | .encode encoder arguments => machine.started encoder arguments

/-- The programs that a run started, in order. -/
def Finished.calls (f : Finished) (machine : Machine) : List Call := f.actions.flatMap (Action.calls machine)

end CommandLine
end VideoOverlay
