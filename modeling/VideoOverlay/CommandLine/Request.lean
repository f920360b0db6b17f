import VideoOverlay.CommandLine.Setting
import VideoOverlay.Export.Job

/-!
# `CommandLine.Request` — what a command line asks for

A command line names a command, with options before and behind it. The configuration and the verbosity may
be given in both places, and a configuration behind the command goes before one in front of it. Every option
is known to the place where it stands, and is given there once at the most, files to append apart. A command
line that breaks these rules asks for nothing.

## Contents
- `Task`, `Request`, and `Ending`: what else a command line can come to.
- `Command`: the words for tasks, and the options they know.
- `accept`, `read`: the options up to a word.
- `task?`: the task of a command with options. `Request.ofArguments`.
-/

namespace VideoOverlay
namespace CommandLine

/-! ## Requests -/

/-- What is to be done: show the graph of a scene, or an export, which in a dry run is only shown. -/
inductive Task where
  | preview (scene : String)
  | make (job : Job) (dryRun : Bool)
  deriving DecidableEq, Repr

/-- A task, with a configuration file and whether the log says more. -/
structure Request where
  task : Task
  config : Option String := none
  verbose : Bool := false
  deriving DecidableEq, Repr

/-- What a command line comes to that asks for no task. -/
inductive Ending where
  | version
  | help
  | misuse
  deriving DecidableEq, Repr

/-! ## Commands -/

/-- A word for a task. -/
inductive Command where
  | render
  | merge
  | preview
  | transportStream
  deriving DecidableEq, Repr

namespace Command

/-- All commands. -/
def all : List Command := [.render, .merge, .preview, .transportStream]

/-- The word for a task. -/
def name : Command → String
  | .render => "render"
  | .merge => "merge"
  | .preview => "preview"
  | .transportStream => "transport-stream"

/-- The command of a word. -/
def ofName? (word : String) : Option Command := all.find? fun c => c.name = word

/-- The options that a command knows. -/
def settings : Command → List Setting
  | .render => [.input, .scene, .output, .dryRun, .config, .verbose, .help]
  | .merge => [.input, .segment, .output, .dryRun, .config, .verbose, .help]
  | .preview => [.scene, .config, .verbose, .help]
  | .transportStream => [.input, .output, .dryRun, .config, .verbose, .help]

end Command

/-- The options that are known in front of a command. -/
def generalSettings : List Setting := [.config, .verbose, .version, .help]

/-! ## Options -/

/-- The options with one more. -/
def accept (given : List Given) (g : Given) : Except Ending (List Given) :=
  if g.setting = .version then .error .version
  else if g.setting = .help then .error .help
  else if g.setting.hasValue && g.value = "" then .error .misuse
  else if !g.setting.repeats && given.any fun before => before.setting = g.setting then .error .misuse
  else .ok (given ++ [g])

/-- The options up to the first word, and the arguments from there on. Two dashes end the options, and no word
may follow them. -/
def read (known : List Setting) (given : List Given) : List String → Except Ending (List Given × List String)
  | [] => .ok (given, [])
  | argument :: rest =>
    -- Behind two dashes everything is a word, and here no word is known.
    if argument = "--" then if rest.isEmpty then .ok (given, []) else .error .misuse
    else if isWord argument then .ok (given, argument :: rest)
    else
      match _h : options? known argument rest with
      | none => .error .misuse
      | some (found, left) =>
        match found.foldlM accept given with
        | .error e => .error e
        | .ok given => read known given left
  termination_by arguments => arguments.length
  decreasing_by exact Nat.lt_succ_of_le (length_options? _h)

/-- The value of an option that is given once. -/
def value? (given : List Given) (setting : Setting) : Option String :=
  (given.find? fun g => g.setting = setting).map Given.value

/-- The values of an option, in order. -/
def values (given : List Given) (setting : Setting) : List String :=
  (given.filter fun g => g.setting = setting).map Given.value

/-- Whether an option is given. -/
def isGiven (given : List Given) (setting : Setting) : Bool := (value? given setting).isSome

/-! ## Tasks -/

/-- The task of a command, unless an option it needs is missing. -/
def task? (given : List Given) : Command → Option Task
  | .preview => do
    let scene ← value? given .scene
    return .preview scene
  | .render => do
    let input ← value? given .input
    let scene ← value? given .scene
    let output ← value? given .output
    return .make (.render input scene output) (isGiven given .dryRun)
  | .merge => do
    let input ← value? given .input
    guard (isGiven given .segment)
    let output ← value? given .output
    return .make (.merge input (values given .segment) output) (isGiven given .dryRun)
  | .transportStream => do
    let input ← value? given .input
    let output ← value? given .output
    return .make (.transportStream input output) (isGiven given .dryRun)

/-- The request of a command, by the arguments behind it and the options in front. -/
def requestOf (command : Command) (general : List Given) (arguments : List String) : Except Ending Request := do
  let (given, left) ← read command.settings [] arguments
  match left, task? given command with
  | [], some task =>
    return ⟨task, (value? given .config).or (value? general .config),
      isGiven given .verbose || isGiven general .verbose⟩
  | _, _ => .error .misuse

/-- What a request for help comes to: it may name a command. -/
def helpEnding (arguments : List String) : Ending :=
  match arguments with
  | [] => .help
  | [word] => if word = "help" || (Command.ofName? word).isSome then .help else .misuse
  | _ => .misuse

/-- What arguments ask for. -/
def Request.ofArguments (arguments : List String) : Except Ending Request := do
  let (general, rest) ← read generalSettings [] arguments
  match rest with
  | [] => .error .misuse
  | word :: rest =>
    if word = "help" then .error (helpEnding rest)
    else
      match Command.ofName? word with
      | some command => requestOf command general rest
      | none => .error .misuse

end CommandLine
end VideoOverlay
