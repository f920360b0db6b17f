import VideoOverlay.Media.Listing
import VideoOverlay.Media.Picture
import VideoOverlay.System.Files

/-!
# `System.Machine` — files and programs

A machine has files, and programs that are found by their names. A name with a slash is a path to a program that
the machine may have; a name without one is looked up in the directories of programs. No file of the tree can be
run. A program that is started prints something and ends, with an exit code or by a signal.

A program is a function of its arguments: started again with the same ones it answers the same, and it leaves the
files as they are. Whatever is said of every machine is said of every behaviour of this kind. A run examines files
first, and starts an encoder at the very end, so it never sees what an encoder has written.

## Contents
- `Printed`, `exitCode`, `Printed.succeeded`: what a program leaves behind.
- `Machine`, `Machine.start`: starting a program. `Call`, `Machine.started`: the starts that come about.
- `Machine.isStill`, `Machine.probe`: examining a media file with a prober.
- `Machine.encode`: running an encoder.
-/

namespace VideoOverlay

/-! ## Programs -/

/-- What a program leaves behind: what it printed, and its exit code unless a signal ended it. -/
structure Printed where
  output : ByteArray := .empty
  messages : ByteArray := .empty
  code : Option Int := some 0

/-- The exit code that is seen of the number a program exits with: its last eight bits. -/
def exitCode (n : Int) : Int := n % 256

/-- Whether a program ended well. -/
def Printed.succeeded (p : Printed) : Bool := p.code = some 0

/-- Files, and programs by their names. -/
structure Machine where
  files : Files := {}
  programs : List (String × (List String → Printed)) := []

/-- A program that was started, and its arguments. -/
structure Call where
  program : String
  arguments : List String
  deriving DecidableEq, Repr

/-! ## Starting -/

/-- A text that cannot be handed over to a program. -/
def hasNul (s : String) : Bool := s.toList.contains '\x00'

/-- Why a file of the tree cannot be run. -/
def Files.runFailure (t : Files) (text : String) : FileError :=
  match t.locate text with
  | .error e => e
  | .ok _ => .notAllowed

namespace Machine

/-- The program of a name, which may be a path. -/
def program? (m : Machine) (name : String) : Option (List String → Printed) := List.lookup name m.programs

/-- Why a name without a slash is not that of a program. The directories of programs can be named, but not run. -/
def lookupFailure (name : String) : FileError :=
  if nameLimit.1 < name.utf8ByteSize then .nameTooLong
  else if name = "." || name = ".." then .notAllowed
  else .missing

/-- Why there is no program of a name. One with a slash is a path to something else, or to nothing. -/
def startFailure (m : Machine) (name : String) : FileError :=
  if name.toList.contains '/' then m.files.runFailure name else lookupFailure name

/-- Start a program: what it leaves behind, or why it could not be started. -/
def start (m : Machine) (name : String) (arguments : List String) : Except String Printed :=
  if hasNul name || arguments.any hasNul then .error "nul byte found in provided data"
  else
    match m.program? name with
    | some program => .ok (program arguments)
    | none => .error (m.startFailure name).reason

/-- The start of a program, if it comes about. -/
def started (m : Machine) (name : String) (arguments : List String) : List Call :=
  match m.start name arguments with
  | .ok _ => [⟨name, arguments⟩]
  | .error _ => []

/-! ## Examining -/

/-- Whether a file is a still picture. One that cannot be read is none. -/
def isStill (m : Machine) (path : String) : Bool :=
  match m.files.read? path with
  | some contents => isPicture contents.data.toList
  | none => false

/-- The arguments that make a prober list what it knows about a file. -/
def proberArguments (path : String) : List String :=
  ["-v", "error", "-print_format", "json", "-show_streams", "-show_format", path]

/-- Examine a media file with a prober. -/
def probe (m : Machine) (prober : String) : Probe := fun path =>
  match m.start prober (proberArguments path) with
  | .error reason => .error (.spawn prober reason)
  | .ok printed =>
    if printed.succeeded then reportOf path printed.output (m.isStill path)
    else .error (.failed path (Text.trim (Text.lossyText printed.messages)))

/-! ## Encoding -/

/-- Run an encoder. -/
def encode (m : Machine) (encoder : String) (arguments : List String) : Except RunError Unit :=
  match m.start encoder arguments with
  | .error reason => .error (.spawn encoder reason)
  | .ok printed =>
    if printed.succeeded then .ok ()
    else .error (.failed printed.code (Text.lossyText printed.messages))

end Machine
end VideoOverlay
