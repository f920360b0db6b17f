import VideoOverlay.Text.Blank

/-!
# `Error` — what can go wrong, and how it is told

Every failure is a value that names its cause. Its message is computed from the cause alone: once with
the category in front for a log, and once in the words shown to a user, which for a few causes say what
to do about it.

## Contents
- `ValidationError`, `ConfigError`, `GraphError`, `ProbeError`, `RunError`: the causes, by stage.
- `Error`: any of them. `Error.cause`, `Error.message`: without and with the category.
- `Error.userMessage`, `Error.isRecoverable`: for the user, and whether a changed input may help.
-/

namespace VideoOverlay

/-! ## Causes -/

/-- An overlay, or a file given to an export, is not acceptable. -/
inductive ValidationError where
  | missingField (kind field : String)
  | invalidValue (field details : String)
  | duplicateColorKey
  | unsupportedKind (kind : String)
  | unsupportedCodec (operation expected found : String)
  deriving DecidableEq, Repr

/-- A configuration or scene file, or a setting, is not usable. -/
inductive ConfigError where
  | parseFailed (path : String)
  | invalidValue (key value : String)
  | missingKey (key : String)
  | fileNotFound (path : String)
  | unresolvedPlaceholder (token : String)
  deriving DecidableEq, Repr

/-- A segment of a graph reads a label that no earlier segment writes. -/
inductive GraphError where
  | danglingLabel (label : String) (segment : Nat)
  deriving DecidableEq, Repr

/-- A media file could not be examined. -/
inductive ProbeError where
  | spawn (binary reason : String)
  | failed (path stderr : String)
  | parse (path reason : String)
  | noVideoStream (path : String)
  deriving DecidableEq, Repr

/-- The encoder could not be started, or did not succeed. A run ended by a signal has no exit code. -/
inductive RunError where
  | spawn (binary reason : String)
  | failed (code : Option Int) (stderr : String)
  deriving DecidableEq, Repr

/-- Any failure, by category. -/
inductive Error where
  | validation (cause : ValidationError)
  | config (cause : ConfigError)
  | graph (cause : GraphError)
  | probe (cause : ProbeError)
  | run (cause : RunError)
  | io (reason : String)
  deriving DecidableEq, Repr

/-! ## Messages -/

/-- The message of a rejected overlay or file. -/
def ValidationError.message : ValidationError → String
  | .missingField kind field => "Filter \"" ++ kind ++ "\" error: missing " ++ field
  | .invalidValue field details => "Invalid value for " ++ field ++ ": " ++ details
  | .duplicateColorKey => "only one color-key filter per session"
  | .unsupportedKind kind =>
    "Unsupported overlay kind \"" ++ kind ++ "\". Only colorkey, image, text, box are supported"
  | .unsupportedCodec operation expected found =>
    operation ++ " requires a " ++ expected ++ " video stream, found " ++ found

/-- The message of an unusable file or setting. -/
def ConfigError.message : ConfigError → String
  | .parseFailed path => "Failed to parse configuration file: " ++ path
  | .invalidValue key value => "Invalid configuration value: " ++ key ++ " = " ++ value
  | .missingKey key => "Missing required configuration: " ++ key
  | .fileNotFound path => "Configuration file not found: " ++ path
  | .unresolvedPlaceholder token =>
    "Filter graph still contains " ++ token ++ " and no duration probe is available"

/-- The message of a badly linked graph. -/
def GraphError.message : GraphError → String
  | .danglingLabel label segment =>
    "Segment " ++ toString segment ++ " consumes label [" ++ label ++ "] which no earlier segment produced"

/-- The message of a failed examination. -/
def ProbeError.message : ProbeError → String
  | .spawn binary reason => "Failed to run " ++ binary ++ ": " ++ reason
  | .failed path stderr => "Probe failed for " ++ path ++ ": " ++ stderr
  | .parse path reason => "Unreadable probe output for " ++ path ++ ": " ++ reason
  | .noVideoStream path => "No video stream found in " ++ path

/-- An exit code that may be missing, as logs show it. -/
def exitCodeText : Option Int → String
  | some code => "Some(" ++ toString code ++ ")"
  | none => "None"

/-- The message of a failed run. -/
def RunError.message : RunError → String
  | .spawn binary reason => "Failed to start " ++ binary ++ ": " ++ reason
  | .failed code stderr => "Encoding failed with exit code " ++ exitCodeText code ++ ": " ++ stderr

namespace Error

/-- The message of the cause, without the category. -/
def cause : Error → String
  | .validation e => e.message
  | .config e => e.message
  | .graph e => e.message
  | .probe e => e.message
  | .run e => e.message
  | .io reason => reason

/-- The category of a failure, as a heading. -/
def heading : Error → String
  | .validation _ => "Validation error"
  | .config _ => "Configuration error"
  | .graph _ => "Filter graph error"
  | .probe _ => "Probe error"
  | .run _ => "Export failed"
  | .io _ => "IO error"

/-- The message with the category in front. -/
def message (e : Error) : String := e.heading ++ ": " ++ e.cause

/-- The message shown to a user. -/
def userMessage : Error → String
  | .config (.fileNotFound path) => "Configuration file '" ++ path ++ "' not found."
  | .config (.unresolvedPlaceholder _) =>
    "A fade-out depends on the video length but the video could not be probed. " ++
      "Give the overlay an explicit time range or configure ffprobe."
  | .probe (.spawn binary _) | .run (.spawn binary _) =>
    "Could not run '" ++ binary ++ "'. Please check it is installed and on PATH."
  | .run (.failed code stderr) =>
    "ffmpeg exited with " ++ (code.map toString).getD "signal" ++ ":\n" ++ Text.trim stderr
  | e => e.message

/-- Whether the caller can change the input, or the machine, and try again. A failed run is final. -/
def isRecoverable : Error → Bool
  | .validation _ | .config _ | .io _ | .probe (.spawn ..) => true
  | _ => false

end Error
end VideoOverlay
