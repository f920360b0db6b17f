import VideoOverlay.Error

/-!
# `Config.Basic` — settings

Which programs are run, and how exports are made. A setting that is left out has a default. A program needs
a name, and so does the codec that files must have to be copied without encoding.

## Contents
- `Programs`, `ExportPolicy`, `Config`.
- `Config.validate`, with the first setting that is not usable.
-/

namespace VideoOverlay

/-- The programs that encode and that examine media files. -/
structure Programs where
  encoder : String := "ffmpeg"
  prober : String := "ffprobe"
  deriving DecidableEq, Repr

/-- How exports are made: the codec that copied streams must have, whether an output that exists is
replaced, and whether commands are logged. -/
structure ExportPolicy where
  requiredCodec : String := "h264"
  overwrite : Bool := true
  logCommands : Bool := false
  deriving DecidableEq, Repr

/-- All settings. -/
structure Config where
  programs : Programs := {}
  policy : ExportPolicy := {}
  deriving DecidableEq, Repr

namespace Config

/-- The first setting that is not usable, if there is one. -/
def problem? (c : Config) : Option ConfigError :=
  if Text.isBlankText c.programs.encoder then some (.missingKey "ffmpeg.binary")
  else if Text.isBlankText c.programs.prober then some (.missingKey "ffmpeg.probe_binary")
  else if Text.isBlankText c.policy.requiredCodec then
    some (.invalidValue "export.required_codec" c.policy.requiredCodec)
  else none

/-- Whether all settings are usable, and if not the first one that is not. -/
def validate (c : Config) : Except ConfigError Unit :=
  match c.problem? with
  | some e => .error e
  | none => .ok ()

end Config
end VideoOverlay
