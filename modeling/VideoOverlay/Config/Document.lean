import VideoOverlay.Config.Basic
import VideoOverlay.Toml.Document
import VideoOverlay.Toml.Typed
import VideoOverlay.Toml.Writer

/-!
# `Config.Document` — settings as a document

Settings are read from a document with a table for programs and one for exports; what is missing has its
default, and what is unknown is left out of account. All of them are written, each table with its header.

## Contents
- `Config.parse?`: reading. `Config.document`: writing.
-/

namespace VideoOverlay

/-! ## Reading -/

/-- A field that has a default. -/
def fieldOr {α : Type} (fields : Toml.Entries) (name : String) (expected : Toml.Value → Option α)
    (unset : α) : Option α :=
  (fields.optional name expected).map fun given => given.getD unset

/-- The programs in a table. -/
def Programs.ofValue? (v : Toml.Value) : Option Programs := do
  let fields ← v.fields? ["binary", "probe_binary"]
  let unset : Programs := {}
  let encoder ← fieldOr fields "binary" Toml.Value.string? unset.encoder
  let prober ← fieldOr fields "probe_binary" Toml.Value.string? unset.prober
  return ⟨encoder, prober⟩

/-- The policy in a table. -/
def ExportPolicy.ofValue? (v : Toml.Value) : Option ExportPolicy := do
  let fields ← v.fields? ["required_codec", "overwrite", "log_commands"]
  let unset : ExportPolicy := {}
  let requiredCodec ← fieldOr fields "required_codec" Toml.Value.string? unset.requiredCodec
  let overwrite ← fieldOr fields "overwrite" Toml.Value.boolean? unset.overwrite
  let logCommands ← fieldOr fields "log_commands" Toml.Value.boolean? unset.logCommands
  return ⟨requiredCodec, overwrite, logCommands⟩

/-- The settings that a text is the document of, usable or not. -/
def Config.parse? (text : String) : Option Config := do
  let document ← Toml.parse? text
  let programs ← fieldOr document "ffmpeg" Programs.ofValue? {}
  let policy ← fieldOr document "export" ExportPolicy.ofValue? {}
  return ⟨programs, policy⟩

/-! ## Writing -/

/-- The line of a setting. -/
def settingLine (name value : String) : String := name ++ " = " ++ value ++ "\n"

/-- The document of all settings. -/
def Config.document (c : Config) : String :=
  "[ffmpeg]\n" ++ settingLine "binary" (Toml.writeString c.programs.encoder)
    ++ settingLine "probe_binary" (Toml.writeString c.programs.prober)
    ++ "\n[export]\n" ++ settingLine "required_codec" (Toml.writeString c.policy.requiredCodec)
    ++ settingLine "overwrite" (Toml.writeBool c.policy.overwrite)
    ++ settingLine "log_commands" (Toml.writeBool c.policy.logCommands)

end VideoOverlay
