import VideoOverlay.Config.Document
import VideoOverlay.System.Files

/-!
# `Config.File` — settings in a file

Settings are kept in a file as their document. Loading refuses settings that are not usable; saving does not
look at them.

## Contents
- `Config.load`, `Config.save`.
- `Config.load_save`: what loading gives after saving, by what the document reads back as.
-/

namespace VideoOverlay
namespace Config

/-- The settings in a file. One that cannot be read counts as missing, and so does one that holds no text. -/
def load (files : Files) (path : String) : Except Error Config :=
  match files.readText? path with
  | none => .error (.config (.fileNotFound path))
  | some text =>
    match parse? text with
    | none => .error (.config (.parseFailed path))
    | some c => (c.validate.mapError .config).map fun _ => c

/-- The files with the settings written to one of them. -/
def save (c : Config) (files : Files) (path : String) : Except Error Files :=
  (files.write path c.document.toUTF8).mapError fun e => .io e.reason

/-- Loading after saving reads the document that was written. -/
theorem load_save {c : Config} {files next : Files} {path : String} (h : c.save files path = .ok next) :
    load next path =
      match parse? c.document with
      | none => .error (.config (.parseFailed path))
      | some c => (c.validate.mapError .config).map fun _ => c := by
  have hw : files.write path c.document.toUTF8 = .ok next := by
    simp only [save] at h
    cases hw : files.write path c.document.toUTF8 with
    | error e => rw [hw] at h; cases h
    | ok written => rw [hw] at h; cases h; rfl
  simp only [load, Files.readText?, Files.read?_of_write hw, Option.bind_some, Text.strictText?_toUTF8]

end Config
end VideoOverlay
