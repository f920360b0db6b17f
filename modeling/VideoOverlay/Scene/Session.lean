import VideoOverlay.Media.Probe
import VideoOverlay.Scene.Entry
import VideoOverlay.Session
import VideoOverlay.Toml.Document

/-!
# `Scene.Session` — scenes and the sessions they make

A scene is a document with a list of overlays. Registered in their order they make a session. A picture
that does not say whether it is a still one is looked at by the probe, if there is one; a picture that
cannot be looked at is taken for a clip.

## Contents
- `Scene`, `Scene.parse?`.
- `Entry.withStill`: the entry of a picture that says whether it is a still one.
- `Scene.session`: the session of a scene.
-/

namespace VideoOverlay

/-- The overlays of a scene, in order. -/
structure Scene where
  entries : List Entry
  deriving DecidableEq

/-- The scene that a text is the document of. -/
def Scene.parse? (text : String) : Option Scene := do
  let document ← Toml.parse? text
  let overlays ← document.optional "overlay" Toml.Value.elements?
  let entries ← (overlays.getD []).mapM Entry.ofValue?
  return ⟨entries⟩

/-- Whether a probe can tell more about an entry: it is a picture with a file that does not say by itself
whether it is a still one. -/
def Entry.unknownFile? (e : Entry) : Option String :=
  if e.kind = "image" ∧ e.still = none then e.file else none

/-- The entry with the answer of the probe, if it gives one. -/
def Entry.withStill (probe : Option Probe) (e : Entry) : Assembly Entry :=
  match probe, e.unknownFile? with
  | some probe, some file => do
    let answer ← Assembly.ask probe file
    match answer with
    | .ok report => return { e with still := some report.still }
    | .error _ => return e
  | _, _ => return e

/-- The session with the overlay of one more entry. -/
def Session.registerEntry (probe : Option Probe) (s : Session) (e : Entry) : Assembly Session := do
  let e ← e.withStill probe
  let overlay ← Assembly.ofExcept (e.toOverlay.mapError .validation)
  Assembly.ofExcept ((s.register overlay).mapError .validation)

/-- The session with the overlays of some entries, if all are accepted. -/
def Session.registerEntries (probe : Option Probe) (s : Session) : List Entry → Assembly Session
  | [] => return s
  | e :: es => do
    let next ← s.registerEntry probe e
    next.registerEntries probe es

/-- The session of a scene. -/
def Scene.session (scene : Scene) (probe : Option Probe) : Assembly Session :=
  Session.empty.registerEntries probe scene.entries

end VideoOverlay
