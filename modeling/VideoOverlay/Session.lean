import VideoOverlay.Overlay.Validate

/-!
# `Session` — the overlays of one export

Overlays are registered one by one and kept by kind. A rejected overlay leaves the session as it was.
The session also keeps the files it reads besides the main video, in the order they are given to the
encoder: the files of the color key come first, then those of the pictures as they were registered.

## Contents
- `Session`, `Session.isEmpty`.
- `Session.insert`, `Session.register`, `Session.registerAll`.
-/

namespace VideoOverlay

/-- The accepted overlays of one export, by kind, and the files they read. -/
structure Session where
  colorKey : Option (Placed ColorKey) := none
  pictures : List (Placed Picture) := []
  texts : List (Placed String) := []
  boxes : List (Placed (Option Color)) := []
  inputs : List String := []
  deriving DecidableEq

namespace Session

/-- The session nothing is registered in. -/
def empty : Session := {}

/-- Whether nothing is registered. -/
def isEmpty (s : Session) : Bool :=
  s.colorKey.isNone && s.pictures.isEmpty && s.texts.isEmpty && s.boxes.isEmpty

/-- The number of files the color key reads. -/
def colorKeyInputCount (s : Session) : Nat := (s.colorKey.map fun k => k.content.files.length).getD 0

/-! ## Registration -/

/-- The session with one more overlay, without a look at its fields. There is at most one color key. -/
def insert (s : Session) (o : Overlay) : Except ValidationError Session :=
  match o.content with
  | .picture shown =>
    .ok { s with pictures := s.pictures ++ [⟨o.placement, shown⟩], inputs := s.inputs ++ shown.file.toList }
  | .text fragment => .ok { s with texts := s.texts ++ [⟨o.placement, fragment⟩] }
  | .box color => .ok { s with boxes := s.boxes ++ [⟨o.placement, color⟩] }
  | .colorKey key =>
    match s.colorKey with
    | some _ => .error .duplicateColorKey
    | none => .ok { s with colorKey := some ⟨o.placement, key⟩, inputs := key.files ++ s.inputs }

/-- The session with one more overlay, if that is acceptable. -/
def register (s : Session) (o : Overlay) : Except ValidationError Session := do
  o.validate
  s.insert o

/-- The session after a list of overlays, up to the first that is rejected, and why that one is. -/
def registerAll (s : Session) : List Overlay → Session × Except ValidationError Unit
  | [] => (s, .ok ())
  | o :: os =>
    match s.register o with
    | .ok next => next.registerAll os
    | .error e => (s, .error e)

/-- Registering a list that is accepted whole and then another one is registering both at once. -/
theorem registerAll_append {s next : Session} {os : List Overlay} (h : s.registerAll os = (next, .ok ()))
    (rest : List Overlay) : s.registerAll (os ++ rest) = next.registerAll rest := by
  induction os generalizing s with
  | nil => cases h; rfl
  | cons o os ih =>
    simp only [registerAll, List.cons_append] at h ⊢
    split at h
    · exact ih h
    · cases h

end Session
end VideoOverlay
