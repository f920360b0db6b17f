import VideoOverlay.Proofs.Overlay.Complete
import VideoOverlay.Session

/-!
# `Proofs.Session.Register` — what one registration does

A session is determined by the overlays it has accepted, in their order: `Session.keeping` sorts such a list
by kind and lays out the input files. Accepting one more overlay is appending it to that list
(`register_keeping`). The color key is the one kind for which this needs an argument: its files go in front
of all others, but they do so once only, since a second key is refused.

## Contents
- `Overlay.picture?`, `text?`, `box?`, `colorKey?`: an overlay seen as one of a kind.
- `register_eq_ok_iff`, `register_eq_error_iff`: when a registration succeeds, and why it fails.
- `registerAll_eq_error_iff`: a list fails at its first overlay that is rejected.
- `Session.keeping`, `register_keeping`.
-/

namespace VideoOverlay

/-! ## Overlays of one kind -/

namespace Overlay

/-- The overlay as a picture, if it is one. -/
def picture? (o : Overlay) : Option (Placed Picture) :=
  match o.content with
  | .picture shown => some ⟨o.placement, shown⟩
  | _ => none

/-- The overlay as a text, if it is one. -/
def text? (o : Overlay) : Option (Placed String) :=
  match o.content with
  | .text fragment => some ⟨o.placement, fragment⟩
  | _ => none

/-- The overlay as a box, if it is one. -/
def box? (o : Overlay) : Option (Placed (Option Color)) :=
  match o.content with
  | .box color => some ⟨o.placement, color⟩
  | _ => none

/-- The overlay as a color key, if it is one. -/
def colorKey? (o : Overlay) : Option (Placed ColorKey) :=
  match o.content with
  | .colorKey key => some ⟨o.placement, key⟩
  | _ => none

variable {o : Overlay}

theorem eq_of_picture? {p : Placed Picture} (h : o.picture? = some p) : o = ⟨p.placement, .picture p.content⟩ := by
  obtain ⟨placement, c⟩ := o
  cases c <;> cases h
  rfl

theorem eq_of_text? {t : Placed String} (h : o.text? = some t) : o = ⟨t.placement, .text t.content⟩ := by
  obtain ⟨placement, c⟩ := o
  cases c <;> cases h
  rfl

theorem eq_of_box? {b : Placed (Option Color)} (h : o.box? = some b) : o = ⟨b.placement, .box b.content⟩ := by
  obtain ⟨placement, c⟩ := o
  cases c <;> cases h
  rfl

theorem eq_of_colorKey? {k : Placed ColorKey} (h : o.colorKey? = some k) :
    o = ⟨k.placement, .colorKey k.content⟩ := by
  obtain ⟨placement, c⟩ := o
  cases c <;> cases h
  rfl

end Overlay

namespace Session

variable {s next : Session} {o : Overlay} {e : ValidationError}

/-! ## Success and failure -/

/-- An overlay is registered exactly if it is valid and the session has room for it. -/
theorem register_eq_ok_iff :
    s.register o = .ok next ↔ Overlay.validate o = .ok () ∧ s.insert o = .ok next := by
  rw [register]
  cases Overlay.validate o with
  | error e =>
    constructor
    · intro h
      cases h
    · rintro ⟨h, _⟩
      cases h
  | ok u => exact ⟨fun h => ⟨rfl, h⟩, fun h => h.2⟩

/-- There is room for everything but a second color key. -/
theorem insert_eq_error_iff :
    s.insert o = .error e ↔ (∃ key, o.content = .colorKey key) ∧ s.colorKey ≠ none ∧ e = .duplicateColorKey := by
  obtain ⟨p, c⟩ := o
  cases c with
  | colorKey key =>
    simp only [insert]
    cases s.colorKey with
    | none => simp
    | some k => simp [eq_comm]
  | picture shown => simp [insert]
  | text fragment => simp [insert]
  | box color => simp [insert]

/-- **A registration fails exactly if the overlay is not valid, or is a second color key.** -/
theorem register_eq_error_iff :
    s.register o = .error e ↔ Overlay.validate o = .error e
      ∨ (Overlay.validate o = .ok () ∧ (∃ key, o.content = .colorKey key) ∧ s.colorKey ≠ none
          ∧ e = .duplicateColorKey) := by
  rw [register, ← insert_eq_error_iff]
  cases Overlay.validate o with
  | error e' =>
    constructor
    · intro h
      cases h
      exact .inl rfl
    · rintro (h | ⟨h, _⟩)
      · cases h
        rfl
      · cases h
  | ok u =>
    constructor
    · intro h
      exact .inr ⟨rfl, h⟩
    · rintro (h | ⟨_, h⟩)
      · cases h
      · exact h

/-- **A list of overlays fails at the first one that is rejected**, for the reason that one is, and keeps
    those before it. -/
theorem registerAll_eq_error_iff {os : List Overlay} :
    s.registerAll os = (next, .error e)
      ↔ ∃ front o rest, os = front ++ o :: rest ∧ s.registerAll front = (next, .ok ())
          ∧ next.register o = .error e := by
  constructor
  · intro h
    induction os generalizing s with
    | nil => cases h
    | cons o os ih =>
      rw [registerAll] at h
      split at h
      next mid hmid =>
        obtain ⟨front, o', rest, rfl, hfront, ho'⟩ := ih h
        refine ⟨o :: front, o', rest, rfl, ?_, ho'⟩
        rw [registerAll, hmid]
        exact hfront
      next e' he' =>
        cases h
        exact ⟨[], o, os, rfl, rfl, he'⟩
  · rintro ⟨front, o, rest, rfl, hfront, ho⟩
    rw [registerAll_append hfront, registerAll, ho]

/-! ## The session of a list of overlays -/

/-- The session that has accepted the overlays of a list, in this order. -/
def keeping (l : List Overlay) : Session where
  colorKey := (l.filterMap Overlay.colorKey?).head?
  pictures := l.filterMap Overlay.picture?
  texts := l.filterMap Overlay.text?
  boxes := l.filterMap Overlay.box?
  inputs := ((l.filterMap Overlay.colorKey?).head?.map fun k => k.content.files).getD []
    ++ (l.filterMap Overlay.picture?).flatMap fun p => p.content.file.toList

/-- Accepting an overlay is appending it to the list. -/
theorem register_keeping {l : List Overlay} (h : (keeping l).register o = .ok next) :
    next = keeping (l ++ [o]) := by
  obtain ⟨_, hins⟩ := register_eq_ok_iff.mp h
  obtain ⟨p, c⟩ := o
  cases c with
  | picture shown =>
    cases hins
    simp [keeping, Overlay.picture?, Overlay.text?, Overlay.box?, Overlay.colorKey?]
  | text fragment =>
    cases hins
    simp [keeping, Overlay.picture?, Overlay.text?, Overlay.box?, Overlay.colorKey?]
  | box color =>
    cases hins
    simp [keeping, Overlay.picture?, Overlay.text?, Overlay.box?, Overlay.colorKey?]
  | colorKey key =>
    simp only [insert] at hins
    split at hins
    next => cases hins
    next hnone =>
      -- No key is in the list yet, so the new one is its first.
      have hkeys : l.filterMap Overlay.colorKey? = [] := List.head?_eq_none_iff.mp hnone
      cases hins
      simp [keeping, hkeys, Overlay.picture?, Overlay.text?, Overlay.box?, Overlay.colorKey?]

/-- A session that has accepted a color key accepts no other. -/
theorem length_colorKeys_of_register {l : List Overlay}
    (hl : (l.filterMap Overlay.colorKey?).length ≤ 1) (h : (keeping l).register o = .ok next) :
    ((l ++ [o]).filterMap Overlay.colorKey?).length ≤ 1 := by
  obtain ⟨_, hins⟩ := register_eq_ok_iff.mp h
  rw [List.filterMap_append, List.length_append]
  obtain ⟨p, c⟩ := o
  cases c with
  | picture shown => exact hl
  | text fragment => exact hl
  | box color => exact hl
  | colorKey key =>
    simp only [insert] at hins
    split at hins
    next => cases hins
    next hnone =>
      have hkeys : l.filterMap Overlay.colorKey? = [] := List.head?_eq_none_iff.mp hnone
      simp [hkeys, Overlay.colorKey?]

end Session
end VideoOverlay
